import Belayer.Engine.Shutdown

namespace Belayer.Engine

open Belayer.Framework Belayer.Router

namespace SGLangEngine

@[simp] theorem activePid_kill (e : SGLangEngine) (pid : Nat) :
    (e.kill pid).activePid = e.activePid := by
  cases h : e.process with
  | none => simp [kill, activePid, h]
  | some p => by_cases hp : p.pid = pid <;> simp [kill, activePid, Process.killed, h, hp]

theorem process_kill_eq_none (e : SGLangEngine) (pid : Nat) :
    (e.kill pid).process = none ↔ e.process = none := by
  simp [kill]

theorem shadowWorker_kill_eq_none (e : SGLangEngine) (pid : Nat) :
    (e.kill pid).shadowWorker = none ↔ e.shadowWorker = none := by
  simp [kill]

/-- A process that is up after a kill was up before it and is another one. -/
theorem killed_eq_up {p : Option Process} {pid up : Nat} :
    p.map (Process.killed pid) = some ⟨up, true⟩ ↔ p = some ⟨up, true⟩ ∧ pid ≠ up := by
  cases p with
  | none => simp
  | some p =>
    obtain ⟨n, a⟩ := p
    by_cases hn : n = pid <;> simp [Process.killed, hn] <;> grind

end SGLangEngine

namespace LaunchedEngine

variable {c : LaunchedEngine}

theorem port_ne (c : LaunchedEngine) : c.port ≠ c.shadowPort := by
  simp [shadowPort, shadowPortOffset]
  omega

theorem activeUrl_ne (c : LaunchedEngine) : c.activeUrl ≠ c.shadowUrl :=
  fun h => c.port_ne (SGLangEngine.workerUrl_inj h)

theorem activeUrl_ne_empty (c : LaunchedEngine) : c.activeUrl ≠ "" :=
  SGLangEngine.workerUrl_ne_empty _ _

theorem shadowUrl_ne_empty (c : LaunchedEngine) : c.shadowUrl ≠ "" :=
  SGLangEngine.workerUrl_ne_empty _ _

/-- What every step keeps of the engine. -/
structure Shape (c : LaunchedEngine) (e : SGLangEngine) : Prop where
  usesRouter : e.usesRouter = c.engine.usesRouter
  regular : e.workerType = "regular"
  own : e.rolloutExternal = false
  host : e.serverHost = c.host
  port : e.serverPort = c.port ∨ e.serverPort = c.shadowPort
  active : e.process = none → e.shadowWorker = none
  shadow : ∀ p ∈ e.shadowWorker, p.pid = c.shadowPid
  args : ∀ a ∈ e.shadowServerArgs, a = ⟨c.host, c.shadowPort⟩

/-- The engine still runs its first process under its first url. -/
def Primary (c : LaunchedEngine) (e : SGLangEngine) : Prop :=
  e.serverPort = c.port ∧ e.activePid ≠ some c.shadowPid

/-- The new url is registered, unless the engine does not use the router. -/
def NewRoute (c : LaunchedEngine) (r : SlimeRouter) : Prop :=
  c.engine.usesRouter → c.shadowUrl ∈ r.workerRequestCounts

/-- What holds of the engine and the router when the watcher is at a statement. -/
def WatcherAt (c : LaunchedEngine) (e : SGLangEngine) (r : SlimeRouter) (oldUrl newUrl : String) :
    WatcherPc → Prop
  | .polling | .checkingShadow =>
    (c.Primary e ∧ c.shadowUrl ∉ r.workerRequestCounts) ∨ e.shadowWorker = none
  | .checkingProcess | .checkingPending | .checkingReady | .probing | .computingOld =>
    c.Primary e ∧ c.shadowUrl ∉ r.workerRequestCounts
  | .computingNew => c.Primary e ∧ c.shadowUrl ∉ r.workerRequestCounts ∧ oldUrl = c.activeUrl
  | .registering =>
    c.Primary e ∧ c.shadowUrl ∉ r.workerRequestCounts ∧ oldUrl = c.activeUrl ∧
      newUrl = c.shadowUrl
  | .unregistering => c.Primary e ∧ c.NewRoute r ∧ oldUrl = c.activeUrl
  | .killing | .swapping => c.Primary e ∧ c.NewRoute r
  | .droppingShadow => e.serverPort = c.port ∧ c.NewRoute r
  | .settingArgs => e.serverPort = c.port ∧ c.NewRoute r ∧ e.shadowWorker = none
  | .droppingArgs | .settingHost | .settingPort =>
    e.serverPort = c.port ∧ c.NewRoute r ∧ e.shadowWorker = none ∧
      ∀ a ∈ e.serverArgs, a = ⟨c.host, c.shadowPort⟩
  | .disabling | .marking => e.shadowWorker = none
  | .finished => c.Primary e ∨ e.shadowWorker = none

/-- The shadow is waiting, and it is up. -/
def ShadowUp (c : LaunchedEngine) (e : SGLangEngine) : Prop :=
  e.shadowWorker = some ⟨c.shadowPid, true⟩

/-- What holds of the engine when shutdown is at a statement. -/
def ShutdownAt (c : LaunchedEngine) (e : SGLangEngine) (url : String) (pid : Nat) :
    ShutdownPc → Prop
  | .unregistering => url = c.activeUrl ∨ (url = c.shadowUrl ∧ e.serverPort = c.shadowPort)
  | .killingShadow => pid = c.shadowPid
  | .droppingShadow => ¬c.PromotedUp e ∧ ¬c.ShadowUp e
  | .droppingArgs | .disabling => ¬c.PromotedUp e ∧ e.shadowWorker = none
  | .finished => e.shadowWorker ≠ none → c.engine.usesRouter
  | .stopping | .reading | .readingPid | .killing | .checkingShadow | .readingShadowPid => True

/-- What the watcher relies on: the changes that shutdown or a crash makes. -/
structure ShutdownEffect (c : LaunchedEngine) (e e' : SGLangEngine) (r r' : SlimeRouter) :
    Prop where
  port : e'.serverPort = e.serverPort
  serverArgs : e'.serverArgs = e.serverArgs
  activePid : e'.activePid = e.activePid
  shadow : e.shadowWorker = none → e'.shadowWorker = none
  route : e.serverPort = c.port →
    (c.shadowUrl ∈ r'.workerRequestCounts ↔ c.shadowUrl ∈ r.workerRequestCounts)

/-- What shutdown relies on: the changes that the watcher or a crash makes. -/
structure WatcherEffect (c : LaunchedEngine) (e e' : SGLangEngine) : Prop where
  port : e.serverPort = c.shadowPort → e'.serverPort = c.shadowPort
  promoted : c.PromotedUp e' → c.PromotedUp e ∨ c.ShadowUp e
  shadowUp : c.ShadowUp e' → c.ShadowUp e
  shadow : e.shadowWorker = none → e'.shadowWorker = none

/-- The changes of shutdown do not interfere with the watcher. -/
theorem WatcherAt.stable {e e' : SGLangEngine} {r r' : SlimeRouter} {oldUrl newUrl : String}
    {pc : WatcherPc} (h : c.WatcherAt e r oldUrl newUrl pc) (he : c.ShutdownEffect e e' r r') :
    c.WatcherAt e' r' oldUrl newUrl pc := by
  have hprimary : c.Primary e' ↔ c.Primary e := by
    simp only [Primary, he.port, he.activePid]
  have hroute (hp : e.serverPort = c.port) : c.NewRoute r' ↔ c.NewRoute r := by
    simp only [NewRoute, he.route hp]
  cases pc <;> simp only [WatcherAt, hprimary, he.port, he.serverArgs] at h ⊢
  case polling | checkingShadow =>
    exact h.imp (fun h => ⟨h.1, fun hn => h.2 ((he.route h.1.1).mp hn)⟩) he.shadow
  case checkingProcess | checkingPending | checkingReady | probing | computingOld =>
    exact ⟨h.1, fun hn => h.2 ((he.route h.1.1).mp hn)⟩
  case computingNew | registering => exact ⟨h.1, fun hn => h.2.1 ((he.route h.1.1).mp hn), h.2.2⟩
  case unregistering => exact ⟨h.1, (hroute h.1.1).mpr h.2.1, h.2.2⟩
  case killing | swapping => exact ⟨h.1, (hroute h.1.1).mpr h.2⟩
  case droppingShadow => exact ⟨h.1, (hroute h.1).mpr h.2⟩
  case settingArgs => exact ⟨h.1, (hroute h.1).mpr h.2.1, he.shadow h.2.2⟩
  case droppingArgs | settingHost | settingPort =>
    exact ⟨h.1, (hroute h.1).mpr h.2.1, he.shadow h.2.2.1, h.2.2.2⟩
  case disabling | marking => exact he.shadow h
  case finished => exact h.imp_right he.shadow

/-- The changes of the watcher do not interfere with shutdown. -/
theorem ShutdownAt.stable {e e' : SGLangEngine} {url : String} {pid : Nat} {pc : ShutdownPc}
    (h : c.ShutdownAt e url pid pc) (he : c.WatcherEffect e e') : c.ShutdownAt e' url pid pc := by
  have hnone (hs : e.shadowWorker = none) : ¬c.ShadowUp e := by simp [ShadowUp, hs]
  cases pc
  case unregistering => exact h.imp_right (fun h => ⟨h.1, he.port h.2⟩)
  case killingShadow => exact h
  case droppingShadow =>
    exact ⟨fun hp => (he.promoted hp).elim h.1 h.2, fun hs => h.2 (he.shadowUp hs)⟩
  case droppingArgs | disabling =>
    exact ⟨fun hp => (he.promoted hp).elim h.1 (hnone h.2), he.shadow h.2⟩
  case finished => exact fun hs => h (fun hn => hs (he.shadow hn))
  all_goals trivial

/-! ### The changes one by one -/

theorem Shape.kill {e : SGLangEngine} (h : c.Shape e) (pid : Nat) : c.Shape (e.kill pid) where
  usesRouter := h.usesRouter
  regular := h.regular
  own := h.own
  host := h.host
  port := h.port
  active hn := (e.shadowWorker_kill_eq_none pid).mpr (h.active ((e.process_kill_eq_none pid).mp hn))
  shadow p hp := by
    obtain ⟨p₀, hp₀, rfl⟩ := Option.map_eq_some_iff.mp hp
    rw [← h.shadow p₀ hp₀, Process.killed]
    split <;> rfl
  args := h.args

theorem shutdownEffect_kill (c : LaunchedEngine) (e : SGLangEngine) (r : SlimeRouter) (pid : Nat) :
    c.ShutdownEffect e (e.kill pid) r r where
  port := rfl
  serverArgs := rfl
  activePid := e.activePid_kill pid
  shadow := (e.shadowWorker_kill_eq_none pid).mpr
  route _ := Iff.rfl

theorem promotedUp_kill {e : SGLangEngine} {pid : Nat} :
    c.PromotedUp (e.kill pid) ↔ c.PromotedUp e ∧ pid ≠ c.shadowPid :=
  SGLangEngine.killed_eq_up

theorem shadowUp_kill {e : SGLangEngine} {pid : Nat} :
    c.ShadowUp (e.kill pid) ↔ c.ShadowUp e ∧ pid ≠ c.shadowPid :=
  SGLangEngine.killed_eq_up

theorem watcherEffect_kill (c : LaunchedEngine) (e : SGLangEngine) (pid : Nat) :
    c.WatcherEffect e (e.kill pid) where
  port h := h
  promoted h := .inl (promotedUp_kill.mp h).1
  shadowUp h := (shadowUp_kill.mp h).1
  shadow := (e.shadowWorker_kill_eq_none pid).mpr

/-- A change of the watcher that leaves both processes alone. -/
theorem WatcherEffect.of_same {e e' : SGLangEngine}
    (hport : e.serverPort = c.shadowPort → e'.serverPort = c.shadowPort)
    (hprocess : e'.process = e.process) (hshadow : e'.shadowWorker = e.shadowWorker) :
    c.WatcherEffect e e' where
  port := hport
  promoted hp := by
    have hup : c.PromotedUp e := by rwa [PromotedUp, hprocess] at hp
    exact .inl hup
  shadowUp hs := by rwa [ShadowUp, hshadow] at hs
  shadow hn := hshadow.trans hn

/-- A change of shutdown that leaves the port, the arguments and the active process alone. -/
theorem ShutdownEffect.of_same {e e' : SGLangEngine} {r : SlimeRouter}
    (hport : e'.serverPort = e.serverPort) (hargs : e'.serverArgs = e.serverArgs)
    (hpid : e'.activePid = e.activePid)
    (hshadow : e.shadowWorker = none → e'.shadowWorker = none) : c.ShutdownEffect e e' r r where
  port := hport
  serverArgs := hargs
  activePid := hpid
  shadow := hshadow
  route _ := Iff.rfl

theorem NewRoute.mono {r r' : SlimeRouter} (h : c.NewRoute r)
    (hr : c.shadowUrl ∈ r.workerRequestCounts → c.shadowUrl ∈ r'.workerRequestCounts) :
    c.NewRoute r' :=
  fun hu => hr (h hu)

/-- The invariant of an engine whose shutdown runs next to its watcher. -/
structure Inv (c : LaunchedEngine) (s : ShutdownState) : Prop where
  shape : c.Shape s.engine
  routes : c.activeUrl ∈ s.router.workerRequestCounts ∨
    c.shadowUrl ∈ s.router.workerRequestCounts → c.engine.usesRouter
  watcher : c.WatcherAt s.engine s.router s.oldUrl s.newUrl s.watcher
  shutdown : c.ShutdownAt s.engine s.url s.pid s.shutdown

variable {s : ShutdownState}

/-- A shadow that is still waiting was not promoted. -/
theorem Inv.primary_of_available (h : c.Inv s) (hw : s.watcher = .checkingShadow)
    (ha : s.engine.shadowAvailable) :
    c.Primary s.engine ∧ c.shadowUrl ∉ s.router.workerRequestCounts := by
  have hat := h.watcher
  rw [hw] at hat
  refine hat.resolve_right ?_
  intro hn
  simp [SGLangEngine.shadowAvailable, hn] at ha

/-! ### Steps of the watcher -/

theorem Inv.watcherMoves (h : c.Inv s) {w : WatcherPc} {reason oldUrl newUrl : String}
    (hw : c.WatcherAt s.engine s.router oldUrl newUrl w) :
    c.Inv { s with watcher := w, reason := reason, oldUrl := oldUrl, newUrl := newUrl } :=
  ⟨h.shape, h.routes, hw, h.shutdown⟩

theorem Inv.watcherActs (h : c.Inv s) {e : SGLangEngine} {w : WatcherPc} (hs : c.Shape e)
    (he : c.WatcherEffect s.engine e) (hw : c.WatcherAt e s.router s.oldUrl s.newUrl w) :
    c.Inv { s with engine := e, watcher := w } :=
  ⟨hs, h.routes, hw, h.shutdown.stable he⟩

theorem Inv.registers (h : c.Inv s) (hw : s.watcher = .registering)
    (probes : List (Option Nat)) (o : HttpOutcome) : c.Inv (s.watcherNext probes o) := by
  obtain ⟨hp, hn, hold, hnew⟩ : c.WatcherAt s.engine s.router s.oldUrl s.newUrl .registering :=
    hw ▸ h.watcher
  have hmem := s.engine.mem_registerWorker s.router c.shadowUrl_ne_empty o
  have hok := s.engine.registerWorker_ok s.router c.shadowUrl o
  have hroutes : c.activeUrl ∈ (s.engine.registerWorker s.router c.shadowUrl
      o).1.workerRequestCounts ∨ c.shadowUrl ∈ (s.engine.registerWorker s.router c.shadowUrl
      o).1.workerRequestCounts → c.engine.usesRouter := by
    rw [hmem, hmem]
    intro hx
    rcases hx with (⟨hr, -⟩ | ha) | (⟨hr, -⟩ | ha)
    · exact h.shape.usesRouter ▸ hr.1
    · exact h.routes (.inl ha)
    · exact h.shape.usesRouter ▸ hr.1
    · exact h.routes (.inr ha)
  simp only [ShutdownState.watcherNext, hw, hnew]
  split
  · rename_i r error hr
    rw [hr] at hroutes
    exact ⟨h.shape, hroutes, .inl hp, h.shutdown⟩
  · rename_i r u hr
    rw [hr] at hroutes hmem hok
    refine ⟨h.shape, hroutes, ⟨hp, ?_, hold⟩, h.shutdown⟩
    intro hu
    exact (hmem c.shadowUrl).mpr (.inl ⟨hok rfl (h.shape.usesRouter ▸ hu), rfl⟩)

theorem Inv.unregistersOld (h : c.Inv s) (hw : s.watcher = .unregistering)
    (probes : List (Option Nat)) (o : HttpOutcome) : c.Inv (s.watcherNext probes o) := by
  obtain ⟨hp, hn, hold⟩ : c.WatcherAt s.engine s.router s.oldUrl s.newUrl .unregistering :=
    hw ▸ h.watcher
  have hmem := s.engine.mem_unregisterWorker s.router c.activeUrl_ne_empty o
  simp only [ShutdownState.watcherNext, hw, hold]
  refine ⟨h.shape, ?_, ⟨hp, ?_⟩, h.shutdown⟩
  · intro hr
    exact h.routes (hr.imp (fun ha => ((hmem _).mp ha).2) (fun ha => ((hmem _).mp ha).2))
  · refine hn.mono (fun hs => (hmem _).mpr ⟨?_, hs⟩)
    intro hx
    obtain ⟨-, he⟩ := hx
    exact c.activeUrl_ne he.symm

theorem Inv.watcherNext (h : c.Inv s) (probes : List (Option Nat)) (o : HttpOutcome) :
    c.Inv (s.watcherNext probes o) := by
  have hat := h.watcher
  cases hw : s.watcher <;> rw [hw] at hat
  case registering => exact h.registers hw probes o
  case unregistering => exact h.unregistersOld hw probes o
  all_goals simp only [ShutdownState.watcherNext, hw]
  case polling =>
    split
    · exact h.watcherMoves (hat.imp_left And.left)
    · exact h.watcherMoves hat
  case checkingShadow =>
    split
    · rename_i ha
      exact h.watcherMoves (h.primary_of_available hw ha)
    · exact h.watcherMoves hat
  case checkingProcess =>
    split
    · exact h.watcherMoves (.inl hat)
    · split
      · exact h.watcherMoves (.inl hat)
      · exact h.watcherMoves hat
  case checkingPending | checkingReady =>
    split
    · first | exact h.watcherMoves (.inl hat) | exact h.watcherMoves hat
    · first | exact h.watcherMoves hat | exact h.watcherMoves (.inl hat)
  case probing =>
    split
    · exact h.watcherMoves (.inl hat.1)
    · split
      · exact h.watcherMoves hat
      · exact h.watcherMoves (.inl hat)
  case computingOld =>
    refine h.watcherMoves ⟨hat.1, hat.2, ?_⟩
    rw [h.shape.host, hat.1.1]
    rfl
  case computingNew =>
    split
    · exact h.watcherMoves (.inl hat.1)
    · rename_i args ha
      refine h.watcherMoves ⟨hat.1, hat.2.1, hat.2.2, ?_⟩
      rw [h.shape.args args ha]
      rfl
  case killing =>
    have hswap : c.WatcherAt s.engine s.router s.oldUrl s.newUrl .swapping := hat
    have hkill (pid : Nat) : c.WatcherAt (s.engine.kill pid) s.router s.oldUrl s.newUrl .swapping :=
      hswap.stable (c.shutdownEffect_kill s.engine s.router pid)
    split
    · exact h.watcherMoves hat
    · exact h.watcherActs (h.shape.kill _) (c.watcherEffect_kill s.engine _) (hkill _)
  case swapping =>
    exact h.watcherActs { h.shape with active := id } ⟨id, .inr, id, id⟩ ⟨hat.1.1, hat.2⟩
  case droppingShadow =>
    exact h.watcherActs { h.shape with active := fun _ => rfl, shadow := by simp }
      ⟨id, .inl, by simp [ShadowUp], fun _ => rfl⟩ ⟨hat.1, hat.2, rfl⟩
  case settingArgs =>
    exact h.watcherActs { h.shape with } (.of_same id rfl rfl)
      ⟨hat.1, hat.2.1, hat.2.2, h.shape.args⟩
  case droppingArgs =>
    exact h.watcherActs { h.shape with args := by simp } (.of_same id rfl rfl) hat
  case settingHost =>
    split
    · exact h.watcherMoves (.inr hat.2.2.1)
    · rename_i args ha
      have hhost : args.host = c.host := by rw [hat.2.2.2 args ha]
      exact h.watcherActs { h.shape with host := hhost } (.of_same id rfl rfl) hat
  case settingPort =>
    split
    · exact h.watcherMoves (.inr hat.2.2.1)
    · rename_i args ha
      have hport : args.port = c.shadowPort := by rw [hat.2.2.2 args ha]
      exact h.watcherActs { h.shape with port := .inr hport } (.of_same (fun _ => hport) rfl rfl)
        hat.2.2.1
  case disabling =>
    exact h.watcherActs { h.shape with } (.of_same id rfl rfl) hat
  case marking =>
    exact h.watcherActs { h.shape with } (.of_same id rfl rfl) (.inr hat)
  case finished => exact h

/-! ### Steps of shutdown and crashes -/

theorem Inv.shutdownMoves (h : c.Inv s) {pc : ShutdownPc} {url : String} {pid : Nat}
    (hs : c.ShutdownAt s.engine url pid pc) :
    c.Inv { s with shutdown := pc, url := url, pid := pid } :=
  ⟨h.shape, h.routes, h.watcher, hs⟩

theorem Inv.shutdownActs (h : c.Inv s) {e : SGLangEngine} {pc : ShutdownPc} (hs : c.Shape e)
    (he : c.ShutdownEffect s.engine e s.router s.router)
    (hp : c.ShutdownAt e s.url s.pid pc) : c.Inv { s with engine := e, shutdown := pc } :=
  ⟨hs, h.routes, h.watcher.stable he, hp⟩

theorem Inv.url_ne_empty (h : c.Inv s) (hp : s.shutdown = .unregistering) : s.url ≠ "" := by
  have hat := h.shutdown
  rw [hp] at hat
  rcases hat with hu | ⟨hu, -⟩
  · exact hu ▸ c.activeUrl_ne_empty
  · exact hu ▸ c.shadowUrl_ne_empty

theorem Inv.unregisters (h : c.Inv s) (hp : s.shutdown = .unregistering) (o : HttpOutcome) :
    c.Inv (s.shutdownNext o) := by
  have hat : s.url = c.activeUrl ∨ (s.url = c.shadowUrl ∧ s.engine.serverPort = c.shadowPort) := by
    have hat := h.shutdown
    rwa [hp] at hat
  have hmem := s.engine.mem_unregisterWorker s.router (h.url_ne_empty hp) o
  have hroutes : c.activeUrl ∈ (s.engine.unregisterWorker s.router s.url
      o).1.workerRequestCounts ∨ c.shadowUrl ∈ (s.engine.unregisterWorker s.router s.url
      o).1.workerRequestCounts → c.engine.usesRouter :=
    fun hr => h.routes (hr.imp (fun ha => ((hmem _).mp ha).2) (fun ha => ((hmem _).mp ha).2))
  have heffect : c.ShutdownEffect s.engine s.engine s.router
      (s.engine.unregisterWorker s.router s.url o).1 := by
    refine ⟨rfl, rfl, rfl, id, ?_⟩
    intro hport
    have hu : s.url = c.activeUrl :=
      hat.resolve_right (fun hm => c.port_ne (hport.symm.trans hm.2))
    rw [hmem, hu]
    simp [c.activeUrl_ne.symm]
  have herror := s.engine.unregisterWorker_error_iff s.router s.url o
  simp only [ShutdownState.shutdownNext, hp]
  split
  · rename_i r error hr
    rw [hr] at hroutes heffect
    refine ⟨h.shape, hroutes, h.watcher.stable heffect, fun _ => ?_⟩
    exact h.shape.usesRouter ▸ (herror.mp ⟨error, by rw [hr]⟩).1
  · rename_i r u hr
    rw [hr] at hroutes heffect
    exact ⟨h.shape, hroutes, h.watcher.stable heffect, trivial⟩

theorem Inv.shutdownNext (h : c.Inv s) (o : HttpOutcome) : c.Inv (s.shutdownNext o) := by
  have hat := h.shutdown
  cases hp : s.shutdown <;> rw [hp] at hat
  case unregistering => exact h.unregisters hp o
  all_goals simp only [ShutdownState.shutdownNext, hp]
  case stopping =>
    rw [if_neg (by simp [h.shape.own])]
    exact h.shutdownActs { h.shape with }
      (.of_same rfl rfl rfl id) trivial
  case reading =>
    refine h.shutdownMoves ?_
    rw [h.shape.host]
    exact h.shape.port.imp (fun hq => by rw [hq]; rfl) (fun hq => ⟨by rw [hq]; rfl, hq⟩)
  case readingPid =>
    split
    · rename_i hn
      exact h.shutdownMoves (fun hs => absurd (h.shape.active hn) hs)
    · exact h.shutdownMoves trivial
  case killing =>
    exact h.shutdownActs (h.shape.kill s.pid) (c.shutdownEffect_kill s.engine s.router s.pid) trivial
  case checkingShadow =>
    split
    · exact h.shutdownMoves trivial
    · rename_i hs
      exact h.shutdownMoves (fun hn => absurd (Option.isSome_iff_ne_none.mpr hn) hs)
  case readingShadowPid =>
    split
    · rename_i hn
      exact h.shutdownMoves (fun hs => absurd hn hs)
    · rename_i p hs
      exact h.shutdownMoves (h.shape.shadow p hs)
  case killingShadow =>
    have hpid : s.pid = c.shadowPid := hat
    refine h.shutdownActs (h.shape.kill s.pid) (c.shutdownEffect_kill s.engine s.router s.pid)
      ⟨?_, ?_⟩
    · exact fun hu => (promotedUp_kill.mp hu).2 hpid
    · exact fun hu => (shadowUp_kill.mp hu).2 hpid
  case droppingShadow =>
    exact h.shutdownActs { h.shape with active := fun _ => rfl, shadow := by simp }
      (.of_same rfl rfl rfl (fun _ => rfl)) ⟨hat.1, rfl⟩
  case droppingArgs =>
    exact h.shutdownActs { h.shape with args := by simp }
      (.of_same rfl rfl rfl id) hat
  case disabling =>
    exact h.shutdownActs { h.shape with }
      (.of_same rfl rfl rfl id) (fun hs => absurd hat.2 hs)
  case finished => exact h

theorem Inv.crash (h : c.Inv s) (pid : Nat) : c.Inv { s with engine := s.engine.kill pid } :=
  ⟨h.shape.kill pid, h.routes,
    h.watcher.stable (c.shutdownEffect_kill s.engine s.router pid),
    h.shutdown.stable (c.watcherEffect_kill s.engine pid)⟩

theorem Inv.next (h : c.Inv s) {a : ShutdownAction} {s' : ShutdownState} (hn : s.next a = some s') :
    c.Inv s' := by
  rcases ShutdownState.next_cases hn with ⟨probes, o, rfl, rfl⟩ | ⟨o, rfl, rfl⟩ | ⟨pid, rfl, rfl⟩
  · exact h.watcherNext probes o
  · exact h.shutdownNext o
  · exact h.crash pid

/-- An engine whose urls are not registered yet is launched into the invariant. -/
theorem inv_init (c : LaunchedEngine) {r : SlimeRouter}
    (ha : c.activeUrl ∉ r.workerRequestCounts) (hs : c.shadowUrl ∉ r.workerRequestCounts) :
    c.Inv (c.init r) := by
  have hmem (e : SGLangEngine) := e.mem_registerWorker r c.activeUrl_ne_empty .ok
  refine ⟨⟨rfl, c.regular, c.own, rfl, .inl rfl, ?_, ?_, ?_⟩, ?_, .inl ⟨⟨rfl, ?_⟩, ?_⟩, trivial⟩
  · intro hn
    cases hn
  · intro p he
    cases he
    rfl
  · intro a he
    cases he
    rfl
  · intro hx
    rcases hx with h | h
    · exact (((hmem _ _).mp h).resolve_right ha).1.1
    · exact absurd h (fun h => ((hmem _ _).mp h).elim (fun h => c.activeUrl_ne h.2.symm) hs)
  · simp [init, SGLangEngine.launch, SGLangEngine.activePid, shadowPid]
  · exact fun h => ((hmem _ _).mp h).elim (fun h => c.activeUrl_ne h.2.symm) hs

end LaunchedEngine

end Belayer.Engine
