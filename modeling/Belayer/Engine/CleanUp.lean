import Belayer.Engine.Interference

namespace Belayer.Engine

open Belayer.Framework Belayer.Router

/-- The watcher has tried to remove the old url and not yet moved the port. -/
def WatcherPc.PastRemoval : WatcherPc → Prop
  | .killing | .swapping | .droppingShadow | .settingArgs | .droppingArgs | .settingHost
  | .settingPort => True
  | _ => False

namespace LaunchedEngine

variable {c : LaunchedEngine} {s : ShutdownState}

/-- The routes are on the way to be cleaned up. -/
def CleanRoutes (c : LaunchedEngine) (e : SGLangEngine) (r : SlimeRouter) (w : WatcherPc)
    (url : String) : ShutdownPc → Prop
  | .stopping | .reading =>
    w.PastRemoval ∨ e.serverPort = c.shadowPort → c.activeUrl ∉ r.workerRequestCounts
  | .unregistering =>
    (url = c.activeUrl ∧ c.shadowUrl ∉ r.workerRequestCounts) ∨
      (url = c.shadowUrl ∧ c.activeUrl ∉ r.workerRequestCounts)
  | _ => c.activeUrl ∉ r.workerRequestCounts ∧ c.shadowUrl ∉ r.workerRequestCounts

/-- A route will be left whatever happens. -/
def LeftRoutes (c : LaunchedEngine) (r : SlimeRouter) (w : WatcherPc) (url : String) :
    ShutdownPc → Prop
  | .stopping | .reading =>
    c.activeUrl ∈ r.workerRequestCounts ∧ c.shadowUrl ∈ r.workerRequestCounts ∧
      w ≠ .unregistering
  | .unregistering =>
    (url = c.activeUrl ∧ c.shadowUrl ∈ r.workerRequestCounts) ∨
      (url = c.shadowUrl ∧ c.activeUrl ∈ r.workerRequestCounts)
  | _ => c.activeUrl ∈ r.workerRequestCounts ∨ c.shadowUrl ∈ r.workerRequestCounts

/-- The promoted process is up and shutdown will not kill it any more. -/
def LeftProcess (c : LaunchedEngine) (e : SGLangEngine) (pid : Nat) (pc : ShutdownPc) : Prop :=
  c.PromotedUp e ∧ ¬c.WillKillShadow pid pc ∧ (e.shadowWorker = none ∨ pc = .finished)

structure OnCourse (c : LaunchedEngine) (s : ShutdownState) : Prop where
  routes : c.CleanRoutes s.engine s.router s.watcher s.url s.shutdown
  process : ¬c.LeftProcess s.engine s.pid s.shutdown

def OffCourse (c : LaunchedEngine) (s : ShutdownState) : Prop :=
  c.LeftRoutes s.router s.watcher s.url s.shutdown ∨ c.LeftProcess s.engine s.pid s.shutdown

theorem Primary.not_promotedUp {e : SGLangEngine} (h : c.Primary e) : ¬c.PromotedUp e := by
  intro hp
  exact h.2 (by rw [SGLangEngine.activePid, hp]; rfl)

theorem Primary.port_ne {e : SGLangEngine} (h : c.Primary e) : e.serverPort ≠ c.shadowPort :=
  fun hp => c.port_ne (h.1.symm.trans hp)

/-! ### Routes under the steps of the watcher -/

theorem CleanRoutes.mono {e e' : SGLangEngine} {r r' : SlimeRouter} {w w' : WatcherPc}
    {url : String} {pc : ShutdownPc} (h : c.CleanRoutes e r w url pc)
    (hold : c.activeUrl ∈ r'.workerRequestCounts → c.activeUrl ∈ r.workerRequestCounts)
    (hnew : c.shadowUrl ∈ r'.workerRequestCounts →
      c.shadowUrl ∈ r.workerRequestCounts ∨ pc = .stopping ∨ pc = .reading)
    (hpast : w'.PastRemoval ∨ e'.serverPort = c.shadowPort →
      (w.PastRemoval ∨ e.serverPort = c.shadowPort) ∨ c.activeUrl ∉ r'.workerRequestCounts) :
    c.CleanRoutes e' r' w' url pc := by
  have hnew' (h₁ : pc ≠ .stopping) (h₂ : pc ≠ .reading)
      (hs : c.shadowUrl ∉ r.workerRequestCounts) : c.shadowUrl ∉ r'.workerRequestCounts :=
    fun hn => (hnew hn).elim hs (fun hp => hp.elim h₁ h₂)
  cases pc
  case stopping | reading => exact fun hp => (hpast hp).elim (fun hq => mt hold (h hq)) id
  case unregistering =>
    exact h.imp (fun h => ⟨h.1, hnew' (by simp) (by simp) h.2⟩) (fun h => ⟨h.1, mt hold h.2⟩)
  all_goals exact ⟨mt hold h.1, hnew' (by simp) (by simp) h.2⟩

/-- A step of the watcher that leaves the router alone. -/
theorem CleanRoutes.watcherMoves {e e' : SGLangEngine} {r : SlimeRouter} {w w' : WatcherPc}
    {url : String} {pc : ShutdownPc} (h : c.CleanRoutes e r w url pc)
    (hpast : w'.PastRemoval ∨ e'.serverPort = c.shadowPort →
      w.PastRemoval ∨ e.serverPort = c.shadowPort) : c.CleanRoutes e' r w' url pc :=
  h.mono id .inl (fun hp => .inl (hpast hp))

theorem OnCourse.routes_registering (hi : c.Inv s) (h : c.OnCourse s)
    (hw : s.watcher = .registering) (probes : List (Option Nat)) (o : HttpOutcome)
    (hg : c.OrderlyWatcher s o s.watcher) :
    c.CleanRoutes (s.watcherNext probes o).engine (s.watcherNext probes o).router
      (s.watcherNext probes o).watcher s.url s.shutdown := by
  obtain ⟨hp, hn, hold, hnew⟩ : c.WatcherAt s.engine s.router s.oldUrl s.newUrl .registering :=
    hw ▸ hi.watcher
  have hmem := s.engine.mem_registerWorker s.router c.shadowUrl_ne_empty o
  rw [hw] at hg
  have hkeep (w : WatcherPc) (hpast : ¬w.PastRemoval) : c.CleanRoutes s.engine
      (s.engine.registerWorker s.router c.shadowUrl o).1 w s.url s.shutdown := by
    refine h.routes.mono ?_ ?_ (fun hq => .inl (hq.imp_left (fun h => absurd h hpast)))
    · exact fun ha => ((hmem _).mp ha).resolve_left (fun ha => c.activeUrl_ne ha.2)
    · exact fun hs => ((hmem _).mp hs).elim (fun hs => .inr (hg hs.1)) .inl
  simp only [ShutdownState.watcherNext, hw, hnew]
  split
  · rename_i r error hr
    rw [hr] at hkeep
    exact hkeep .finished id
  · rename_i r u hr
    rw [hr] at hkeep
    exact hkeep .unregistering id

theorem OnCourse.routes_watcherNext (hi : c.Inv s) (h : c.OnCourse s)
    (probes : List (Option Nat)) (o : HttpOutcome) (hg : c.OrderlyWatcher s o s.watcher) :
    c.CleanRoutes (s.watcherNext probes o).engine (s.watcherNext probes o).router
      (s.watcherNext probes o).watcher s.url s.shutdown := by
  have hat := hi.watcher
  have hr := h.routes
  cases hw : s.watcher
  case registering => exact h.routes_registering hi hw probes o hg
  all_goals
    rw [hw] at hg hat hr
    simp only [ShutdownState.watcherNext, hw]
  case unregistering =>
    have hmem := s.engine.mem_unregisterWorker s.router c.activeUrl_ne_empty o
    rw [hat.2.2]
    refine hr.mono (fun ha => ((hmem _).mp ha).2) (fun hs => .inl ((hmem _).mp hs).2) ?_
    intro _
    refine .inr (fun ha => ?_)
    obtain ⟨hu, ha⟩ := (hmem _).mp ha
    exact hu ⟨hg ha, rfl⟩
  case settingPort =>
    split
    · exact hr.watcherMoves (fun _ => .inl trivial)
    · exact hr.watcherMoves (fun _ => .inl trivial)
  case finished => exact hw ▸ hr
  all_goals
    repeat' split
    all_goals exact hr.watcherMoves (fun hq => hq.imp_left (by simp [WatcherPc.PastRemoval]))

theorem LeftRoutes.mono {r r' : SlimeRouter} {w w' : WatcherPc} {url : String} {pc : ShutdownPc}
    (h : c.LeftRoutes r w url pc) (hw : w' = .unregistering → w = .unregistering)
    (hold : c.activeUrl ∈ r.workerRequestCounts → c.activeUrl ∈ r'.workerRequestCounts)
    (hnew : c.shadowUrl ∈ r.workerRequestCounts → c.shadowUrl ∈ r'.workerRequestCounts) :
    c.LeftRoutes r' w' url pc := by
  cases pc
  case stopping | reading => exact ⟨hold h.1, hnew h.2.1, mt hw h.2.2⟩
  case unregistering => exact h.imp (And.imp_right hnew) (And.imp_right hold)
  all_goals exact h.imp hold hnew

/-- With the new route registered and the port not moved, no removal of the old
url clears what was left. -/
theorem leftRoutes_of_new {r : SlimeRouter} {w : WatcherPc} (hi : c.Inv s)
    (hport : s.engine.serverPort ≠ c.shadowPort) (hs : c.shadowUrl ∈ r.workerRequestCounts)
    (hfirst : s.shutdown = .stopping ∨ s.shutdown = .reading →
      c.activeUrl ∈ r.workerRequestCounts ∧ w ≠ .unregistering) :
    c.LeftRoutes r w s.url s.shutdown := by
  have hat := hi.shutdown
  cases hp : s.shutdown <;> rw [hp] at hat
  case stopping => exact ⟨(hfirst (.inl hp)).1, hs, (hfirst (.inl hp)).2⟩
  case reading => exact ⟨(hfirst (.inr hp)).1, hs, (hfirst (.inr hp)).2⟩
  case unregistering => exact .inl ⟨hat.resolve_right (fun h => hport h.2), hs⟩
  all_goals exact .inr hs

theorem LeftRoutes.registering (hi : c.Inv s)
    (h : c.LeftRoutes s.router s.watcher s.url s.shutdown) (hw : s.watcher = .registering)
    (probes : List (Option Nat)) (o : HttpOutcome) :
    c.LeftRoutes (s.watcherNext probes o).router (s.watcherNext probes o).watcher s.url
      s.shutdown := by
  obtain ⟨hp, hn, -, hnew⟩ : c.WatcherAt s.engine s.router s.oldUrl s.newUrl .registering :=
    hw ▸ hi.watcher
  have hmem := s.engine.mem_registerWorker s.router c.shadowUrl_ne_empty o
  have hkeep (w : WatcherPc) : c.LeftRoutes
      (s.engine.registerWorker s.router c.shadowUrl o).1 w s.url s.shutdown := by
    -- before shutdown has read its url, nothing is left while the new url is not registered
    cases hpc : s.shutdown <;> rw [hpc] at h
    case stopping | reading => exact absurd h.2.1 hn
    case unregistering =>
      exact h.imp (And.imp_right fun hs => (hmem _).mpr (.inr hs))
        (And.imp_right fun ha => (hmem _).mpr (.inr ha))
    all_goals
      exact h.imp (fun ha => (hmem _).mpr (.inr ha)) (fun hs => (hmem _).mpr (.inr hs))
  simp only [ShutdownState.watcherNext, hw, hnew]
  split
  · rename_i r error hr
    rw [hr] at hkeep
    exact hkeep .finished
  · rename_i r u hr
    rw [hr] at hkeep
    exact hkeep .unregistering

/-- No step of the watcher clears a route that is left. -/
theorem LeftRoutes.watcherNext (hi : c.Inv s)
    (h : c.LeftRoutes s.router s.watcher s.url s.shutdown) (probes : List (Option Nat))
    (o : HttpOutcome) :
    c.LeftRoutes (s.watcherNext probes o).router (s.watcherNext probes o).watcher s.url
      s.shutdown := by
  have hat := hi.watcher
  have hr := h
  cases hw : s.watcher
  case registering => exact h.registering hi hw probes o
  all_goals
    rw [hw] at hat hr
    simp only [ShutdownState.watcherNext, hw]
  case unregistering =>
    have hmem := s.engine.mem_unregisterWorker s.router c.activeUrl_ne_empty o
    have hkept (hs : c.shadowUrl ∈ s.router.workerRequestCounts) :
        c.shadowUrl ∈ (s.engine.unregisterWorker s.router c.activeUrl o).1.workerRequestCounts :=
      (hmem _).mpr ⟨fun hu => c.activeUrl_ne hu.2.symm, hs⟩
    have hnew : c.shadowUrl ∈ s.router.workerRequestCounts := by
      cases hpc : s.shutdown <;> rw [hpc] at hr
      case stopping | reading => exact hr.2.1
      case unregistering =>
        exact hr.elim And.right (fun ha => hat.2.1 (hi.routes (.inl ha.2)))
      all_goals exact hr.elim (fun ha => hat.2.1 (hi.routes (.inl ha))) id
    rw [hat.2.2]
    refine leftRoutes_of_new hi hat.1.port_ne (hkept hnew) ?_
    intro hx
    rcases hx with hpc | hpc
    · rw [hpc] at hr
      exact absurd rfl hr.2.2
    · rw [hpc] at hr
      exact absurd rfl hr.2.2
  case finished => exact hw ▸ hr
  all_goals
    repeat' split
    all_goals exact hr.mono (by simp) id id

/-! ### The promoted process under the steps of the watcher -/

theorem LeftProcess.watcherNext (hi : c.Inv s) (h : c.LeftProcess s.engine s.pid s.shutdown)
    (probes : List (Option Nat)) (o : HttpOutcome) :
    c.LeftProcess (s.watcherNext probes o).engine s.pid s.shutdown := by
  obtain ⟨hup, hspared, hwait⟩ := h
  have hat := hi.watcher
  have hkeep {e : SGLangEngine} (hp : e.process = s.engine.process)
      (hs : s.engine.shadowWorker = none → e.shadowWorker = none) :
      c.LeftProcess e s.pid s.shutdown :=
    ⟨hp.trans hup, hspared, hwait.imp_left hs⟩
  cases hw : s.watcher <;> rw [hw] at hat
  case killing | swapping => exact absurd hup hat.1.not_promotedUp
  all_goals simp only [ShutdownState.watcherNext, hw]
  case droppingShadow => exact hkeep rfl (fun _ => rfl)
  all_goals
    repeat' split
    all_goals exact hkeep rfl id

/-- Once shutdown is over there is no shadow to promote any more, as long as the
routes are clean. -/
theorem OnCourse.no_shadow (hi : c.Inv s) (h : c.OnCourse s) (hw : s.watcher = .swapping)
    (hp : s.shutdown = .finished) : s.engine.shadowWorker = none := by
  have hat : c.Primary s.engine ∧ c.NewRoute s.router := by
    have hat := hi.watcher
    rwa [hw] at hat
  have hroutes := h.routes
  have hover := hi.shutdown
  rw [hp] at hroutes hover
  by_contra hs
  exact hroutes.2 (hat.2 (hover hs))

theorem OnCourse.process_watcherNext (hi : c.Inv s) (h : c.OnCourse s)
    (probes : List (Option Nat)) (o : HttpOutcome) (hg : c.OrderlyWatcher s o s.watcher) :
    ¬c.LeftProcess (s.watcherNext probes o).engine s.pid s.shutdown := by
  have hnot := h.process
  have hkeep {e : SGLangEngine} (hp : e.process = s.engine.process)
      (hs : e.shadowWorker = s.engine.shadowWorker) : ¬c.LeftProcess e s.pid s.shutdown := by
    simpa only [LeftProcess, PromotedUp, hp, hs] using hnot
  cases hw : s.watcher
  all_goals
    rw [hw] at hg
    simp only [ShutdownState.watcherNext, hw]
  case killing =>
    split
    · exact hnot
    · intro hx
      obtain ⟨hup, hspared, hwait⟩ := hx
      exact hnot ⟨(promotedUp_kill.mp hup).1, hspared,
        hwait.imp_left (s.engine.shadowWorker_kill_eq_none _).mp⟩
  case swapping =>
    intro hx
    obtain ⟨hup, -, hwait⟩ := hx
    have hsome : s.engine.shadowWorker ≠ none := by
      intro hn
      have hup : s.engine.shadowWorker = some ⟨c.shadowPid, true⟩ := hup
      rw [hn] at hup
      cases hup
    exact hsome (hwait.elim id (h.no_shadow hi hw))
  case droppingShadow =>
    intro hx
    obtain ⟨hup, hspared, -⟩ := hx
    exact hspared (hg hup)
  all_goals
    repeat' split
    all_goals exact hkeep rfl rfl

/-- The watcher leaves the locals of shutdown alone. -/
theorem watcherNext_locals (s : ShutdownState) (probes : List (Option Nat)) (o : HttpOutcome) :
    (s.watcherNext probes o).url = s.url ∧ (s.watcherNext probes o).pid = s.pid ∧
      (s.watcherNext probes o).shutdown = s.shutdown := by
  unfold ShutdownState.watcherNext
  repeat' split
  all_goals exact ⟨rfl, rfl, rfl⟩

theorem OnCourse.watcherNext (hi : c.Inv s) (h : c.OnCourse s) (probes : List (Option Nat))
    (o : HttpOutcome) (hg : c.OrderlyWatcher s o s.watcher) :
    c.OnCourse (s.watcherNext probes o) := by
  have hlocals := watcherNext_locals s probes o
  constructor
  · rw [hlocals.1, hlocals.2.2]
    exact h.routes_watcherNext hi probes o hg
  · rw [hlocals.2.1, hlocals.2.2]
    exact h.process_watcherNext hi probes o hg

theorem OffCourse.watcherNext (hi : c.Inv s) (h : c.OffCourse s) (probes : List (Option Nat))
    (o : HttpOutcome) : c.OffCourse (s.watcherNext probes o) := by
  have hlocals := watcherNext_locals s probes o
  unfold OffCourse
  rw [hlocals.1, hlocals.2.1, hlocals.2.2]
  exact h.imp (fun h => h.watcherNext hi probes o) (fun h => h.watcherNext hi probes o)

/-- A registration of the new url that reaches the router after shutdown has read
the old one is left behind. -/
theorem offCourse_registering (hi : c.Inv s) (hw : s.watcher = .registering)
    (probes : List (Option Nat)) (o : HttpOutcome) (hg : ¬c.OrderlyWatcher s o .registering) :
    c.OffCourse (s.watcherNext probes o) := by
  obtain ⟨hp, -, -, hnew⟩ : c.WatcherAt s.engine s.router s.oldUrl s.newUrl .registering :=
    hw ▸ hi.watcher
  obtain ⟨hreg, hlate⟩ := Classical.not_imp.mp hg
  have hin : c.shadowUrl ∈
      (s.engine.registerWorker s.router c.shadowUrl o).1.workerRequestCounts :=
    (s.engine.mem_registerWorker s.router c.shadowUrl_ne_empty o _).mpr (.inl ⟨hreg, rfl⟩)
  simp only [ShutdownState.watcherNext, hw, hnew]
  split
  · rename_i r error hr
    rw [hr] at hin
    exact .inl (leftRoutes_of_new (s := s) hi hp.port_ne hin (fun h => absurd h hlate))
  · rename_i r u hr
    rw [hr] at hin
    exact .inl (leftRoutes_of_new (s := s) hi hp.port_ne hin (fun h => absurd h hlate))

/-- When the removal of the old url does not reach the router, that url stays or,
once shutdown has read it, the new one does. -/
theorem offCourse_unregistering (hi : c.Inv s) (hw : s.watcher = .unregistering)
    (probes : List (Option Nat)) (o : HttpOutcome) (hg : ¬c.OrderlyWatcher s o .unregistering) :
    c.OffCourse (s.watcherNext probes o) := by
  obtain ⟨hp, hn, hold⟩ : c.WatcherAt s.engine s.router s.oldUrl s.newUrl .unregistering :=
    hw ▸ hi.watcher
  obtain ⟨ha, hlost⟩ := Classical.not_imp.mp hg
  have hmem := s.engine.mem_unregisterWorker s.router c.activeUrl_ne_empty o
  have hkept (u : String) (hu : u ∈ s.router.workerRequestCounts) :
      u ∈ (s.engine.unregisterWorker s.router c.activeUrl o).1.workerRequestCounts :=
    (hmem u).mpr ⟨fun h => hlost h.1, hu⟩
  simp only [ShutdownState.watcherNext, hw, hold]
  exact .inl (leftRoutes_of_new (s := s) hi hp.port_ne (hkept _ (hn (hi.routes (.inl ha))))
    (fun _ => ⟨hkept _ ha, by simp⟩))

theorem offCourse_watcherNext (hi : c.Inv s) (probes : List (Option Nat)) (o : HttpOutcome)
    (hg : ¬c.OrderlyWatcher s o s.watcher) : c.OffCourse (s.watcherNext probes o) := by
  cases hw : s.watcher <;> rw [hw] at hg
  case registering => exact offCourse_registering hi hw probes o hg
  case unregistering => exact offCourse_unregistering hi hw probes o hg
  case droppingShadow =>
    obtain ⟨hup, hspared⟩ := Classical.not_imp.mp hg
    simp only [ShutdownState.watcherNext, hw]
    exact .inr ⟨hup, hspared, .inl rfl⟩
  all_goals exact absurd trivial hg

/-! ### Steps of shutdown -/

theorem OnCourse.unregisters (hi : c.Inv s) (h : c.OnCourse s) (hp : s.shutdown = .unregistering)
    (o : HttpOutcome) (hg : c.OrderlyShutdown s o .unregistering) :
    c.OnCourse (s.shutdownNext o) := by
  have hroutes := h.routes
  rw [hp] at hroutes
  have hmem := s.engine.mem_unregisterWorker s.router (hi.url_ne_empty hp) o
  have hgone : s.url ∉ (s.engine.unregisterWorker s.router s.url o).1.workerRequestCounts := by
    intro hu
    obtain ⟨hnot, hu⟩ := (hmem _).mp hu
    exact hnot ⟨hg.1 hu, rfl⟩
  have hclean : c.activeUrl ∉
      (s.engine.unregisterWorker s.router s.url o).1.workerRequestCounts ∧ c.shadowUrl ∉
      (s.engine.unregisterWorker s.router s.url o).1.workerRequestCounts := by
    rcases hroutes with ⟨hu, hs⟩ | ⟨hu, ha⟩
    · exact ⟨hu ▸ hgone, fun hn => hs ((hmem _).mp hn).2⟩
    · exact ⟨fun hn => ha ((hmem _).mp hn).2, hu ▸ hgone⟩
  have herror := s.engine.unregisterWorker_error_iff s.router s.url o
  simp only [ShutdownState.shutdownNext, hp]
  split
  · rename_i r error hr
    rw [hr] at hclean
    obtain ⟨hu, ho⟩ := herror.mp ⟨error, by rw [hr]⟩
    exact ⟨hclean, fun hl => ho (hg.2 hl.1 hu)⟩
  · rename_i r u hr
    rw [hr] at hclean
    exact ⟨hclean, fun hl => hl.2.1 trivial⟩

theorem OnCourse.shutdownNext (hi : c.Inv s) (h : c.OnCourse s) (o : HttpOutcome)
    (hg : c.OrderlyShutdown s o s.shutdown) : c.OnCourse (s.shutdownNext o) := by
  have hat := hi.shutdown
  have hroutes := h.routes
  have hprocess := h.process
  cases hp : s.shutdown <;> rw [hp] at hg hat hroutes hprocess
  case unregistering => exact OnCourse.unregisters hi h hp o hg
  all_goals simp only [ShutdownState.shutdownNext, hp]
  case stopping =>
    rw [if_neg (by simp [hi.shape.own])]
    exact ⟨hroutes, fun hl => hl.2.1 trivial⟩
  case reading =>
    refine ⟨?_, fun hl => hl.2.1 trivial⟩
    rw [hi.shape.host]
    rcases hi.shape.port with hport | hport
    · refine .inl ⟨by rw [hport]; rfl, fun hs => ?_⟩
      exact c.port_ne (hport.symm.trans (hg hs))
    · exact .inr ⟨by rw [hport]; rfl, hroutes (.inr hport)⟩
  case readingPid =>
    split
    · rename_i hn
      refine ⟨hroutes, fun hl => ?_⟩
      have hup : s.engine.process = some ⟨c.shadowPid, true⟩ := hl.1
      rw [hn] at hup
      cases hup
    · rename_i p hpr
      refine ⟨hroutes, fun hl => hl.2.1 ?_⟩
      have hup : s.engine.process = some ⟨c.shadowPid, true⟩ := hl.1
      rw [hpr] at hup
      cases hup
      rfl
  case killing =>
    refine ⟨hroutes, ?_⟩
    intro hx
    obtain ⟨hup, -, hwait⟩ := hx
    obtain ⟨hup, hpid⟩ := promotedUp_kill.mp hup
    refine hprocess ⟨hup, hpid, .inl ?_⟩
    exact (s.engine.shadowWorker_kill_eq_none _).mp (hwait.resolve_right (by simp))
  case checkingShadow =>
    split
    · rename_i hs
      refine ⟨hroutes, fun hl => hprocess ⟨hl.1, id, .inl (hl.2.2.resolve_right (by simp))⟩⟩
    · rename_i hs
      exact ⟨hroutes, fun hl => hprocess ⟨hl.1, id, .inl (by simpa using hs)⟩⟩
  case readingShadowPid =>
    split
    · rename_i hn
      exact ⟨hroutes, fun hl => hprocess ⟨hl.1, id, .inl hn⟩⟩
    · exact ⟨hroutes, fun hl => hl.2.1 trivial⟩
  case killingShadow =>
    exact ⟨hroutes, fun hl => (promotedUp_kill.mp hl.1).2 hat⟩
  case droppingShadow | droppingArgs | disabling => exact ⟨hroutes, fun hl => hat.1 hl.1⟩
  case finished => exact h

/-- No step of shutdown clears a route that is left. -/
theorem LeftRoutes.shutdownNext (hi : c.Inv s)
    (h : c.LeftRoutes s.router s.watcher s.url s.shutdown) (o : HttpOutcome) :
    c.LeftRoutes (s.shutdownNext o).router (s.shutdownNext o).watcher (s.shutdownNext o).url
      (s.shutdownNext o).shutdown := by
  have hat := hi.shutdown
  have hr := h
  cases hp : s.shutdown <;> rw [hp] at hat hr
  case unregistering =>
    have hmem := s.engine.mem_unregisterWorker s.router (hi.url_ne_empty hp) o
    have hleft : c.activeUrl ∈
        (s.engine.unregisterWorker s.router s.url o).1.workerRequestCounts ∨ c.shadowUrl ∈
        (s.engine.unregisterWorker s.router s.url o).1.workerRequestCounts := by
      rcases hr with ⟨hu, hs⟩ | ⟨hu, ha⟩
      · exact .inr ((hmem _).mpr ⟨fun h => c.activeUrl_ne (hu.symm.trans h.2.symm), hs⟩)
      · exact .inl ((hmem _).mpr ⟨fun h => c.activeUrl_ne (h.2.trans hu), ha⟩)
    simp only [ShutdownState.shutdownNext, hp]
    split
    · rename_i r error he
      rw [he] at hleft
      exact hleft
    · rename_i r u he
      rw [he] at hleft
      exact hleft
  all_goals simp only [ShutdownState.shutdownNext, hp]
  case stopping =>
    rw [if_neg (by simp [hi.shape.own])]
    exact hr
  case reading =>
    rw [hi.shape.host]
    rcases hi.shape.port with hport | hport
    · exact .inl ⟨by rw [hport]; rfl, hr.2.1⟩
    · exact .inr ⟨by rw [hport]; rfl, hr.1⟩
  case finished => exact hp ▸ hr
  all_goals
    repeat' split
    all_goals exact hr

theorem LeftProcess.shutdownNext (hi : c.Inv s) (h : c.LeftProcess s.engine s.pid s.shutdown)
    (o : HttpOutcome) :
    c.LeftProcess (s.shutdownNext o).engine (s.shutdownNext o).pid (s.shutdownNext o).shutdown := by
  have hat := hi.shutdown
  obtain ⟨hup, hspared, hwait⟩ := h
  cases hp : s.shutdown <;> rw [hp] at hat hspared hwait
  case stopping | reading | unregistering | readingPid | killingShadow =>
    exact absurd trivial hspared
  case droppingShadow | droppingArgs | disabling => exact absurd hup hat.1
  all_goals simp only [ShutdownState.shutdownNext, hp]
  case killing =>
    refine ⟨promotedUp_kill.mpr ⟨hup, hspared⟩, id, .inl ?_⟩
    exact (s.engine.shadowWorker_kill_eq_none _).mpr (hwait.resolve_right (by simp))
  case checkingShadow =>
    have hn := hwait.resolve_right (by simp)
    rw [if_neg (by simp [hn])]
    exact ⟨hup, id, .inl hn⟩
  case readingShadowPid =>
    have hn := hwait.resolve_right (by simp)
    rw [hn]
    exact ⟨hup, id, .inl hn⟩
  case finished => exact ⟨hup, id, .inr rfl⟩

theorem offCourse_shutdownNext (hi : c.Inv s) (o : HttpOutcome)
    (hg : ¬c.OrderlyShutdown s o s.shutdown) : c.OffCourse (s.shutdownNext o) := by
  cases hp : s.shutdown <;> rw [hp] at hg
  case reading =>
    obtain ⟨hs, hport⟩ := Classical.not_imp.mp hg
    simp only [ShutdownState.shutdownNext, hp]
    refine .inl (.inl ⟨?_, hs⟩)
    rw [hi.shape.host, hi.shape.port.resolve_right hport]
    rfl
  case unregistering =>
    have hmem := s.engine.mem_unregisterWorker s.router (hi.url_ne_empty hp) o
    have herror := s.engine.unregisterWorker_error_iff s.router s.url o
    have hurl : s.url = c.activeUrl ∨ s.url = c.shadowUrl := by
      have hat := hi.shutdown
      rw [hp] at hat
      exact hat.imp_right And.left
    simp only [ShutdownState.shutdownNext, hp]
    rcases Classical.not_and_iff_not_or_not.mp hg with hlost | hraised
    · -- the removal does not reach the router
      obtain ⟨hin, hlost⟩ := Classical.not_imp.mp hlost
      have hkept : s.url ∈
          (s.engine.unregisterWorker s.router s.url o).1.workerRequestCounts :=
        (hmem _).mpr ⟨fun h => hlost h.1, hin⟩
      have hleft : c.activeUrl ∈
          (s.engine.unregisterWorker s.router s.url o).1.workerRequestCounts ∨ c.shadowUrl ∈
          (s.engine.unregisterWorker s.router s.url o).1.workerRequestCounts := by
        rcases hurl with hu | hu
        · exact .inl (hu ▸ hkept)
        · exact .inr (hu ▸ hkept)
      split
      · rename_i r error he
        rw [he] at hleft
        exact .inl hleft
      · rename_i r u he
        rw [he] at hleft
        exact .inl hleft
    · -- it raises while the promoted process is up
      obtain ⟨hup, hraised⟩ := Classical.not_imp.mp hraised
      obtain ⟨error, he⟩ := herror.mpr (Classical.not_imp.mp hraised)
      split
      · exact .inr ⟨hup, id, .inr rfl⟩
      · rename_i r u hok
        rw [hok] at he
        cases he
  all_goals exact absurd trivial hg

/-! ### Runs -/

theorem OnCourse.next {s' : ShutdownState} {a : ShutdownAction} (hi : c.Inv s) (h : c.OnCourse s)
    (hg : c.Orderly s a) (hn : s.next a = some s') : c.OnCourse s' := by
  rcases ShutdownState.next_cases hn with ⟨probes, o, rfl, rfl⟩ | ⟨o, rfl, rfl⟩ | ⟨pid, rfl, rfl⟩
  · exact h.watcherNext hi probes o hg
  · exact h.shutdownNext hi o hg
  · refine ⟨h.routes, ?_⟩
    intro hx
    obtain ⟨hup, hspared, hwait⟩ := hx
    exact h.process ⟨(promotedUp_kill.mp hup).1, hspared,
      hwait.imp_left (s.engine.shadowWorker_kill_eq_none pid).mp⟩

/-- A step that is not orderly leaves something for good. -/
theorem offCourse_next {s' : ShutdownState} {a : ShutdownAction} (hi : c.Inv s)
    (hg : ¬c.Orderly s a) (hn : s.next a = some s') : c.OffCourse s' := by
  rcases ShutdownState.next_cases hn with ⟨probes, o, rfl, rfl⟩ | ⟨o, rfl, rfl⟩ | ⟨pid, rfl, rfl⟩
  · exact offCourse_watcherNext hi probes o hg
  · exact offCourse_shutdownNext hi o hg
  · exact absurd trivial hg

theorem OffCourse.next {s' : ShutdownState} {a : ShutdownAction} (hi : c.Inv s)
    (h : c.OffCourse s) (hstable : c.PromotedStable s a) (hn : s.next a = some s') :
    c.OffCourse s' := by
  rcases ShutdownState.next_cases hn with ⟨probes, o, rfl, rfl⟩ | ⟨o, rfl, rfl⟩ | ⟨pid, rfl, rfl⟩
  · exact OffCourse.watcherNext hi h probes o
  · exact Or.imp (fun h => h.shutdownNext hi o) (fun h => h.shutdownNext hi o) h
  · refine Or.imp id ?_ h
    intro hx
    obtain ⟨hup, hspared, hwait⟩ := hx
    have hpid : pid ≠ c.shadowPid := by
      intro hp
      have hup : s.engine.process = some ⟨c.shadowPid, true⟩ := hup
      exact hstable hp (by rw [SGLangEngine.activePid, hup]; rfl)
    exact ⟨promotedUp_kill.mpr ⟨hup, hpid⟩, hspared,
      hwait.imp_left (s.engine.shadowWorker_kill_eq_none pid).mpr⟩

theorem onCourse_init (c : LaunchedEngine) {r : SlimeRouter} : c.OnCourse (c.init r) := by
  refine ⟨?_, fun h => h.2.1 trivial⟩
  intro hx
  rcases hx with h | h
  · exact h.elim
  · exact absurd h c.port_ne

/-- Where both threads have finished, a run on course has cleaned up. -/
theorem OnCourse.cleanedUp (h : c.OnCourse s) (hf : s.Finished) : c.CleanedUp s := by
  have hroutes := h.routes
  have hprocess := h.process
  rw [hf.2] at hroutes hprocess
  exact ⟨hroutes.1, hroutes.2, fun hup => hprocess ⟨hup, id, .inr rfl⟩⟩

theorem OffCourse.not_cleanedUp (h : c.OffCourse s) (hf : s.Finished) : ¬c.CleanedUp s := by
  intro hx
  obtain ⟨ha, hs, hup⟩ := hx
  unfold OffCourse at h
  rw [hf.2] at h
  exact h.elim (fun h => h.elim ha hs) (fun h => hup h.1)

/-- Once both threads have finished, everything is cleaned up if every step was
orderly; and only then, unless the promoted process crashed of itself. -/
theorem shutdown_cleans_up (c : LaunchedEngine) (r : SlimeRouter)
    (ha : c.activeUrl ∉ r.workerRequestCounts) (hs : c.shadowUrl ∉ r.workerRequestCounts)
    (run : List ShutdownAction) (t : ShutdownState)
    (hrun : exec ShutdownState.next (c.init r) run = some t) (hf : t.Finished) :
    (Meets ShutdownState.next c.Orderly (c.init r) run → c.CleanedUp t) ∧
      (Meets ShutdownState.next c.PromotedStable (c.init r) run → c.CleanedUp t →
        Meets ShutdownState.next c.Orderly (c.init r) run) := by
  have hinit := c.inv_init ha hs
  constructor
  · intro hm
    have hall := along_of_meets (I := fun s => c.Inv s ∧ c.OnCourse s)
      (fun _ _ _ h hg hn => ⟨h.1.next hn, h.2.next h.1 hg hn⟩) ⟨hinit, c.onCourse_init⟩ hm
    exact (hall.last hrun).2.cleanedUp hf
  · intro hstable hclean
    by_contra hm
    have hoff := exec_doomed (G := c.Orderly) (fun _ _ _ h hn => h.next hn)
      (fun _ _ _ h hg hn => offCourse_next h hg hn)
      (fun _ _ _ h hoff hst hn => OffCourse.next h hoff hst hn) hinit (.inr hm) hstable hrun
    exact OffCourse.not_cleanedUp hoff hf hclean

/-- An engine with its router at hand. -/
def exampleEngine : LaunchedEngine := ⟨HandoverState.idleEngine, 1, "h", 31000, 0, rfl, rfl⟩

def watch : ShutdownAction := .watcher [some 200] .ok

def shut : ShutdownAction := .shutdown .ok

/-- The primary dies, the watcher promotes the shadow, and then the engine is shut
down. -/
def promotedRun : List ShutdownAction :=
  [.crash 1] ++ List.replicate 19 watch ++ List.replicate 6 shut ++ [watch]

theorem shutdown_cleans_up_promotedRun :
    ∃ t, exec ShutdownState.next (exampleEngine.init .init) promotedRun = some t ∧
      exampleEngine.CleanedUp t :=
  ⟨_, rfl, (shutdown_cleans_up exampleEngine .init (by decide) (by decide) promotedRun _ rfl
    (by decide)).1 (by decide)⟩

/-- Shutdown unregisters the old url between the two url computations of a promotion
and its registration of the new url. -/
def racingRun : List ShutdownAction :=
  [.crash 1] ++ List.replicate 8 watch ++ List.replicate 3 shut ++ List.replicate 12 watch ++
    List.replicate 3 shut

/-- The new url stays registered when both threads have finished. -/
theorem racingRun_leaves_route :
    ¬∀ t, exec ShutdownState.next (exampleEngine.init .init) racingRun = some t → t.Finished →
      exampleEngine.CleanedUp t := by
  intro h
  exact absurd (h _ rfl (by decide)) (by decide)

end LaunchedEngine

end Belayer.Engine
