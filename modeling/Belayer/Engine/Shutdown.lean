import Belayer.Engine.Handover

namespace Belayer.Engine

open Belayer.Framework Belayer.Router

/-- The statement the watcher thread runs next. -/
inductive WatcherPc where
  | polling
  | checkingShadow
  | checkingProcess
  | checkingPending
  | checkingReady
  | probing
  | computingOld
  | computingNew
  | registering
  | unregistering
  | killing
  | swapping
  | droppingShadow
  | settingArgs
  | droppingArgs
  | settingHost
  | settingPort
  | disabling
  | marking
  | finished
  deriving DecidableEq

/-- The statement of `shutdown` that runs next. -/
inductive ShutdownPc where
  | stopping
  | reading
  | unregistering
  | readingPid
  | killing
  | checkingShadow
  | readingShadowPid
  | killingShadow
  | droppingShadow
  | droppingArgs
  | disabling
  | finished
  deriving DecidableEq

/-- An engine whose shutdown runs next to its watcher, with the locals of both. -/
structure ShutdownState where
  engine : SGLangEngine
  router : SlimeRouter
  watcher : WatcherPc
  reason : String
  oldUrl : String
  newUrl : String
  shutdown : ShutdownPc
  url : String
  pid : Nat

/-- A step of either thread, with the answer of the health endpoint or of the
router that it meets, or the crash of a process. -/
inductive ShutdownAction where
  | watcher (probes : List (Option Nat)) (o : HttpOutcome)
  | shutdown (o : HttpOutcome)
  | crash (pid : Nat)

def Process.killed (pid : Nat) (p : Process) : Process :=
  if p.pid = pid then { p with alive := false } else p

namespace SGLangEngine

/-- `kill_process_tree`: every handle on the process sees it dead. -/
def kill (e : SGLangEngine) (pid : Nat) : SGLangEngine :=
  { e with
    process := e.process.map (Process.killed pid)
    shadowWorker := e.shadowWorker.map (Process.killed pid) }

/-- The registration of a url reaches the router. -/
def Registers (e : SGLangEngine) (o : HttpOutcome) : Prop :=
  e.usesRouter ∧ e.workerType = "regular" ∧ o ≠ .refused

instance (e : SGLangEngine) (o : HttpOutcome) : Decidable (e.Registers o) :=
  inferInstanceAs (Decidable (_ ∧ _ ∧ _))

/-- The removal of a url reaches the router. -/
def Unregisters (e : SGLangEngine) (o : HttpOutcome) : Prop := e.usesRouter ∧ o ≠ .refused

instance (e : SGLangEngine) (o : HttpOutcome) : Decidable (e.Unregisters o) :=
  inferInstanceAs (Decidable (_ ∧ _))

theorem workerUrl_ne_empty (host : String) (port : Nat) : workerUrl host port ≠ "" := by
  intro h
  have hl := congrArg String.toList h
  simp [workerUrl] at hl

/-- Two ports of one host give two urls. -/
theorem workerUrl_inj {host : String} {port port' : Nat}
    (h : workerUrl host port = workerUrl host port') : port = port' := by
  have hs : toString port = toString port' := (String.append_right_inj _).mp h
  have hd : Nat.toDigits 10 port = Nat.toDigits 10 port' := by
    simpa [Nat.toList_repr] using congrArg String.toList hs
  rw [← Nat.ofDigitChars_ten_toDigits (n := port), hd, Nat.ofDigitChars_ten_toDigits]

theorem target_workerRequest (e : SGLangEngine) {url : String} (hu : url ≠ "") :
    ∃ key, SlimeRouter.addArgs (e.workerRequest url) = some (url, key) := by
  simp [SlimeRouter.addArgs, workerRequest, truthy, hu]

theorem removeArgs_workerRequest (e : SGLangEngine) (r : SlimeRouter) {url : String}
    (hu : url ≠ "") : ∃ key, r.removeArgs (e.workerRequest url) = some (url, key) := by
  simp [SlimeRouter.removeArgs, workerRequest, truthy, hu]

/-- A registration that reaches the router adds its url and nothing else. -/
theorem mem_registerWorker (e : SGLangEngine) (r : SlimeRouter) {url : String} (hu : url ≠ "")
    (o : HttpOutcome) (u : String) :
    u ∈ (e.registerWorker r url o).1.workerRequestCounts ↔
      (e.Registers o ∧ u = url) ∨ u ∈ r.workerRequestCounts := by
  obtain ⟨key, hk⟩ := e.target_workerRequest hu
  have hadd : (r.addWorker (e.workerRequest url)).1 = r.registerWorker url key :=
    RegistryCall.apply_addWorker hk
  unfold registerWorker Registers
  split_ifs with hr ht
  · simp_all
  · simp [ht]
  · cases o <;> simp_all

/-- A removal that reaches the router takes its url away and nothing else. -/
theorem mem_unregisterWorker (e : SGLangEngine) (r : SlimeRouter) {url : String} (hu : url ≠ "")
    (o : HttpOutcome) (u : String) :
    u ∈ (e.unregisterWorker r url o).1.workerRequestCounts ↔
      ¬(e.Unregisters o ∧ u = url) ∧ u ∈ r.workerRequestCounts := by
  obtain ⟨key, hk⟩ := e.removeArgs_workerRequest r hu
  have hrem : (r.removeWorker (e.workerRequest url)).1 = r.unregisterWorker url key :=
    RegistryCall.apply_removeWorker hk
  unfold unregisterWorker Unregisters
  split_ifs with hr
  · simp_all
  · cases o <;> simp_all

theorem registerWorker_ok (e : SGLangEngine) (r : SlimeRouter) (url : String) (o : HttpOutcome)
    (h : (e.registerWorker r url o).2 = .ok ()) : e.usesRouter → e.Registers o := by
  unfold registerWorker at h
  split_ifs at h with hr ht
  · simp_all
  · cases o
    · intro hu
      exact ⟨hu, not_not.mp ht, by decide⟩
    · cases h
    · cases h

theorem unregisterWorker_error_iff (e : SGLangEngine) (r : SlimeRouter) (url : String)
    (o : HttpOutcome) :
    (∃ error, (e.unregisterWorker r url o).2 = .error error) ↔ e.usesRouter ∧ o ≠ .ok := by
  unfold unregisterWorker
  split_ifs with hr
  · simp_all
  · cases o <;> simp_all

end SGLangEngine

namespace ShutdownState

/-- The watcher thread. An exception that nothing catches ends it. -/
def watcherNext (s : ShutdownState) (probes : List (Option Nat)) (o : HttpOutcome) :
    ShutdownState :=
  match s.watcher with
  | .polling =>
    { s with
      watcher := if s.engine.shadowFailoverStopEvent then .finished else .checkingShadow }
  | .checkingShadow =>
    { s with watcher := if s.engine.shadowAvailable then .checkingProcess else .polling }
  | .checkingProcess =>
    match s.engine.process with
    | none => { s with watcher := .polling }
    | some p =>
      if p.alive then { s with watcher := .polling }
      else
        { s with
          watcher := .checkingPending
          reason := (HandoverRequest.watcherReason ⟨some p.pid, 0⟩) }
  | .checkingPending =>
    { s with
      watcher := if s.engine.pendingShadowHandoverReconnect then .polling else .checkingReady }
  | .checkingReady =>
    { s with
      watcher :=
        if s.engine.shadowAvailable && s.engine.shadowWorker.any (·.alive) then .probing
        else .polling }
  | .probing =>
    match s.engine.shadowServerArgs with
    | none => { s with watcher := .finished }
    | some _ =>
      { s with watcher := if SGLangEngine.probeHealth 2 probes then .computingOld else .polling }
  | .computingOld =>
    { s with
      oldUrl := SGLangEngine.workerUrl s.engine.serverHost s.engine.serverPort
      watcher := .computingNew }
  | .computingNew =>
    match s.engine.shadowServerArgs with
    | none => { s with watcher := .finished }
    | some args =>
      { s with newUrl := SGLangEngine.workerUrl args.host args.port, watcher := .registering }
  | .registering =>
    match s.engine.registerWorker s.router s.newUrl o with
    | (r, .error _) => { s with router := r, watcher := .finished }
    | (r, .ok _) => { s with router := r, watcher := .unregistering }
  | .unregistering =>
    { s with router := (s.engine.unregisterWorker s.router s.oldUrl o).1, watcher := .killing }
  | .killing =>
    match s.engine.process with
    | none => { s with watcher := .swapping }
    | some p => { s with engine := s.engine.kill p.pid, watcher := .swapping }
  | .swapping =>
    { s with
      engine := { s.engine with process := s.engine.shadowWorker }
      watcher := .droppingShadow }
  | .droppingShadow =>
    { s with engine := { s.engine with shadowWorker := none }, watcher := .settingArgs }
  | .settingArgs =>
    { s with
      engine := { s.engine with serverArgs := s.engine.shadowServerArgs }
      watcher := .droppingArgs }
  | .droppingArgs =>
    { s with engine := { s.engine with shadowServerArgs := none }, watcher := .settingHost }
  | .settingHost =>
    match s.engine.serverArgs with
    | none => { s with watcher := .finished }
    | some args =>
      { s with engine := { s.engine with serverHost := args.host }, watcher := .settingPort }
  | .settingPort =>
    match s.engine.serverArgs with
    | none => { s with watcher := .finished }
    | some args =>
      { s with engine := { s.engine with serverPort := args.port }, watcher := .disabling }
  | .disabling =>
    { s with engine := { s.engine with shadowWorkerEnabled := false }, watcher := .marking }
  | .marking =>
    { s with
      engine :=
        { s.engine with
          pendingShadowHandoverReconnect := true
          pendingShadowHandoverReason := some s.reason }
      watcher := .polling }
  | .finished => s

/-- The shutdown call. An exception ends it early. -/
def shutdownNext (s : ShutdownState) (o : HttpOutcome) : ShutdownState :=
  match s.shutdown with
  | .stopping =>
    if s.engine.rolloutExternal then { s with shutdown := .finished }
    else
      { s with
        engine := { s.engine with shadowFailoverStopEvent := true }
        shutdown := .reading }
  | .reading =>
    { s with
      url := SGLangEngine.workerUrl s.engine.serverHost s.engine.serverPort
      shutdown := .unregistering }
  | .unregistering =>
    match s.engine.unregisterWorker s.router s.url o with
    | (r, .error _) => { s with router := r, shutdown := .finished }
    | (r, .ok _) => { s with router := r, shutdown := .readingPid }
  | .readingPid =>
    match s.engine.process with
    | none => { s with shutdown := .finished }
    | some p => { s with pid := p.pid, shutdown := .killing }
  | .killing => { s with engine := s.engine.kill s.pid, shutdown := .checkingShadow }
  | .checkingShadow =>
    { s with
      shutdown := if s.engine.shadowWorker.isSome then .readingShadowPid else .finished }
  | .readingShadowPid =>
    match s.engine.shadowWorker with
    | none => { s with shutdown := .finished }
    | some p => { s with pid := p.pid, shutdown := .killingShadow }
  | .killingShadow => { s with engine := s.engine.kill s.pid, shutdown := .droppingShadow }
  | .droppingShadow =>
    { s with engine := { s.engine with shadowWorker := none }, shutdown := .droppingArgs }
  | .droppingArgs =>
    { s with engine := { s.engine with shadowServerArgs := none }, shutdown := .disabling }
  | .disabling =>
    { s with engine := { s.engine with shadowWorkerEnabled := false }, shutdown := .finished }
  | .finished => s

end ShutdownState

/-- An engine that is launched with a shadow: its first process has number `pid`,
the shadow the next one, and the shadow's port is the first free one from an
offset on. Only regular engines of our own get a shadow. -/
structure LaunchedEngine where
  engine : SGLangEngine
  pid : Nat
  host : String
  port : Nat
  portsTaken : Nat
  regular : engine.workerType = "regular"
  own : engine.rolloutExternal = false

namespace LaunchedEngine

def shadowPortOffset : Nat := 110

def shadowPid (c : LaunchedEngine) : Nat := c.pid + 1

def shadowPort (c : LaunchedEngine) : Nat := c.port + shadowPortOffset + c.portsTaken

def activeUrl (c : LaunchedEngine) : String := SGLangEngine.workerUrl c.host c.port

def shadowUrl (c : LaunchedEngine) : String := SGLangEngine.workerUrl c.host c.shadowPort

/-- The launched engine with its worker registered, its watcher polling and its
shutdown about to begin. -/
def init (c : LaunchedEngine) (r : SlimeRouter) : ShutdownState :=
  let e := c.engine.launch c.pid ⟨c.host, c.port⟩ (some ⟨c.host, c.shadowPort⟩)
  ⟨e, (e.registerWorker r c.activeUrl .ok).1, .polling, "", "", "", .stopping, "", 0⟩

end LaunchedEngine

namespace ShutdownState

/-- One step of the system. -/
def next (s : ShutdownState) : ShutdownAction → Option ShutdownState
  | .watcher probes o => if s.watcher = .finished then none else some (s.watcherNext probes o)
  | .shutdown o => if s.shutdown = .finished then none else some (s.shutdownNext o)
  | .crash pid => some { s with engine := s.engine.kill pid }

/-- A step is one of the watcher, one of shutdown or a crash. -/
theorem next_cases {s s' : ShutdownState} {a : ShutdownAction} (h : s.next a = some s') :
    (∃ probes o, a = .watcher probes o ∧ s' = s.watcherNext probes o) ∨
    (∃ o, a = .shutdown o ∧ s' = s.shutdownNext o) ∨
    (∃ pid, a = .crash pid ∧ s' = { s with engine := s.engine.kill pid }) := by
  cases a with
  | watcher probes o =>
    simp only [next] at h
    split_ifs at h
    exact .inl ⟨probes, o, rfl, (Option.some.inj h).symm⟩
  | shutdown o =>
    simp only [next] at h
    split_ifs at h
    exact .inr (.inl ⟨o, rfl, (Option.some.inj h).symm⟩)
  | crash pid => exact .inr (.inr ⟨pid, rfl, (Option.some.inj h).symm⟩)

/-- Both threads have finished. -/
def Finished (s : ShutdownState) : Prop := s.watcher = .finished ∧ s.shutdown = .finished

instance (s : ShutdownState) : Decidable s.Finished := inferInstanceAs (Decidable (_ ∧ _))

theorem reaches_watch {P : ShutdownState → Prop} {s : ShutdownState} (probes : List (Option Nat))
    (o : HttpOutcome) (hw : s.watcher ≠ .finished) (h : Reaches next P (s.watcherNext probes o)) :
    Reaches next P s :=
  h.step (a := .watcher probes o) (if_neg hw)

/-- Killing the process that was active leaves another process as it is. -/
theorem map_killed_of_ne {p : Option Process} {pid : Nat} (h : ∀ q ∈ p, q.pid ≠ pid) :
    p.map (Process.killed pid) = p := by
  cases p with
  | none => rfl
  | some q => simp [Process.killed, h q rfl]

/-- The assignments of the watcher make the shadow the active server. -/
theorem reaches_adopt (s : ShutdownState) (hw : s.watcher = .killing) {args : ServerArgs}
    (ha : s.engine.shadowServerArgs = some args)
    (hpid : ∀ p ∈ s.engine.process, ∀ q ∈ s.engine.shadowWorker, q.pid ≠ p.pid) :
    Reaches next (fun t => t.watcher = .polling ∧ t.engine = s.engine.adoptShadow args s.reason ∧
      t.router = s.router) s := by
  obtain ⟨e, r, w, reason, oldUrl, newUrl, pc, url, pid⟩ := s
  cases hw
  dsimp only at ha hpid ⊢
  have hrest (e' : SGLangEngine) (he : e'.adoptShadow args reason = e.adoptShadow args reason)
      (ha' : e'.shadowServerArgs = some args) :
      Reaches next (fun t => t.watcher = .polling ∧ t.engine = e.adoptShadow args reason ∧
        t.router = r) ⟨e', r, .swapping, reason, oldUrl, newUrl, pc, url, pid⟩ := by
    iterate 8
      refine reaches_watch [] .ok (by simp) ?_
      simp only [watcherNext, ha']
    refine .here ⟨rfl, ?_, rfl⟩
    simpa [SGLangEngine.adoptShadow] using he
  refine reaches_watch [] .ok (by simp) ?_
  simp only [watcherNext]
  split
  · exact hrest e rfl ha
  · rename_i p hp
    refine hrest (e.kill p.pid) ?_ ha
    simp [SGLangEngine.adoptShadow, SGLangEngine.kill, map_killed_of_ne (hpid p hp)]

/-- From the check of the pending event on, the statements of the watcher run without
interruption are `_promote_shadow_worker_impl`. -/
theorem watcher_promotes (s : ShutdownState) (hw : s.watcher = .checkingPending)
    (hpid : ∀ p ∈ s.engine.process, ∀ q ∈ s.engine.shadowWorker, q.pid ≠ p.pid)
    (probes : List (Option Nat)) (register unregister : HttpOutcome) :
    Reaches next (fun t => (t.watcher = .polling ∨ t.watcher = .finished) ∧
      t.engine = (s.engine.promoteShadowWorkerImpl s.router s.reason probes register
        unregister).1 ∧
      t.router = (s.engine.promoteShadowWorkerImpl s.router s.reason probes register
        unregister).2.1) s := by
  obtain ⟨e, r, w, reason, oldUrl, newUrl, pc, url, pid⟩ := s
  cases hw
  unfold SGLangEngine.promoteShadowWorkerImpl
  dsimp only at hpid ⊢
  refine reaches_watch probes .ok (by simp) ?_
  simp only [watcherNext]
  split_ifs with hp hready
  · exact .here ⟨.inl rfl, rfl, rfl⟩
  · -- not ready: the check of the shadow or its probe fails
    refine reaches_watch probes .ok (by simp) ?_
    simp only [watcherNext]
    split_ifs with hup
    · refine reaches_watch probes .ok (by simp) ?_
      have hprobe : SGLangEngine.probeHealth 2 probes = false := by
        simpa [SGLangEngine.shadowWorkerReadyForHandover, hup] using hready
      simp only [watcherNext, hprobe]
      split
      · exact .here ⟨.inr rfl, rfl, rfl⟩
      · exact .here ⟨.inl rfl, rfl, rfl⟩
    · exact .here ⟨.inl rfl, rfl, rfl⟩
  · have hready : e.shadowWorkerReadyForHandover probes = true := by simpa using hready
    obtain ⟨hup, hprobe⟩ := (Bool.and_eq_true _ _).mp hready
    obtain ⟨args, ha⟩ : ∃ args, e.shadowServerArgs = some args := by
      rw [← Option.isSome_iff_exists]
      simp only [SGLangEngine.shadowAvailable, Bool.and_eq_true] at hup
      exact hup.1.2
    refine reaches_watch probes .ok (by simp) ?_
    simp only [watcherNext, hup, if_true]
    iterate 3
      refine reaches_watch probes .ok (by simp) ?_
      simp only [watcherNext, ha, hprobe, if_true]
    refine reaches_watch probes register (by simp) ?_
    simp only [watcherNext]
    cases hr : e.registerWorker r (SGLangEngine.workerUrl args.host args.port) register with
    | mk r' reply =>
      cases reply with
      | error error => exact .here ⟨.inr rfl, rfl, rfl⟩
      | ok u =>
        refine reaches_watch probes unregister (by simp) ?_
        simp only [watcherNext]
        obtain ⟨run, t, ht, h₁, h₂, h₃⟩ := reaches_adopt
          ⟨e, (e.unregisterWorker r' (SGLangEngine.workerUrl e.serverHost e.serverPort)
            unregister).1, .killing, reason, SGLangEngine.workerUrl e.serverHost e.serverPort,
            SGLangEngine.workerUrl args.host args.port, pc, url, pid⟩ rfl ha hpid
        exact ⟨run, t, ht, .inl h₁, h₂, h₃⟩

end ShutdownState

namespace LaunchedEngine

/-- The active process is the promoted shadow, and it is up. -/
def PromotedUp (c : LaunchedEngine) (e : SGLangEngine) : Prop :=
  e.process = some ⟨c.shadowPid, true⟩

instance (c : LaunchedEngine) (e : SGLangEngine) : Decidable (c.PromotedUp e) :=
  inferInstanceAs (Decidable (_ = _))

/-- Neither url of the engine is registered, and no promoted process is left as
the active one. -/
def CleanedUp (c : LaunchedEngine) (s : ShutdownState) : Prop :=
  c.activeUrl ∉ s.router.workerRequestCounts ∧ c.shadowUrl ∉ s.router.workerRequestCounts ∧
    ¬c.PromotedUp s.engine

instance (c : LaunchedEngine) (s : ShutdownState) : Decidable (c.CleanedUp s) :=
  inferInstanceAs (Decidable (_ ∧ _ ∧ _))

/-- Shutdown still reads which process is active, or is about to kill the shadow. -/
def WillKillShadow (c : LaunchedEngine) (pid : Nat) : ShutdownPc → Prop
  | .stopping | .reading | .unregistering | .readingPid | .killingShadow => True
  | .killing => pid = c.shadowPid
  | .checkingShadow | .readingShadowPid | .droppingShadow | .droppingArgs | .disabling
  | .finished => False

instance (c : LaunchedEngine) (pid : Nat) : ∀ pc, Decidable (c.WillKillShadow pid pc)
  | .stopping | .reading | .unregistering | .readingPid | .killingShadow => .isTrue trivial
  | .killing => inferInstanceAs (Decidable (_ = _))
  | .checkingShadow | .readingShadowPid | .droppingShadow | .droppingArgs | .disabling
  | .finished => .isFalse id

def OrderlyWatcher (c : LaunchedEngine) (s : ShutdownState) (o : HttpOutcome) :
    WatcherPc → Prop
  | .registering => s.engine.Registers o → s.shutdown = .stopping ∨ s.shutdown = .reading
  | .unregistering => c.activeUrl ∈ s.router.workerRequestCounts → s.engine.Unregisters o
  | .droppingShadow => c.PromotedUp s.engine → c.WillKillShadow s.pid s.shutdown
  | _ => True

instance (c : LaunchedEngine) (s : ShutdownState) (o : HttpOutcome) :
    ∀ pc, Decidable (c.OrderlyWatcher s o pc)
  | .registering => inferInstanceAs (Decidable (_ → _ ∨ _))
  | .unregistering => inferInstanceAs (Decidable (_ ∈ _ → _))
  | .droppingShadow => inferInstanceAs (Decidable (c.PromotedUp _ → _))
  | .polling | .checkingShadow | .checkingProcess | .checkingPending | .checkingReady | .probing
  | .computingOld | .computingNew | .killing | .swapping | .settingArgs | .droppingArgs
  | .settingHost | .settingPort | .disabling | .marking | .finished => .isTrue trivial

def OrderlyShutdown (c : LaunchedEngine) (s : ShutdownState) (o : HttpOutcome) :
    ShutdownPc → Prop
  | .reading => c.shadowUrl ∈ s.router.workerRequestCounts → s.engine.serverPort = c.shadowPort
  | .unregistering =>
    (s.url ∈ s.router.workerRequestCounts → s.engine.Unregisters o) ∧
      (c.PromotedUp s.engine → s.engine.usesRouter → o = .ok)
  | _ => True

instance (c : LaunchedEngine) (s : ShutdownState) (o : HttpOutcome) :
    ∀ pc, Decidable (c.OrderlyShutdown s o pc)
  | .reading => inferInstanceAs (Decidable (_ ∈ _ → _))
  | .unregistering => inferInstanceAs (Decidable ((_ ∈ _ → _) ∧ (c.PromotedUp _ → _ → _)))
  | .stopping | .readingPid | .killing | .checkingShadow | .readingShadowPid | .killingShadow
  | .droppingShadow | .droppingArgs | .disabling | .finished => .isTrue trivial

/-- What each step must meet for the shutdown to clean up: the calls of the router
that matter reach it, and neither thread overtakes the other at the registration
of the new url, at the assignment of the port and at the drop of the shadow. -/
def Orderly (c : LaunchedEngine) (s : ShutdownState) : ShutdownAction → Prop
  | .watcher _ o => c.OrderlyWatcher s o s.watcher
  | .shutdown o => c.OrderlyShutdown s o s.shutdown
  | .crash _ => True

instance (c : LaunchedEngine) (s : ShutdownState) : ∀ a, Decidable (c.Orderly s a)
  | .watcher _ o => inferInstanceAs (Decidable (c.OrderlyWatcher s o s.watcher))
  | .shutdown o => inferInstanceAs (Decidable (c.OrderlyShutdown s o s.shutdown))
  | .crash _ => .isTrue trivial

/-- The promoted process does not crash of itself. -/
def PromotedStable (c : LaunchedEngine) (s : ShutdownState) : ShutdownAction → Prop
  | .crash pid => pid = c.shadowPid → s.engine.activePid ≠ some c.shadowPid
  | .watcher _ _ | .shutdown _ => True

end LaunchedEngine

end Belayer.Engine
