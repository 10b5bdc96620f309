import Belayer.Router.Registry

namespace Belayer.Engine

open Belayer.Router

/-- A server process. No two processes of an engine share their number. -/
structure Process where
  pid : Nat
  alive : Bool
  deriving DecidableEq

structure ServerArgs where
  host : String
  port : Nat
  deriving DecidableEq

/-- The part of the actor that handovers and shutdown work with. -/
structure SGLangEngine where
  rank : Nat
  nodeRank : Nat
  workerType : String
  routerIp : Option String
  routerPort : Option Nat
  rolloutExternal : Bool
  process : Option Process
  shadowWorker : Option Process
  serverArgs : Option ServerArgs
  shadowServerArgs : Option ServerArgs
  serverHost : String
  serverPort : Nat
  shadowWorkerEnabled : Bool
  shadowFailoverStopEvent : Bool
  pendingShadowHandoverReconnect : Bool
  pendingShadowHandoverReason : Option String
  deriving DecidableEq

/-- How a call of the router over HTTP ends: it is answered, it does not reach the
router, or it is performed but its answer is lost. The last two raise. -/
inductive HttpOutcome where
  | ok
  | refused
  | lost
  deriving DecidableEq

inductive EngineError where
  | assertion (text : String)
  | requestFailed
  deriving DecidableEq

namespace SGLangEngine

def workerKey (e : SGLangEngine) : String :=
  e.workerType ++ ":rank=" ++ toString e.rank ++ ":node_rank=" ++ toString e.nodeRank

def workerUrl (host : String) (port : Nat) : String := "http://" ++ host ++ ":" ++ toString port

/-- Only the node-0 actor of an engine talks to the router. -/
def usesRouter (e : SGLangEngine) : Bool :=
  decide (e.nodeRank = 0) && (truthy e.routerIp).isSome && e.routerPort.any (· ≠ 0)

def workerRequest (e : SGLangEngine) (url : String) : WorkerRequest :=
  { queryUrl := some url, queryWorkerKey := some e.workerKey }

/-- `_register_worker` for the slime router. -/
def registerWorker (e : SGLangEngine) (r : SlimeRouter) (url : String) (o : HttpOutcome) :
    SlimeRouter × Except EngineError Unit :=
  if !e.usesRouter then (r, .ok ())
  else if e.workerType ≠ "regular" then
    (r, .error (.assertion "pd disaggregation is not supported in old router or slime router."))
  else
    match o with
    | .ok => ((r.addWorker (e.workerRequest url)).1, .ok ())
    | .refused => (r, .error .requestFailed)
    | .lost => ((r.addWorker (e.workerRequest url)).1, .error .requestFailed)

/-- `_unregister_worker` for the slime router. -/
def unregisterWorker (e : SGLangEngine) (r : SlimeRouter) (url : String) (o : HttpOutcome) :
    SlimeRouter × Except EngineError Unit :=
  if !e.usesRouter then (r, .ok ())
  else
    match o with
    | .ok => ((r.removeWorker (e.workerRequest url)).1, .ok ())
    | .refused => (r, .error .requestFailed)
    | .lost => ((r.removeWorker (e.workerRequest url)).1, .error .requestFailed)

/-- The shadow worker, if the engine has one it may promote. -/
def shadowAvailable (e : SGLangEngine) : Bool :=
  e.shadowWorkerEnabled && e.shadowWorker.isSome && e.shadowServerArgs.isSome

/-- The probes of the shadow's `/health`: a status code, or `none` when the request
raises. A 503 is tried once more. -/
def probeHealth : Nat → List (Option Nat) → Bool
  | 0, _ => false
  | _ + 1, [] | _ + 1, none :: _ => false
  | n + 1, some status :: probes =>
    if status = 200 ∨ status = 202 then true
    else if status ≠ 503 then false
    else probeHealth n probes

def shadowWorkerReadyForHandover (e : SGLangEngine) (probes : List (Option Nat)) : Bool :=
  e.shadowAvailable && e.shadowWorker.any (·.alive) && probeHealth 2 probes

/-- `consume_shadow_handover_reconnect_event`: read and clear the event. -/
def consumeShadowHandoverReconnectEvent (e : SGLangEngine) :
    SGLangEngine × Bool × Option String :=
  ({ e with pendingShadowHandoverReconnect := false, pendingShadowHandoverReason := none },
    e.pendingShadowHandoverReconnect, e.pendingShadowHandoverReason)

/-- The assignments that make the shadow the active server. -/
def adoptShadow (e : SGLangEngine) (args : ServerArgs) (reason : String) : SGLangEngine :=
  { e with
    process := e.shadowWorker
    shadowWorker := none
    serverArgs := some args
    shadowServerArgs := none
    serverHost := args.host
    serverPort := args.port
    shadowWorkerEnabled := false
    pendingShadowHandoverReconnect := true
    pendingShadowHandoverReason := some reason }

/-- `_promote_shadow_worker_impl`, when nothing else touches the engine while it
runs. A failed registration raises; a failed removal of the old url is caught. -/
def promoteShadowWorkerImpl (e : SGLangEngine) (r : SlimeRouter) (reason : String)
    (probes : List (Option Nat)) (register unregister : HttpOutcome) :
    SGLangEngine × SlimeRouter × Except EngineError Bool :=
  if e.pendingShadowHandoverReconnect then (e, r, .ok true)
  else if !e.shadowWorkerReadyForHandover probes then (e, r, .ok false)
  else
    match e.shadowServerArgs with
    | none => (e, r, .ok false)
    | some args =>
      let oldWorkerUrl := workerUrl e.serverHost e.serverPort
      let newWorkerUrl := workerUrl args.host args.port
      match e.registerWorker r newWorkerUrl register with
      | (r', .error error) => (e, r', .error error)
      | (r', .ok ()) =>
        (e.adoptShadow args reason, (e.unregisterWorker r' oldWorkerUrl unregister).1, .ok true)

/-- The condition under which the watcher asks for a promotion. -/
def primaryDead (e : SGLangEngine) : Bool :=
  e.shadowAvailable && e.process.any (!·.alive)

def activePid (e : SGLangEngine) : Option Nat := e.process.map (·.pid)

def crash (e : SGLangEngine) : SGLangEngine :=
  { e with process := e.process.map fun p => { p with alive := false } }

def crashShadow (e : SGLangEngine) : SGLangEngine :=
  { e with shadowWorker := e.shadowWorker.map fun p => { p with alive := false } }

/-- A promotion reuses an earlier one, does not succeed and leaves the engine as it
is, or makes the shadow the active process. -/
theorem promoteShadowWorkerImpl_cases (e : SGLangEngine) (r : SlimeRouter) (reason : String)
    (probes : List (Option Nat)) (register unregister : HttpOutcome) :
    (e.pendingShadowHandoverReconnect = true ∧
      e.promoteShadowWorkerImpl r reason probes register unregister = (e, r, .ok true)) ∨
    (e.pendingShadowHandoverReconnect = false ∧ ∃ r' reply, reply ≠ .ok true ∧
      e.promoteShadowWorkerImpl r reason probes register unregister = (e, r', reply)) ∨
    (e.pendingShadowHandoverReconnect = false ∧ ∃ r' args, e.shadowWorker.isSome ∧
      e.promoteShadowWorkerImpl r reason probes register unregister =
        (e.adoptShadow args reason, r', .ok true)) := by
  unfold promoteShadowWorkerImpl
  by_cases hp : e.pendingShadowHandoverReconnect
  · exact .inl ⟨hp, if_pos hp⟩
  · have hf : e.pendingShadowHandoverReconnect = false := by simpa using hp
    rw [if_neg hp]
    by_cases hr : e.shadowWorkerReadyForHandover probes
    · have hs : e.shadowWorker.isSome := by
        simp only [shadowWorkerReadyForHandover, shadowAvailable, Bool.and_eq_true] at hr
        exact hr.1.1.1.2
      rw [if_neg (by simp [hr])]
      split
      · exact .inr (.inl ⟨hf, r, .ok false, by simp, rfl⟩)
      · rename_i args ha
        dsimp only
        split
        · rename_i r' error he
          exact .inr (.inl ⟨hf, r', .error error, by simp, rfl⟩)
        · exact .inr (.inr ⟨hf, _, args, hs, rfl⟩)
    · rw [if_pos (by simp [hr])]
      exact .inr (.inl ⟨hf, r, .ok false, by simp, rfl⟩)

@[simp] theorem activePid_crash (e : SGLangEngine) : e.crash.activePid = e.activePid := by
  cases h : e.process <;> simp [crash, activePid, h]

end SGLangEngine

end Belayer.Engine
