import Belayer.Agent.RunAgentRemote

namespace Belayer.Agent

open Belayer.Framework

variable {ε : Type*}

structure GenerateParams where
  agent : AgentParams
  hasScheduler : Bool
  agentRuntimeTimeout : String
  evalRuntimeTimeout : String

/-- What comes out of an awaited call that does not return. -/
inductive Raised where
  | timeout (error : String)
  | error (error : String)
  | cancelled
  deriving DecidableEq

/-- What the coroutine awaits. In the cleanup of the evaluation the phase keeps what is on its way
out, in the outer cleanup only whether the task is cancelled. -/
inductive GeneratePhase (ε : Type*) where
  | admitting
  | acquiring
  | allocating
  | attaching (leaseId : String)
  | running (agent : AgentRun ε)
  | closingAgent
  | detachingAgent
  | acquiringEval
  | allocatingEval
  | attachingEval
  | evaluating
  | closingEval (raised? : Option Raised)
  | detachingEval (raised? : Option Raised)
  | cleaningEval (isCancelled : Bool)
  | cleaningEvalDetach (isCancelled : Bool)
  | cleaning (isCancelled : Bool)
  | cleaningDetach (isCancelled : Bool)
  | finishing (promptId : String) (isCancelled : Bool)
  | ended (isCancelled : Bool)

/-- A run of `_generate_impl`, with the lease ids that calls of `allocate` have returned and those
that have been passed to calls of `close`. -/
structure GenerateRun (ε : Type*) where
  phase : GeneratePhase ε
  admissionTicket : Option String
  leaseId : Option String
  evalLeaseId : Option String
  evalSlotAcquired : Bool
  timedOut : Bool
  error : Option String
  gitPatch : Option String
  reward : Nat
  allocated : List String
  closed : List String

/-- What ends the wait for the phase. -/
inductive GenerateAction (ε : Type*) where
  | admission (result : Except Raised String)
  | acquire (result : Except Raised Unit)
  | allocate (result : Except Raised String)
  | attach (result : Except Raised Unit)
  | agent (action : AgentAction ε)
  | agentTimeout
  | close (result : Except Raised Unit)
  | detach (result : Except Raised Unit)
  | evaluate (result : Except Raised Bool)
  | finish (result : Except Raised Unit)

namespace GenerateRun

variable (p : GenerateParams)

def begin : GenerateRun ε :=
  ⟨if p.hasScheduler then .admitting else .acquiring, none, none, none, false, false, none, none, 0,
    [], []⟩

/-- The call of `close`, with the phase that awaits it. -/
def callClose (s : GenerateRun ε) (leaseId : String) (phase : GeneratePhase ε) : GenerateRun ε :=
  { s with closed := s.closed ++ [leaseId], phase := phase }

/-- The end of the outer cleanup, after the leases. -/
def release (s : GenerateRun ε) (isCancelled : Bool) : GenerateRun ε :=
  match s.admissionTicket with
  | some promptId =>
    if p.hasScheduler then { s with phase := .finishing promptId isCancelled }
    else { s with phase := .ended isCancelled }
  | none => { s with phase := .ended isCancelled }

def cleanAgent (s : GenerateRun ε) (isCancelled : Bool) : GenerateRun ε :=
  let s := { s with evalSlotAcquired := false }
  match s.leaseId with
  | some leaseId => s.callClose leaseId (.cleaning isCancelled)
  | none => s.release p isCancelled

/-- The handlers around `_run_after_semaphore`, and the outer cleanup up to its first await. -/
def cleanUp (s : GenerateRun ε) (raised? : Option Raised) : GenerateRun ε :=
  let s := match raised? with
    | some (.timeout error) => { s with timedOut := true, error := some error }
    | some (.error error) => { s with error := some error }
    | some .cancelled | none => s
  let isCancelled := raised? = some .cancelled
  match s.evalLeaseId with
  | some evalLeaseId => s.callClose evalLeaseId (.cleaningEval isCancelled)
  | none => s.cleanAgent p isCancelled

/-- The end of the evaluation's cleanup. -/
def releaseEval (s : GenerateRun ε) (raised? : Option Raised) : GenerateRun ε :=
  cleanUp p { s with evalSlotAcquired := false } raised?

/-- The handlers around the evaluation, and its cleanup up to its first await. -/
def endEval (s : GenerateRun ε) (raised? : Option Raised) : GenerateRun ε :=
  let (s, raised?) := match raised? with
    | some (.error error) => ({ s with error := some error }, none)
    | _ => (s, raised?)
  match s.evalLeaseId with
  | some evalLeaseId => s.callClose evalLeaseId (.closingEval raised?)
  | none => s.releaseEval p raised?

def startAgent (s : GenerateRun ε) (leaseId : String) : GenerateRun ε :=
  { s with phase := .running (p.agent.begin leaseId) }

/-- The agent has returned; with a patch its container is closed before the evaluation. -/
def afterAgent (s : GenerateRun ε) (agent : AgentRun ε) : GenerateRun ε :=
  let s := { s with error := agent.error, gitPatch := agent.gitPatch }
  match agent.gitPatch.filter (· ≠ "") with
  | some _ => { s with closed := s.closed ++ s.leaseId.toList, phase := .closingAgent }
  | none => s.cleanUp p none

/-- The calls of the agent's recovery. -/
def account (s : GenerateRun ε) (action : AgentAction ε) (agent : AgentRun ε) : GenerateRun ε :=
  { s with
    allocated := match action with
      | .allocate (.ok leaseId) => s.allocated ++ [leaseId]
      | _ => s.allocated
    closed := match agent.phase with
      | .closing _ => s.closed ++ [agent.leaseId]
      | _ => s.closed }

/-- The agent goes on, or it has ended. -/
def follow (s : GenerateRun ε) (agent : AgentRun ε) : GenerateRun ε :=
  match agent.phase with
  | .returned => s.afterAgent p agent
  | .raised error => s.cleanUp p (some (.error error))
  | .cancelled => s.cleanUp p (some .cancelled)
  | _ => { s with phase := .running agent }

/-- A lease id that the pool gives out is a new one. -/
def isFresh (s : GenerateRun ε) : AgentAction ε → Bool
  | .allocate (.ok leaseId) => leaseId ∉ s.allocated
  | _ => true

def allocateFirst (s : GenerateRun ε) (leaseId : String) : GenerateRun ε :=
  let s := { s with leaseId := some leaseId, allocated := s.allocated ++ [leaseId] }
  if p.hasScheduler ∧ s.admissionTicket ≠ none then { s with phase := .attaching leaseId }
  else s.startAgent p leaseId

def allocateEval (s : GenerateRun ε) (evalLeaseId : String) : GenerateRun ε :=
  let s := { s with evalLeaseId := some evalLeaseId, allocated := s.allocated ++ [evalLeaseId] }
  if p.hasScheduler ∧ s.admissionTicket ≠ none then { s with phase := .attachingEval }
  else { s with phase := .evaluating }

/-- The coroutine goes on with the outcome of what it has awaited. -/
def step (s : GenerateRun ε) : GenerateAction ε → Option (GenerateRun ε)
  | .admission result =>
    match s.phase, result with
    | .admitting, .ok promptId =>
      some { s with admissionTicket := some promptId, phase := .acquiring }
    | .admitting, .error .cancelled => some { s with phase := .ended true }
    | .admitting, .error _ => some { s with phase := .acquiring }
    | _, _ => none
  | .acquire result =>
    match s.phase, result with
    | .acquiring, .ok _ => some { s with phase := .allocating }
    | .acquiring, .error .cancelled => some { s with phase := .ended true }
    | .acquiringEval, .ok _ => some { s with evalSlotAcquired := true, phase := .allocatingEval }
    | .acquiringEval, .error .cancelled => some (s.cleanUp p (some .cancelled))
    | _, _ => none
  | .allocate result =>
    match s.phase, result with
    | .allocating, .ok leaseId =>
      if leaseId ∈ s.allocated then none else some (s.allocateFirst p leaseId)
    | .allocating, .error raised => some (s.cleanUp p (some raised))
    | .allocatingEval, .ok leaseId =>
      if leaseId ∈ s.allocated then none else some (s.allocateEval p leaseId)
    | .allocatingEval, .error raised => some (s.endEval p (some raised))
    | _, _ => none
  | .attach result =>
    match s.phase, result with
    | .attaching _, .error .cancelled => some (s.cleanUp p (some .cancelled))
    | .attaching leaseId, _ => some (s.startAgent p leaseId)
    | .attachingEval, .error .cancelled => some (s.endEval p (some .cancelled))
    | .attachingEval, _ => some { s with phase := .evaluating }
    | _, _ => none
  | .agent action =>
    match s.phase with
    | .running agent =>
      if s.isFresh action then
        (agent.step p.agent action).map fun agent' => (s.account action agent').follow p agent'
      else none
    | _ => none
  | .agentTimeout =>
    match s.phase with
    | .running _ =>
      some (s.cleanUp p
        (some (.timeout ("agent_runtime_timeout_after_container_ready:" ++ p.agentRuntimeTimeout))))
    | _ => none
  | .close result =>
    match s.phase, result with
    | .closingAgent, .ok _ =>
      if p.hasScheduler then some { s with phase := .detachingAgent }
      else some { s with leaseId := none, phase := .acquiringEval }
    | .closingAgent, .error .cancelled => some (s.cleanUp p (some .cancelled))
    | .closingAgent, .error _ => some { s with phase := .acquiringEval }
    | .closingEval raised?, .ok _ =>
      if p.hasScheduler then some { s with phase := .detachingEval raised? }
      else some (releaseEval p { s with evalLeaseId := none } raised?)
    | .closingEval raised?, .error _ => some (releaseEval p { s with evalLeaseId := none } raised?)
    | .cleaningEval isCancelled, .ok _ =>
      if p.hasScheduler then some { s with phase := .cleaningEvalDetach isCancelled }
      else some (s.cleanAgent p isCancelled)
    | .cleaningEval isCancelled, .error _ => some (s.cleanAgent p isCancelled)
    | .cleaning isCancelled, .ok _ =>
      if p.hasScheduler then some { s with phase := .cleaningDetach isCancelled }
      else some (s.release p isCancelled)
    | .cleaning isCancelled, .error _ => some (s.release p isCancelled)
    | _, _ => none
  | .detach result =>
    match s.phase, result with
    | .detachingAgent, .ok _ => some { s with leaseId := none, phase := .acquiringEval }
    | .detachingAgent, .error .cancelled => some (s.cleanUp p (some .cancelled))
    | .detachingAgent, .error _ => some { s with phase := .acquiringEval }
    | .detachingEval raised?, _ => some (releaseEval p { s with evalLeaseId := none } raised?)
    | .cleaningEvalDetach isCancelled, _ => some (s.cleanAgent p isCancelled)
    | .cleaningDetach isCancelled, _ => some (s.release p isCancelled)
    | _, _ => none
  | .evaluate result =>
    match s.phase, result with
    | .evaluating, .ok resolved => some (endEval p { s with reward := resolved.toNat } none)
    | .evaluating, .error (.timeout _) =>
      some (s.endEval p
        (some (.timeout ("eval_timeout_after_container_ready:" ++ p.evalRuntimeTimeout))))
    | .evaluating, .error raised => some (s.endEval p (some raised))
    | _, _ => none
  | .finish result =>
    match s.phase, result with
    | .finishing _ _, .error .cancelled => some { s with phase := .ended true }
    | .finishing _ isCancelled, _ => some { s with phase := .ended isCancelled }
    | _, _ => none

end GenerateRun

end Belayer.Agent
