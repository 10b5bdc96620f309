import Belayer.Framework.Run
import Belayer.Framework.Text
import Mathlib.Data.Rat.Defs
import Mathlib.Algebra.Order.Field.Rat

namespace Belayer.Agent

open Belayer.Framework

inductive Role where
  | system
  | user
  | assistant
  deriving DecidableEq

structure Message where
  role : Role
  content : String
  deriving DecidableEq

-- `ε` is what a call of `exec` does to a container
variable {ε : Type*}

/-- An entry of `step_debug`; `effect?` is what the call has done to the container in use, none
where the container was lost. -/
structure StepDebug (ε : Type*) where
  stepIdx : Nat
  action : String
  returncode : Int
  output : String
  elapsed : ℚ
  llmElapsed : ℚ
  effect? : Option ε
  deriving DecidableEq

/-- A task of `submit_step_judge` under its step. -/
structure PrmTask (ε : Type*) where
  stepIdx : Nat
  stepDebug : List (StepDebug ε)
  policyResponse : String
  deriving DecidableEq

/-- The five lists of the agent loop. -/
structure Trajectory (ε : Type*) where
  messages : List Message
  stepDebug : List (StepDebug ε)
  prmPendingTasks : List (PrmTask ε)
  managedContexts : List (List Message)
  assistantTexts : List String
  deriving DecidableEq

@[ext] structure ReplayCost where
  env : ℚ
  llm : ℚ
  deriving DecidableEq

def ReplayCost.zero : ReplayCost := ⟨0, 0⟩

structure CheckpointState where
  latestReadyCheckpointId : Option String
  latestReadyCheckpointStep : Int
  latestReadyResumeStepIdx : Nat
  latestReadyProtected : ReplayCost
  cumulativeReplay : ReplayCost
  lastFixedPolicyCheckpointAttemptStepIdx : Int
  deriving DecidableEq

inductive CheckpointPolicy where
  | never
  | always
  | every3
  | adaptiveRisk
  deriving DecidableEq

/-- The configuration of a run, and the functions of its texts. -/
structure AgentParams where
  systemTemplate : String
  instanceMessage : String
  stepLimit : Nat
  policy : CheckpointPolicy
  hasTailModel : Bool
  hasPrmAgent : Bool
  skipSubmit : Bool
  hasDockerCreateLimiter : Bool
  getContextMessages : List Message → List Message
  parseBashAction : String → Option String
  renderObservation : Int → String → String
  extractPatchFromSubmission : String → Option String
  isValidGitPatch : String → Bool

/-- The flags of one wait for the model. -/
structure LlmWait where
  fixedPolicyCheckpointAttempted : Bool
  probeAttemptedInBubble : Bool
  adaptiveCheckpointSubmitted : Bool
  deriving DecidableEq

/-- The turn that a command belongs to. -/
structure Attempt where
  text : String
  command : String
  llmElapsed : ℚ
  deriving DecidableEq

/-- What the coroutine awaits. -/
inductive AgentPhase where
  | top
  | waiting (context : List Message) (wait : LlmWait)
  | checkpointing (context : List Message) (wait : LlmWait) (isAdaptive : Bool)
  | executing (attempt : Attempt)
  | rerunning (attempt : Attempt)
  | closing (attempt : Attempt)
  | allocating (attempt : Attempt)
  | recovered (attempt : Attempt) (resumeStepIdx : Nat)
  | diffing
  | collecting
  | returned
  | raised (error : String)
  | cancelled
  deriving DecidableEq

inductive ExitStatus where
  | submitted
  | maxSteps
  deriving DecidableEq

inductive PatchSource where
  | submission
  | gitDiffFallback
  deriving DecidableEq

/-- A run of `_run_agent_remote`. -/
structure AgentRun (ε : Type*) where
  phase : AgentPhase
  stepIdx : Nat
  leaseId : String
  trajectory : Trajectory ε
  checkpointState : CheckpointState
  nSteps : Nat
  gitPatch : Option String
  patchSource : Option PatchSource
  exitStatus : Option ExitStatus
  error : Option String

/-- An exception in the step, with the time that the step has taken. -/
structure Failure where
  error : String
  elapsed : ℚ

inductive CheckpointResult where
  | created (checkpointId : String) (stepIdx : Option Int)
  | busy
  | failed
  | raised (error : String)

inductive ExecResult (ε : Type*) where
  | returned (returncode : Int) (output : String) (elapsed : ℚ) (effect : ε)
  | faultInjected (elapsed : ℚ)
  | raised (failure : Failure) (effect : ε)

/-- What ends the wait for the phase; `complete` ends the wait for the model, with or without a
reply. -/
inductive AgentAction (ε : Type*) where
  | leave
  | heartbeat (failure? : Option Failure)
  | attemptFixed
  | attemptAdaptive
  | checkpoint (result : CheckpointResult)
  | complete (reply : Except String String) (elapsed : ℚ)
  | exec (result : ExecResult ε)
  | rerun (result : Except Failure Bool)
  | close (failure? : Option Failure)
  | allocate (result : Except Failure String)
  | diff (result : Except String String)
  | collect (error? : Option String)
  | cancel

/-- `_trim_messages_for_resume`. -/
def trimMessagesForResume (messages : List Message) (resumeStepIdx : Nat) : List Message :=
  messages.take (max 2 (2 + 2 * resumeStepIdx))

/-- `_trim_step_debug_for_resume`. -/
def trimStepDebugForResume (stepDebug : List (StepDebug ε)) (resumeStepIdx : Nat) :
    List (StepDebug ε) :=
  stepDebug.filter (·.stepIdx < resumeStepIdx)

/-- `_trim_pending_prm_tasks_for_resume`. -/
def trimPendingPrmTasksForResume (prmPendingTasks : List (PrmTask ε)) (resumeStepIdx : Nat) :
    List (PrmTask ε) :=
  prmPendingTasks.filter (·.stepIdx < resumeStepIdx)

/-- All that the loop trims after a recovery. -/
def Trajectory.trim (t : Trajectory ε) (resumeStepIdx : Nat) : Trajectory ε :=
  ⟨trimMessagesForResume t.messages resumeStepIdx,
    trimStepDebugForResume t.stepDebug resumeStepIdx,
    trimPendingPrmTasksForResume t.prmPendingTasks resumeStepIdx,
    t.managedContexts.take resumeStepIdx, t.assistantTexts.take resumeStepIdx⟩

/-- The reply of the model to a context. -/
def Trajectory.addReply (t : Trajectory ε) (context : List Message) (text : String) :
    Trajectory ε :=
  { t with
    managedContexts := t.managedContexts ++ [context]
    messages := t.messages ++ [⟨.assistant, text⟩]
    assistantTexts := t.assistantTexts ++ [text] }

def Trajectory.addObservation (t : Trajectory ε) (observation : String) : Trajectory ε :=
  { t with messages := t.messages ++ [⟨.user, observation⟩] }

def CheckpointState.start : CheckpointState := ⟨none, -1, 0, .zero, .zero, -1⟩

/-- After a checkpoint rerun. -/
def CheckpointState.rewind (c : CheckpointState) : CheckpointState :=
  { c with
    cumulativeReplay := c.latestReadyProtected
    lastFixedPolicyCheckpointAttemptStepIdx := c.latestReadyCheckpointStep }

/-- A checkpoint is ready. -/
def CheckpointState.ready (c : CheckpointState) (checkpointId : String) (step : Int)
    (resumeStepIdx : Nat) : CheckpointState :=
  { c with
    latestReadyCheckpointId := some checkpointId
    latestReadyCheckpointStep := step
    latestReadyResumeStepIdx := resumeStepIdx
    latestReadyProtected := c.cumulativeReplay }

def LlmWait.start : LlmWait := ⟨false, false, false⟩

/-- A command that hands in the result. -/
def isSubmit (command : String) : Bool :=
  (Text.find "COMPLETE_TASK_AND_SUBMIT_FINAL_OUTPUT" command).isSome

/-- The reminder at the end of an observation. -/
def reminder (remaining : Int) : String :=
  if remaining = 1 then
    "\nREMINDER: You only have 1 turn left. Please provide the final answer"
  else if 1 < remaining then
    "\nREMINDER: You have " ++ toString remaining ++ " turns left to arrive at the solution."
  else ""

namespace AgentParams

def initialMessages (p : AgentParams) : List Message :=
  [⟨.system, p.systemTemplate⟩, ⟨.user, p.instanceMessage⟩]

def begin (p : AgentParams) (leaseId : String) : AgentRun ε :=
  ⟨.top, 0, leaseId, ⟨p.initialMessages, [], [], [], []⟩, .start, 0, none, none, none, none⟩

/-- A checkpoint by the fixed policy is due. -/
def fixedPolicyIsDue (p : AgentParams) (s : AgentRun ε) (wait : LlmWait) : Bool :=
  !wait.fixedPolicyCheckpointAttempted && 0 < s.stepIdx && s.stepIdx < p.stepLimit &&
    s.checkpointState.lastFixedPolicyCheckpointAttemptStepIdx < (s.stepIdx : Int) - 1 &&
    (p.policy = .always || (p.policy = .every3 && s.stepIdx % 3 = 0))

/-- A probe is allowed; whether it pays off is left open. -/
def adaptiveIsAllowed (p : AgentParams) (s : AgentRun ε) (wait : LlmWait) : Bool :=
  p.policy = .adaptiveRisk && p.hasTailModel && 3 ≤ s.stepIdx &&
    !wait.probeAttemptedInBubble && !wait.adaptiveCheckpointSubmitted

end AgentParams

namespace AgentRun

variable (p : AgentParams)

/-- The end of `_run_agent_remote`, once there is a patch or none is to be had. -/
def finish (s : AgentRun ε) : AgentRun ε :=
  if p.hasPrmAgent ∧ s.trajectory.prmPendingTasks ≠ [] then { s with phase := .collecting }
  else { s with phase := .returned }

def afterLoop (s : AgentRun ε) : AgentRun ε :=
  if s.gitPatch = none then { s with phase := .diffing } else s.finish p

def next (s : AgentRun ε) : AgentRun ε :=
  { s with stepIdx := s.stepIdx + 1, phase := .top }

/-- The reply of the model joins the transcript; without a command the turn is over. -/
def takeReply (s : AgentRun ε) (context : List Message) (text : String) (llmElapsed : ℚ) :
    AgentRun ε :=
  let t := s.trajectory.addReply context text
  match p.parseBashAction text with
  | some command =>
    { s with trajectory := t, phase := .executing ⟨text, command, llmElapsed⟩ }
  | none =>
    let observation := p.renderObservation (-1) "No valid bash command found in response."
    next { s with trajectory := t.addObservation observation }

/-- The part of a turn after the execution. -/
def recordStep (s : AgentRun ε) (attempt : Attempt) (returncode : Int) (output : String)
    (elapsed : ℚ) (effect? : Option ε) : AgentRun ε :=
  let t := s.trajectory
  let stepDebug := t.stepDebug ++
    [⟨s.stepIdx, attempt.command, returncode, output, elapsed, attempt.llmElapsed, effect?⟩]
  let c := s.checkpointState
  let checkpointState := { c with
    cumulativeReplay :=
      ⟨c.cumulativeReplay.env + elapsed, c.cumulativeReplay.llm + attempt.llmElapsed⟩ }
  let submits := isSubmit attempt.command
  let prmPendingTasks :=
    if p.hasPrmAgent ∧ ¬(submits ∧ p.skipSubmit) then
      t.prmPendingTasks ++ [⟨s.stepIdx, stepDebug, attempt.text⟩]
    else t.prmPendingTasks
  let t := { t with stepDebug := stepDebug, prmPendingTasks := prmPendingTasks }
  let s := { s with checkpointState := checkpointState }
  if submits then
    let patch := (p.extractPatchFromSubmission output).filter p.isValidGitPatch
    afterLoop p { s with
      trajectory := t
      exitStatus := some .submitted
      gitPatch := patch
      patchSource := patch.map fun _ => .submission }
  else
    let remaining : Int := p.stepLimit - (s.stepIdx + 1)
    let observation := p.renderObservation returncode output ++ reminder remaining
    next { s with trajectory := t.addObservation observation }

/-- The handler of exceptions around the execution and the recovery. -/
def failStep (s : AgentRun ε) (attempt : Attempt) (failure : Failure) (effect? : Option ε) :
    AgentRun ε :=
  s.recordStep p attempt (-1) ("Execution error: " ++ failure.error) failure.elapsed effect?

/-- After a recovery, up to the heartbeat. -/
def resume (s : AgentRun ε) (attempt : Attempt) (leaseId : String) (resumeStepIdx : Nat) :
    AgentRun ε :=
  { s with
    leaseId := leaseId
    trajectory := s.trajectory.trim resumeStepIdx
    phase := .recovered attempt resumeStepIdx }

/-- The outcome of `_attempt_rollout_checkpoint_create`. -/
def endCheckpoint (s : AgentRun ε) (context : List Message) (wait : LlmWait) (isAdaptive : Bool) :
    CheckpointResult → AgentRun ε
  | .created checkpointId stepIdx =>
    { s with
      checkpointState :=
        s.checkpointState.ready checkpointId (stepIdx.getD (s.stepIdx - 1)) s.stepIdx
      phase := .waiting context { wait with
        adaptiveCheckpointSubmitted := wait.adaptiveCheckpointSubmitted || isAdaptive } }
  | .busy | .failed => { s with phase := .waiting context wait }
  | .raised error =>
    afterLoop p { s with
      error := some ("LLM call failed at step " ++ toString s.stepIdx ++ ": " ++ error) }

/-- The outcome of `exec`, with the first part of the recovery. -/
def endExec (s : AgentRun ε) (attempt : Attempt) : ExecResult ε → AgentRun ε
  | .returned returncode output elapsed effect =>
    s.recordStep p attempt returncode output elapsed (some effect)
  | .raised failure effect => s.failStep p attempt failure (some effect)
  | .faultInjected elapsed =>
    if p.hasDockerCreateLimiter then
      match s.checkpointState.latestReadyCheckpointId with
      | some _ => { s with phase := .rerunning attempt }
      | none => { s with phase := .closing attempt }
    else
      s.failStep p attempt
        ⟨"docker_create_limiter is required for rollout fault recovery", elapsed⟩ none

def endRerun (s : AgentRun ε) (attempt : Attempt) : Except Failure Bool → AgentRun ε
  | .ok true =>
    resume { s with checkpointState := s.checkpointState.rewind } attempt s.leaseId
      s.checkpointState.latestReadyResumeStepIdx
  | .ok false => { s with phase := .closing attempt }
  | .error failure => s.failStep p attempt failure none

def endDiff (s : AgentRun ε) : Except String String → AgentRun ε
  | .ok patch =>
    let valid := p.isValidGitPatch patch
    finish p { s with
      gitPatch := if valid then some patch else s.gitPatch
      patchSource := if valid then some .gitDiffFallback else s.patchSource
      exitStatus := s.exitStatus <|> some .maxSteps }
  | .error error => finish p { s with error := some ("diff failed: " ++ error) }

/-- The coroutine goes on with the outcome of what it has awaited. -/
def step (s : AgentRun ε) : AgentAction ε → Option (AgentRun ε)
  | .leave =>
    match s.phase with
    | .top => if s.stepIdx < p.stepLimit then none else some (s.afterLoop p)
    | _ => none
  | .heartbeat failure? =>
    match s.phase, failure? with
    | .top, none =>
      if s.stepIdx < p.stepLimit then
        some { s with
          nSteps := max s.nSteps (s.stepIdx + 1)
          phase := .waiting (p.getContextMessages s.trajectory.messages) .start }
      else none
    | .top, some failure =>
      if s.stepIdx < p.stepLimit then
        some { s with
          nSteps := max s.nSteps (s.stepIdx + 1)
          phase := .raised failure.error }
      else none
    | .recovered _ resumeStepIdx, none =>
      some { s with stepIdx := resumeStepIdx, phase := .top }
    | .recovered attempt _, some failure => some (s.failStep p attempt failure none)
    | _, _ => none
  | .attemptFixed =>
    match s.phase with
    | .waiting context wait =>
      if p.fixedPolicyIsDue s wait then
        some { s with
          checkpointState := { s.checkpointState with
            lastFixedPolicyCheckpointAttemptStepIdx := s.stepIdx - 1 }
          phase := .checkpointing context { wait with fixedPolicyCheckpointAttempted := true }
            false }
      else none
    | _ => none
  | .attemptAdaptive =>
    match s.phase with
    | .waiting context wait =>
      if p.adaptiveIsAllowed s wait then
        some { s with
          phase := .checkpointing context { wait with probeAttemptedInBubble := true } true }
      else none
    | _ => none
  | .checkpoint result =>
    match s.phase with
    | .checkpointing context wait isAdaptive => some (s.endCheckpoint p context wait isAdaptive result)
    | _ => none
  | .complete reply elapsed =>
    match s.phase, reply with
    | .waiting context _, .ok text => some (s.takeReply p context text elapsed)
    | .waiting _ _, .error error =>
      some (afterLoop p { s with
        error := some ("LLM call failed at step " ++ toString s.stepIdx ++ ": " ++ error) })
    | _, _ => none
  | .exec result =>
    match s.phase with
    | .executing attempt => some (s.endExec p attempt result)
    | _ => none
  | .rerun result =>
    match s.phase with
    | .rerunning attempt => some (s.endRerun p attempt result)
    | _ => none
  | .close failure? =>
    match s.phase, failure? with
    | .closing attempt, none => some { s with phase := .allocating attempt }
    | .closing attempt, some failure => some (s.failStep p attempt failure none)
    | _, _ => none
  | .allocate result =>
    match s.phase, result with
    | .allocating attempt, .ok leaseId =>
      some (resume { s with checkpointState := .start } attempt leaseId 0)
    | .allocating attempt, .error failure => some (s.failStep p attempt failure none)
    | _, _ => none
  | .diff result =>
    match s.phase with
    | .diffing => some (s.endDiff p result)
    | _ => none
  | .collect error? =>
    match s.phase, error? with
    | .collecting, none => some { s with phase := .returned }
    | .collecting, some error => some { s with phase := .raised error }
    | _, _ => none
  | .cancel =>
    match s.phase with
    | .returned | .raised _ | .cancelled => none
    | _ => some { s with phase := .cancelled }

end AgentRun

end Belayer.Agent
