import Belayer.Framework.Dict
import Belayer.Framework.WhileLoop
import Belayer.Policy.AdaptiveTailModel
import Mathlib.Data.Finset.Basic

namespace Belayer.Policy

open Belayer.Framework

/-! The costs and the choice to probe -/

def redoEnvReplayCostSec (cumulativeEnvReplayCostSec latestReadyProtectedEnvCostSec : ℚ) : ℚ :=
  max 0 (cumulativeEnvReplayCostSec - latestReadyProtectedEnvCostSec)

def adaptiveDeltaEnvCostSec (cumulativeEnvReplayCostSec latestReadyProtectedEnvCostSec : ℚ) : ℚ :=
  max 0 (cumulativeEnvReplayCostSec - latestReadyProtectedEnvCostSec)

def redoReplayCostSec (cumulativeEnvReplayCostSec latestReadyProtectedEnvCostSec
    cumulativeLlmReplayCostSec latestReadyProtectedLlmCostSec : ℚ) : ℚ :=
  let envRedo := redoEnvReplayCostSec cumulativeEnvReplayCostSec latestReadyProtectedEnvCostSec
  let llmRedo := max 0 (cumulativeLlmReplayCostSec - latestReadyProtectedLlmCostSec)
  envRedo + llmRedo

def adaptiveExpectedBenefitSec (failureProb conditionalTailProb redoReplayCostSec : ℚ) : ℚ :=
  max 0 (failureProb * conditionalTailProb * redoReplayCostSec)

def adaptiveMinDeltaEnvCostSec : ℚ := 1 / 10

def adaptiveMinStepsBetweenCheckpoints : Int := 4

/-- `_should_probe_in_llm_bubble`, without pending checkpoints. -/
def shouldProbeInLlmBubble (currentStepIdx : Nat)
    (probeAttemptedInBubble adaptiveCheckpointSubmitted : Bool) (deltaEnvCostSec : ℚ)
    (stepsSinceLatestReadyCheckpoint : Int) (expectedBenefitSec expectedOverheadSec : ℚ) : Bool :=
  if currentStepIdx < 3 then false
  else if probeAttemptedInBubble || adaptiveCheckpointSubmitted then false
  else if deltaEnvCostSec < adaptiveMinDeltaEnvCostSec then false
  else if stepsSinceLatestReadyCheckpoint < adaptiveMinStepsBetweenCheckpoints then false
  else expectedOverheadSec < expectedBenefitSec

/-! The state of a replay -/

/-- `POLICIES`. -/
inductive ReplayPolicy where
  | oracleNoFaultNoCheckpoint
  | never
  | always
  | adaptiveRisk
  | every3
  deriving DecidableEq

structure ReplayStep where
  action : String
  llmElapsed : ℚ

structure ReplayArgs where
  policy : ReplayPolicy
  simulateLlmDelay : Bool
  adaptiveTailModel : Option (AdaptiveTailModel ℚ)
  adaptiveFailureProb : ℚ
  adaptiveDecisionIntervalSec : ℚ

/-- A checkpoint that is ready, as the environment answers; `now` is the clock, for an answer
without a time. -/
structure CreateResult where
  stepIdx : Option Int
  readyAt : Option ℚ
  now : ℚ

/-- The answer to a call that creates a checkpoint; without a result the environment is busy. -/
structure CreateAnswer where
  elapsedSec : ℚ
  result : Option CreateResult

/-- What the environment answers to each call of a kind. -/
structure ReplayAnswers where
  execElapsed : Nat → ℚ
  create : Nat → CreateAnswer

/-- A command that a container has run, and the time that it took. -/
structure Executed where
  action : String
  elapsed : ℚ
  deriving DecidableEq

/-- The latest ready checkpoint. -/
structure LatestReady where
  checkpointId : Option Nat
  step : Int
  resumeStepIdx : Nat
  protectedEnvCostSec : ℚ
  protectedLlmCostSec : ℚ
  deriving DecidableEq

def LatestReady.init : LatestReady := ⟨none, -1, 0, 0, 0⟩

inductive RecoveryMode where
  | checkpointRerun
  | baseRestart
  deriving DecidableEq

structure FailureEvent where
  injectBeforeStepIdx : Nat
  latestReady : LatestReady
  recoveryMode : RecoveryMode
  deriving DecidableEq

/-- The variables of `_run_one_trajectory`, with the container of the lease, the checkpoints of the
environment by their ids, and the number of its answers so far. -/
structure Replay where
  currentStepIdx : Nat
  pendingInjectionSteps : Finset Nat
  latestReady : LatestReady
  cumulativeEnvReplayCostSec : ℚ
  cumulativeLlmReplayCostSec : ℚ
  checkpointAttempts : Nat
  checkpointCreated : Nat
  checkpointBusySkips : Nat
  rerunFromCheckpoint : Nat
  rerunFromBase : Nat
  attemptIdx : Nat
  llmWaitCreditByStep : Dict Nat ℚ
  failureEvents : List FailureEvent
  container : List Executed
  checkpoints : List (List Executed)
  execs : Nat
  creates : Nat

/-- `candidate < current_best`, of tuples. -/
def isBelow (candidate currentBest : Int × ℚ) : Bool :=
  candidate.1 < currentBest.1 || (candidate.1 = currentBest.1 && candidate.2 < currentBest.2)

/-- `_promote_latest_ready_checkpoint`; both times are those of the candidate. -/
def promoteLatestReadyCheckpoint (latestReady : LatestReady) (checkpointId : Nat) (stepIdx : Int)
    (resumeStepIdx : Nat) (readyAt protectedEnvCostSec protectedLlmCostSec : ℚ) :
    LatestReady × Bool :=
  let currentBest : Int × ℚ :=
    (latestReady.step, if latestReady.checkpointId.isNone then -1 else readyAt)
  if latestReady.checkpointId.isSome && isBelow (stepIdx, readyAt) currentBest then
    (latestReady, false)
  else (⟨checkpointId, stepIdx, resumeStepIdx, protectedEnvCostSec, protectedLlmCostSec⟩, true)

/-- `_record_llm_wait_credit`. -/
def recordLlmWaitCredit (elapsedSec availableSec : ℚ) : ℚ :=
  min (max 0 availableSec) (max 0 elapsedSec)

namespace Replay

def start (injectBeforeStepIndices : Finset Nat) : Replay where
  currentStepIdx := 0
  pendingInjectionSteps := injectBeforeStepIndices
  latestReady := .init
  cumulativeEnvReplayCostSec := 0
  cumulativeLlmReplayCostSec := 0
  checkpointAttempts := 0
  checkpointCreated := 0
  checkpointBusySkips := 0
  rerunFromCheckpoint := 0
  rerunFromBase := 0
  attemptIdx := 0
  llmWaitCreditByStep := ∅
  failureEvents := []
  container := []
  checkpoints := []
  execs := 0
  creates := 0

/-- A call of `_attempt_checkpoint_create`, and what follows it: the environment saves the
container under a new id, and the checkpoint may become the latest one. -/
def attemptCheckpoint (answers : ReplayAnswers) (r : Replay) (checkpointStepIdx : Int)
    (resumeStepIdx : Nat) : Replay :=
  let answer := answers.create r.creates
  let r : Replay :=
    { r with checkpointAttempts := r.checkpointAttempts + 1, creates := r.creates + 1 }
  match answer.result with
  | none => { r with checkpointBusySkips := r.checkpointBusySkips + 1 }
  | some created =>
    let readyAt := created.readyAt.getD created.now
    { r with
      checkpoints := r.checkpoints ++ [r.container]
      checkpointCreated := r.checkpointCreated + 1
      latestReady := (promoteLatestReadyCheckpoint r.latestReady r.checkpoints.length
        (created.stepIdx.getD checkpointStepIdx) resumeStepIdx
        (if readyAt = 0 then created.now else readyAt)
        r.cumulativeEnvReplayCostSec r.cumulativeLlmReplayCostSec).1 }

end Replay

/-- The wait for a step's model call. -/
structure LlmBubble where
  replay : Replay
  waitedInLlmSec : ℚ
  probeAttemptedInBubble : Bool
  adaptiveCheckpointSubmitted : Bool

namespace LlmBubble

/-- The sleep at the end of a round. -/
def sleep (b : LlmBubble) (args : ReplayArgs) (llmDelay : ℚ) : LlmBubble :=
  let sleepChunk := min args.adaptiveDecisionIntervalSec (llmDelay - b.waitedInLlmSec)
  if 0 < sleepChunk then { b with waitedInLlmSec := b.waitedInLlmSec + sleepChunk } else b

/-- The checkpoint of a probe, whose time is part of the wait. -/
def probe (b : LlmBubble) (answers : ReplayAnswers) (llmDelay : ℚ) : LlmBubble :=
  let answer := answers.create b.replay.creates
  let stepIdx := b.replay.currentStepIdx
  { replay := b.replay.attemptCheckpoint answers ((stepIdx : Int) - 1) stepIdx
    waitedInLlmSec := b.waitedInLlmSec +
      recordLlmWaitCredit answer.elapsedSec (llmDelay - b.waitedInLlmSec)
    probeAttemptedInBubble := true
    adaptiveCheckpointSubmitted := b.adaptiveCheckpointSubmitted || answer.result.isSome }

/-- A round of the adaptive wait. -/
def round (b : LlmBubble) (args : ReplayArgs) (answers : ReplayAnswers)
    (tailModel : AdaptiveTailModel ℚ) (llmDelay redoReplayCostSec : ℚ)
    (stepsSinceLatestReadyCheckpoint : Int) : LlmBubble :=
  let expectedOverheadSec := tailModel.expectedExposedOverhead b.waitedInLlmSec
  let conditionalTailProb := tailModel.conditionalTailProbability b.waitedInLlmSec none
  let expectedBenefitSec :=
    adaptiveExpectedBenefitSec args.adaptiveFailureProb conditionalTailProb redoReplayCostSec
  let deltaEnvCostSec := adaptiveDeltaEnvCostSec b.replay.cumulativeEnvReplayCostSec
    b.replay.latestReady.protectedEnvCostSec
  let shouldProbe := shouldProbeInLlmBubble b.replay.currentStepIdx b.probeAttemptedInBubble
    b.adaptiveCheckpointSubmitted deltaEnvCostSec stepsSinceLatestReadyCheckpoint
    expectedBenefitSec expectedOverheadSec
  (if shouldProbe then b.probe answers llmDelay else b).sleep args llmDelay

/-- The rounds of the adaptive wait; `none` if the fuel does not last. -/
def wait (b : LlmBubble) (args : ReplayArgs) (answers : ReplayAnswers)
    (tailModel : AdaptiveTailModel ℚ) (llmDelay redoReplayCostSec : ℚ)
    (stepsSinceLatestReadyCheckpoint : Int) (fuel : Nat) : Option LlmBubble :=
  (whileLoop (fun b : LlmBubble => b.waitedInLlmSec < llmDelay)
    (fun b => some (b.round args answers tailModel llmDelay redoReplayCostSec
      stepsSinceLatestReadyCheckpoint)) fuel b).map Prod.snd

end LlmBubble

namespace Replay

/-- The wait for the model before a step; `none` if the fuel does not last. -/
def waitForLlm (args : ReplayArgs) (answers : ReplayAnswers) (fuel : Nat) (r : Replay)
    (llmDelay : ℚ) : Option Replay :=
  let prepaidLlmWaitSec :=
    min llmDelay (max 0 ((r.llmWaitCreditByStep.lookup r.currentStepIdx).getD 0))
  let redoReplayCostSec := redoReplayCostSec r.cumulativeEnvReplayCostSec
    r.latestReady.protectedEnvCostSec r.cumulativeLlmReplayCostSec
    r.latestReady.protectedLlmCostSec
  let stepsSinceLatestReadyCheckpoint : Int :=
    if r.latestReady.step < 0 then r.currentStepIdx
    else max 0 (r.currentStepIdx - r.latestReady.step)
  let r := { r with llmWaitCreditByStep := AList.erase r.currentStepIdx r.llmWaitCreditByStep }
  let tailModel :=
    if args.policy = .adaptiveRisk ∧ 0 < redoReplayCostSec then args.adaptiveTailModel else none
  match tailModel with
  | none => some r
  | some tailModel =>
    (LlmBubble.wait ⟨r, prepaidLlmWaitSec, false, false⟩ args answers tailModel llmDelay
      redoReplayCostSec stepsSinceLatestReadyCheckpoint fuel).map (·.replay)

/-- The rerun after an injected failure, from the latest checkpoint or from the base image. -/
def recover (r : Replay) (policy : ReplayPolicy) : Replay :=
  let r : Replay :=
    { r with
      pendingInjectionSteps := r.pendingInjectionSteps.erase r.currentStepIdx
      attemptIdx := if policy = .adaptiveRisk then r.attemptIdx + 1 else r.attemptIdx
      llmWaitCreditByStep := ∅ }
  match r.latestReady.checkpointId with
  | some checkpointId =>
    { r with
      rerunFromCheckpoint := r.rerunFromCheckpoint + 1
      failureEvents := r.failureEvents ++ [⟨r.currentStepIdx, r.latestReady, .checkpointRerun⟩]
      container := (r.checkpoints[checkpointId]?).getD r.container
      cumulativeEnvReplayCostSec := r.latestReady.protectedEnvCostSec
      cumulativeLlmReplayCostSec := r.latestReady.protectedLlmCostSec
      currentStepIdx := r.latestReady.resumeStepIdx }
  | none =>
    { r with
      rerunFromBase := r.rerunFromBase + 1
      failureEvents := r.failureEvents ++ [⟨r.currentStepIdx, r.latestReady, .baseRestart⟩]
      container := []
      latestReady := .init
      cumulativeEnvReplayCostSec := 0
      cumulativeLlmReplayCostSec := 0
      currentStepIdx := 0 }

/-- The command of a step is run. -/
def exec (answers : ReplayAnswers) (r : Replay) (step : ReplayStep) : Replay :=
  let execElapsed := answers.execElapsed r.execs
  { r with
    execs := r.execs + 1
    container := r.container ++ [⟨step.action, execElapsed⟩]
    cumulativeEnvReplayCostSec := r.cumulativeEnvReplayCostSec + execElapsed
    cumulativeLlmReplayCostSec := r.cumulativeLlmReplayCostSec + step.llmElapsed }

/-- The policy has a checkpoint attempted after the step. -/
def shouldAttemptCheckpoint (policy : ReplayPolicy) (currentStepIdx : Nat) : Bool :=
  policy = .always || (policy = .every3 && (currentStepIdx + 1) % 3 = 0)

/-- The checkpoint after a step; the next step's wait is credited with its time. -/
def checkpointAfterStep (args : ReplayArgs) (steps : List ReplayStep) (answers : ReplayAnswers)
    (r : Replay) : Replay :=
  let nextLlmOverlapBudgetSec :=
    if args.simulateLlmDelay then ((steps[r.currentStepIdx + 1]?).map (·.llmElapsed)).getD 0 else 0
  let creditedSec :=
    recordLlmWaitCredit (answers.create r.creates).elapsedSec nextLlmOverlapBudgetSec
  let r := r.attemptCheckpoint answers r.currentStepIdx (r.currentStepIdx + 1)
  if 0 < creditedSec then
    { r with
      llmWaitCreditByStep := AList.insert (r.currentStepIdx + 1)
        ((r.llmWaitCreditByStep.lookup (r.currentStepIdx + 1)).getD 0 + creditedSec)
        r.llmWaitCreditByStep }
  else r

/-- The step itself, when no failure is injected before it. -/
def execute (args : ReplayArgs) (steps : List ReplayStep) (answers : ReplayAnswers) (r : Replay)
    (step : ReplayStep) : Replay :=
  let r := r.exec answers step
  let r :=
    if r.currentStepIdx + 1 < steps.length ∧ shouldAttemptCheckpoint args.policy r.currentStepIdx
    then r.checkpointAfterStep args steps answers else r
  { r with currentStepIdx := r.currentStepIdx + 1 }

/-- A round of the loop. -/
def round (args : ReplayArgs) (steps : List ReplayStep) (answers : ReplayAnswers) (fuel : Nat)
    (r : Replay) : Option Replay :=
  (steps[r.currentStepIdx]?).bind fun step =>
    (r.waitForLlm args answers fuel (if args.simulateLlmDelay then step.llmElapsed else 0)).map
      fun r =>
        if r.currentStepIdx ∈ r.pendingInjectionSteps then r.recover args.policy
        else r.execute args steps answers step

end Replay

/-- `_run_one_trajectory`: the states at the top of the rounds, and the one after the loop. -/
def runOneTrajectory (args : ReplayArgs) (steps : List ReplayStep)
    (injectBeforeStepIndices : Finset Nat) (answers : ReplayAnswers) (fuel : Nat) :
    Option (List Replay × Replay) :=
  whileLoop (fun r : Replay => r.currentStepIdx < steps.length)
    (Replay.round args steps answers fuel) fuel (.start injectBeforeStepIndices)

end Belayer.Policy
