import Belayer.Agent.MessageUtils
import Mathlib.Data.List.DropRight

namespace Belayer.Agent

/-- `Sample.Status`. -/
inductive SampleStatus where
  | pending
  | completed
  | truncated
  | aborted
  | failed
  deriving DecidableEq

/-- An entry of `prm_step_details`. -/
structure StepDetail where
  status : String
  stepIndex : Nat
  scores : List Int
  meanScore : ℚ
  deriving DecidableEq

/-- `metadata["prm"]`. -/
structure PrmMetadata where
  stepScores : List ℚ
  stepMeanScore : ℚ
  stepDetails : List StepDetail
  deriving DecidableEq

/-- `metadata["step_wise"]`. -/
structure StepWise where
  stepScores : List ℚ
  stepIndices : List Nat
  stepTokenSpans : List (Nat × Nat)
  stepScoresWithOutcome : List ℚ
  outcomeReward : ℚ
  deriving DecidableEq

/-- The metadata of a step's own sample. -/
structure DynamicMetadata where
  dynamicStepIndex : Nat
  dynamicOutcomeReward : ℚ
  numSteps : Nat
  deriving DecidableEq

structure Reward where
  score : ℚ
  acc : ℚ
  deriving DecidableEq

/-- What generation sets of a sample. -/
structure TrainSample where
  tokens : List Nat
  response : String
  responseLength : Nat
  lossMask : Option (List Nat)
  status : SampleStatus
  reward : Option Reward
  removeSample : Bool
  prm : Option PrmMetadata
  stepWise : Option StepWise
  dynamic : Option DynamicMetadata
  deriving DecidableEq

structure GenerateArgs where
  dynamicHistory : Bool
  prmEnable : Bool
  rolloutMaxContextLen : Option Int
  rolloutMaxResponseLen : Int

/-- What is read of `run_info`. -/
structure RunInfo where
  messages : List Message
  reward : Nat
  managedContexts : List (List Message)
  assistantTexts : List String
  prmStepScores : List ℚ
  prmStepDetails : List StepDetail

/-- A prompt and a response as tokens, with the loss mask of the response. -/
structure Encoded where
  promptIds : List Nat
  responseIds : List Nat
  lossMask : List Nat

/-- `xs[:stop]`. -/
def sliceTo {α : Type*} (xs : List α) (stop : Int) : List α :=
  xs.take (if stop < 0 then (xs.length + stop).toNat else stop.toNat)

/-- The tokens of a prompt with the generation prompt, and those of its response. -/
def encode (t : Tokenizer) (promptMessages responseMessages : List Message) :
    Except String Encoded := do
  let promptIds := t.applyChatTemplate promptMessages true
  let (responseIds, lossMask) ← t.responseIdsAndLossMask responseMessages
  return ⟨promptIds, responseIds, lossMask⟩

/-- A response longer than the limit. -/
def Encoded.isOver (e : Encoded) (limit : Option Int) : Bool :=
  limit.any fun maxResponseTokens => maxResponseTokens < (e.responseIds.length : Int)

/-- The response and its loss mask, cut at the limit. -/
def Encoded.cut (e : Encoded) (limit : Option Int) : Encoded :=
  match limit with
  | none => e
  | some maxResponseTokens =>
    if maxResponseTokens < (e.responseIds.length : Int) then
      { e with
        responseIds := sliceTo e.responseIds maxResponseTokens
        lossMask := sliceTo e.lossMask maxResponseTokens }
    else e

/-- `_extract_assistant_turn_spans` from a position on, with the start of the span that is open. -/
def spansFrom : Nat → Option Nat → List Nat → List (Nat × Nat)
  | _, none, [] => []
  | i, some start, [] => [(start, i)]
  | i, none, m :: mask => spansFrom (i + 1) (if m = 1 then some i else none) mask
  | i, some start, m :: mask =>
    if m = 0 then (start, i) :: spansFrom (i + 1) none mask
    else spansFrom (i + 1) (some start) mask

/-- `_extract_assistant_turn_spans`. -/
def extractAssistantTurnSpans (lossMask : List Nat) : List (Nat × Nat) := spansFrom 0 none lossMask

namespace RunInfo

variable (info : RunInfo)

def outcomeReward : ℚ := if info.reward = 0 then -1 else 1

def prmMetadata : PrmMetadata where
  stepScores := info.prmStepScores
  stepMeanScore :=
    if info.prmStepScores = [] then 0 else info.prmStepScores.sum / info.prmStepScores.length
  stepDetails := info.prmStepDetails

/-- `use_dynamic_history`. -/
def useDynamicHistory (args : GenerateArgs) : Bool :=
  args.dynamicHistory && !info.managedContexts.isEmpty && !info.assistantTexts.isEmpty

/-- The messages behind the prompt, up to the last one that is not the user's. -/
def responseMessages : List Message :=
  (info.messages.drop 2).rdropWhile fun message => message.role = .user

/-- The prompt and the response of each sample. -/
def conversations (args : GenerateArgs) : List (List Message × List Message) :=
  if info.messages = [] then []
  else if info.useDynamicHistory args then
    (info.managedContexts.zip info.assistantTexts).map fun step => (step.1, [⟨.assistant, step.2⟩])
  else if info.responseMessages = [] then []
  else [(info.messages.take 2, info.responseMessages)]

/-- The limit of a response in the dynamic-history path. -/
def dynamicLimit (args : GenerateArgs) (promptIds : List Nat) : Option Int :=
  let maxCtx := args.rolloutMaxContextLen.getD 0
  if 0 < maxCtx then some (max 1 (maxCtx - promptIds.length)) else none

/-- The limit of a response in the default path. -/
def defaultLimit (args : GenerateArgs) (promptIds : List Nat) : Int :=
  match args.rolloutMaxContextLen with
  | some maxContextLen => max 1 (maxContextLen - promptIds.length)
  | none => args.rolloutMaxResponseLen

def abortedSample (sample : TrainSample) : TrainSample :=
  { sample with status := .aborted, reward := some ⟨0, 0⟩, removeSample := true }

/-- The sample of one step, from its tokens. -/
def childOf (args : GenerateArgs) (sample : TrainSample) (nSteps stepIdx : Nat) (respText : String)
    (e : Encoded) : TrainSample :=
  let stepReward := info.outcomeReward
  let prmScore := info.prmStepScores.getD stepIdx 0
  let status := if e.responseIds = [] then SampleStatus.aborted else .completed
  let stepWise : StepWise :=
    { stepScores := [prmScore]
      stepIndices := [stepIdx]
      stepTokenSpans := [(0, e.responseIds.length)]
      stepScoresWithOutcome := [prmScore + stepReward]
      outcomeReward := stepReward }
  let reward : Option Reward := if args.prmEnable then none else some ⟨stepReward, info.reward⟩
  { tokens := e.promptIds ++ e.responseIds
    response := respText
    responseLength := e.responseIds.length
    lossMask := some e.lossMask
    status := status
    reward := if status = .aborted then some (reward.getD ⟨0, 0⟩) else reward
    removeSample := if status = .aborted then true else sample.removeSample
    prm :=
      if args.prmEnable ∧ info.prmStepScores ≠ [] then some info.prmMetadata else sample.prm
    stepWise := if args.prmEnable then some stepWise else sample.stepWise
    dynamic := some ⟨stepIdx, stepReward, nSteps⟩ }

/-- The sample of one step. -/
def dynamicSample (t : Tokenizer) (args : GenerateArgs) (sample : TrainSample)
    (nSteps stepIdx : Nat) (ctxMsgs : List Message) (respText : String) :
    Except String TrainSample := do
  let e ← encode t ctxMsgs [⟨.assistant, respText⟩]
  return info.childOf args sample nSteps stepIdx respText (e.cut (dynamicLimit args e.promptIds))

/-- One sample for each step. -/
def dynamicSamples (t : Tokenizer) (args : GenerateArgs) (sample : TrainSample) :
    Except String (List TrainSample) :=
  let steps := info.managedContexts.zip info.assistantTexts
  steps.zipIdx.mapM fun step =>
    info.dynamicSample t args sample steps.length step.2 step.1.1 step.1.2

/-- The sample of the whole run, from its tokens. -/
def sampleOf (args : GenerateArgs) (sample : TrainSample) (responseMessages : List Message)
    (e : Encoded) (isOver : Bool) : TrainSample :=
  let status := if isOver then SampleStatus.truncated else sample.status
  let stepTokenSpans := extractAssistantTurnSpans e.lossMask
  let nAligned := min info.prmStepScores.length stepTokenSpans.length
  let stepWise : StepWise :=
    { stepScores := info.prmStepScores.take nAligned
      stepIndices := List.range nAligned
      stepTokenSpans := stepTokenSpans.take nAligned
      stepScoresWithOutcome := (info.prmStepScores.take nAligned).map (· + info.outcomeReward)
      outcomeReward := info.outcomeReward }
  { tokens := e.promptIds ++ e.responseIds
    response := "\n".intercalate
      ((responseMessages.filter fun message => message.role = .assistant).map Message.content)
    responseLength := e.responseIds.length
    lossMask := some e.lossMask
    status := if status = .pending then .completed else status
    reward := if args.prmEnable then none else some ⟨info.outcomeReward, info.reward⟩
    removeSample := sample.removeSample
    prm := if args.prmEnable then some info.prmMetadata else sample.prm
    stepWise := if args.prmEnable then some stepWise else sample.stepWise
    dynamic := sample.dynamic }

/-- The sample of the whole run. -/
def defaultSample (t : Tokenizer) (args : GenerateArgs) (sample : TrainSample) :
    Except String TrainSample :=
  if info.responseMessages = [] then .ok (abortedSample sample)
  else do
    let e ← encode t (info.messages.take 2) info.responseMessages
    let limit := some (defaultLimit args e.promptIds)
    return info.sampleOf args sample info.responseMessages (e.cut limit) (e.isOver limit)

/-- The samples that `_generate_impl` makes of a run. -/
def samples (t : Tokenizer) (args : GenerateArgs) (sample : TrainSample) :
    Except String (List TrainSample) :=
  if info.messages = [] then .ok [abortedSample sample]
  else if info.useDynamicHistory args then info.dynamicSamples t args sample
  else do
    return [← info.defaultSample t args sample]

end RunInfo

end Belayer.Agent
