import Belayer.Agent.Samples
import Mathlib.Data.List.Sort

namespace Belayer.Agent

open Belayer.Framework

variable {ε : Type*}

/-- The limits of a `SweRewardAgent`, and what it reads of the arguments. -/
structure SweRewardAgent where
  maxHistorySteps : Nat
  maxProblemLen : Nat
  maxOutputLen : Nat
  maxHistoryOutputLen : Nat
  prmEnable : Bool
  hasPrmRouter : Bool

/-- What a task of `judge_step` ends with; of a reply, the scores of the votes. -/
inductive JudgeOutcome where
  | returned (scores : List Int)
  | exception
  | invalidResult
  deriving DecidableEq

namespace SweRewardAgent

def systemPrompt : String :=
  "You are a strict evaluator for a software engineering agent that fixes GitHub issues.\n" ++
  "You are given:\n" ++
  "1) The issue description (problem statement).\n" ++
  "2) The agent's recent action history.\n" ++
  "3) The agent's most recent step (THOUGHT + bash command) to evaluate.\n" ++
  "4) The execution result of that command (returncode + stdout/stderr)."

def scoringTemplate : String :=
  "Evaluate ONLY the single most recent step above.\n\n" ++
  "Assign a score of +1 if ALL of the following are true:\n" ++
  "- The command executed without unexpected errors (returncode=0, or expected non-zero like " ++
  "grep with no match);\n" ++
  "- The step is clearly relevant to diagnosing or fixing the stated issue;\n" ++
  "- The output provides useful information OR the edit makes a logically correct change toward " ++
  "fixing the bug.\n\n" ++
  "Otherwise assign a score of -1, for example if:\n" ++
  "- The command fails with an unexpected error (wrong path, syntax error, missing tool);\n" ++
  "- The step is irrelevant to the issue (wrong file, wrong concept, unnecessary exploration);\n" ++
  "- The agent is going in circles (repeating a previously failed command or approach);\n" ++
  "- The edit introduces an obvious bug or does not address the actual issue;\n" ++
  "- The agent is wasting steps (e.g. reading files already fully examined).\n\n" ++
  "Think carefully step by step, then provide your reasoning and put the final score in " ++
  "\\boxed\x7b\x7d.\n"

/-- `output_head` of an entry of `step_debug`. -/
def outputHead (output : String) : String := Text.take output 2000

/-- `output_tail` of an entry of `step_debug`. -/
def outputTail (output : String) : String :=
  String.ofList (output.toList.drop (output.toList.length - 2000))

/-- A text cut at a number of characters, with a note behind it. -/
def cutText (text : String) (maxChars : Nat) (note : String) : String :=
  if maxChars < text.toList.length then Text.take text maxChars ++ note else text

/-- `_format_output`; an entry that is missing has no output. -/
def formatOutput (output : String) (maxChars : Nat) : String :=
  let outputLen := output.toList.length
  let head := outputHead output
  let tail := outputTail output
  let text :=
    if outputLen ≤ 2000 then head
    else if outputLen ≤ 4000 then
      head ++ String.ofList (tail.toList.drop (4000 - outputLen))
    else
      head ++ "\n... (" ++ toString (outputLen - 4000) ++ " characters omitted) ...\n" ++ tail
  cutText text maxChars ("\n... (truncated to " ++ toString maxChars ++ " chars)")

variable (agent : SweRewardAgent)

/-- A line of the history. -/
def historyLine (i : Nat) (d : StepDebug ε) : String :=
  "Step " ++ toString (i + 1) ++ ": $ " ++ d.action ++ "\n  returncode=" ++
    toString d.returncode ++ "\n  output:\n" ++ formatOutput d.output agent.maxHistoryOutputLen

def historyLines (stepDebug : List (StepDebug ε)) (stepIndex : Nat) : List String :=
  let rstart := stepIndex - agent.maxHistorySteps
  (((stepDebug.take stepIndex).drop rstart).zipIdx rstart).map fun d => agent.historyLine d.2 d.1

/-- The entry that is shown as the step to evaluate. -/
def current (stepDebug : List (StepDebug ε)) (stepIndex : Nat) : Option (StepDebug ε) :=
  stepDebug[stepIndex]?

/-- `_build_reward_messages`. -/
def buildRewardMessages (problemStatement : String) (task : PrmTask ε) : List Message :=
  let historyLines := agent.historyLines task.stepDebug task.stepIdx
  let historySummary :=
    if historyLines = [] then "None (this is the first step)" else "\n\n".intercalate historyLines
  let cur := current task.stepDebug task.stepIdx
  let commandOutput := formatOutput ((cur.map StepDebug.output).getD "") agent.maxOutputLen
  let problemText := cutText problemStatement agent.maxProblemLen "\n... (truncated)"
  [⟨.system, systemPrompt⟩,
    ⟨.user, "## Issue Description\n" ++ problemText ++ "\n\n## Recent History (" ++
      toString historyLines.length ++ " steps)\n" ++ historySummary ++
      "\n\n## Current Step to Evaluate (step " ++ toString (task.stepIdx + 1) ++
      ")\n\nAgent's full response:\n" ++ task.policyResponse ++ "\n\nExecution result (returncode=" ++
      ((cur.map fun d => toString d.returncode).getD "?") ++ "):\n" ++ commandOutput ++ "\n\n" ++
      scoringTemplate⟩]

/-- The mean of the valid votes in `_prm_vote`. -/
def meanScore (scores : List Int) : ℚ :=
  let validScores := scores.filter fun score => score = -1 ∨ score = 1
  if validScores = [] then 0 else (validScores.sum : ℚ) / validScores.length

/-- What `judge_step` returns, with these votes. -/
def judgeStep (stepIndex : Nat) (scores : List Int) : StepDetail :=
  if !agent.prmEnable then ⟨"disabled", stepIndex, [0], 0⟩
  else if !agent.hasPrmRouter then ⟨"disabled_no_router", stepIndex, [0], 0⟩
  else ⟨"ok", stepIndex, scores, meanScore scores⟩

/-- The entry of `step_details` for a task. -/
def stepDetail (stepIdx : Nat) : JudgeOutcome → StepDetail
  | .returned scores => agent.judgeStep stepIdx scores
  | .exception => ⟨"exception", stepIdx, [0], 0⟩
  | .invalidResult => ⟨"invalid_result", stepIdx, [0], 0⟩

/-- `collect_step_results`. -/
def collectStepResults (outcomes : List (Nat × JudgeOutcome)) : List ℚ × List StepDetail :=
  let stepDetails := (outcomes.map fun outcome =>
    agent.stepDetail outcome.1 outcome.2).insertionSort fun a b => a.stepIndex ≤ b.stepIndex
  (stepDetails.map StepDetail.meanScore, stepDetails)

/-- The score that the judge gave in a task. -/
def score (outcome : PrmTask ε → JudgeOutcome) (task : PrmTask ε) : ℚ :=
  (agent.stepDetail task.stepIdx (outcome task)).meanScore

theorem stepIndex_stepDetail (stepIdx : Nat) (outcome : JudgeOutcome) :
    (agent.stepDetail stepIdx outcome).stepIndex = stepIdx := by
  cases outcome with
  | returned scores =>
    unfold stepDetail judgeStep
    dsimp only
    split_ifs <;> rfl
  | exception | invalidResult => rfl

/-- Tasks in the order of their steps have their scores in this order. -/
theorem collectStepResults_fst (outcome : PrmTask ε → JudgeOutcome) {tasks : List (PrmTask ε)}
    (h : tasks.Pairwise (·.stepIdx < ·.stepIdx)) :
    (agent.collectStepResults (tasks.map fun task => (task.stepIdx, outcome task))).1 =
      tasks.map (agent.score outcome) := by
  have hsorted : ((tasks.map fun task => (task.stepIdx, outcome task)).map fun outcome =>
      agent.stepDetail outcome.1 outcome.2).Pairwise fun a b => a.stepIndex ≤ b.stepIndex := by
    rw [List.map_map, List.pairwise_map]
    refine h.imp fun hlt => ?_
    dsimp only [Function.comp_apply]
    rw [stepIndex_stepDetail, stepIndex_stepDetail]
    exact Nat.le_of_lt hlt
  unfold collectStepResults
  dsimp only
  rw [hsorted.insertionSort_eq, List.map_map, List.map_map]
  rfl

end SweRewardAgent

/-- `run_info` of a run that has returned, with what its tasks of the judge end with. -/
def AgentRun.runInfo (s : AgentRun ε) (p : AgentParams) (agent : SweRewardAgent)
    (outcome : PrmTask ε → JudgeOutcome) (reward : Nat) : RunInfo :=
  let pendingTasks := s.trajectory.prmPendingTasks
  let results :=
    if p.hasPrmAgent ∧ pendingTasks ≠ [] then
      agent.collectStepResults (pendingTasks.map fun task => (task.stepIdx, outcome task))
    else ([], [])
  { messages := s.trajectory.messages
    reward := reward
    managedContexts := s.trajectory.managedContexts
    assistantTexts := s.trajectory.assistantTexts
    prmStepScores := results.1
    prmStepDetails := results.2 }

end Belayer.Agent
