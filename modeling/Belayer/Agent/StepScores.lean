import Belayer.Agent.Judged
import Belayer.Agent.SwePrm
import Belayer.Agent.Transcript
import Belayer.Agent.TurnSpans

namespace Belayer.Agent

open Belayer.Framework

variable {ε : Type*} {p : AgentParams} {agent : SweRewardAgent} {c : ChatTemplate}
  {args : GenerateArgs} {sample : TrainSample} {s : AgentRun ε} {t : Trajectory ε}
  {outcome : PrmTask ε → JudgeOutcome}

/-- A template that shows where the assistant's part begins and where it ends. -/
structure ChatTemplate.IsMarked (c : ChatTemplate) : Prop where
  generationPrompt_ne : c.generationPrompt ≠ []
  eos_notMem : c.eosTokenId ∉ c.trailer

/-- What the assistant has written in a response. -/
def assistantContents (messages : List Message) : List String :=
  (messages.filter fun message => message.role = .assistant).map Message.content

/-- The judge has seen the action and the output of the step of its task. -/
def Shown (p : AgentParams) (t : Trajectory ε) (task : PrmTask ε) : Prop :=
  ∃ debug ∈ t.stepDebug, debug.stepIdx = task.stepIdx ∧
    SweRewardAgent.current task.stepDebug task.stepIdx = some debug ∧
    p.parseBashAction task.policyResponse = some debug.action

/-- The score is that of the turn with this number and this text. -/
def IsScoreOf (agent : SweRewardAgent) (t : Trajectory ε) (outcome : PrmTask ε → JudgeOutcome)
    (k : Nat) (text : String) (score : ℚ) : Prop :=
  ∃ task ∈ t.prmPendingTasks, task.stepIdx = k ∧ task.policyResponse = text ∧
    score = agent.score outcome task

/-- Each span has the score of the turn whose tokens it covers. -/
def SpansLand (agent : SweRewardAgent) (c : ChatTemplate) (t : Trajectory ε)
    (outcome : PrmTask ε → JudgeOutcome) (response : List Message) (stepWise : StepWise) : Prop :=
  ∀ scored ∈ stepWise.stepScores.zip stepWise.stepTokenSpans, ∃ k,
    Covers (owners c 0 response) scored.2 k ∧
      ∃ text ∈ (assistantContents response)[k]?, IsScoreOf agent t outcome k text scored.1

/-- The sample of a step has the score of its turn, or none where the turn has none. -/
def StepLands (agent : SweRewardAgent) (t : Trajectory ε) (outcome : PrmTask ε → JudgeOutcome)
    (i : Nat) (b : TrainSample) (stepWise : StepWise) : Prop :=
  ∃ score, stepWise.stepScores = [score] ∧
    (IsScoreOf agent t outcome i b.response score ∨
      score = 0 ∧ ∀ task ∈ t.prmPendingTasks, task.stepIdx ≠ i)

/-- The judge has seen the steps that it was asked about, and the scores stand where they belong
in each sample that is made of the run. -/
structure Landed (p : AgentParams) (agent : SweRewardAgent) (c : ChatTemplate)
    (args : GenerateArgs) (t : Trajectory ε) (outcome : PrmTask ε → JudgeOutcome) (info : RunInfo)
    (built : List TrainSample) : Prop where
  shown : ∀ task ∈ t.prmPendingTasks, Shown p t task
  landed : args.prmEnable = true → ∀ i : Nat, ∀ conversation ∈ (info.conversations args)[i]?,
    ∀ b ∈ built[i]?, ∀ stepWise ∈ b.stepWise,
      if info.useDynamicHistory args then StepLands agent t outcome i b stepWise
      else SpansLand agent c t outcome conversation.2 stepWise

/-- Each turn before one that is judged has a command. -/
def Commanded (p : AgentParams) (t : Trajectory ε) : Prop :=
  ∀ task ∈ t.prmPendingTasks, ∀ text ∈ t.assistantTexts.take task.stepIdx,
    p.parseBashAction text ≠ none

/-! The turns that are judged -/

/-- The trajectory, but for its messages, is that of the turns. -/
structure Viewed (p : AgentParams) (t : Trajectory ε) (turns : List (Turn ε)) : Prop where
  recorded : Recorded p turns
  stepDebug : t.stepDebug = turns.filterMap Turn.debug?
  tasks : t.prmPendingTasks = turns.filterMap Turn.task?
  texts : t.assistantTexts = turns.map Turn.text

variable {turns : List (Turn ε)}

/-- A task is that of a turn with a command. -/
theorem exists_turn (hv : Viewed p t turns) (hj : Judged p t) {task : PrmTask ε}
    (htask : task ∈ t.prmPendingTasks) : ∃ turn debug, turns[task.stepIdx]? = some turn ∧
      turn.debug? = some debug ∧ debug ∈ t.stepDebug ∧ debug.stepIdx = task.stepIdx ∧
      judgeTask p t debug = some task := by
  rw [hj.tasks] at htask
  obtain ⟨debug, hdebug, hjudged⟩ := List.mem_filterMap.mp htask
  have hidx : debug.stepIdx = task.stepIdx := by
    unfold judgeTask at hjudged
    split_ifs at hjudged
    cases hjudged
    rfl
  have hmem : debug ∈ turns.filterMap Turn.debug? := by
    rw [← hv.stepDebug]
    exact hdebug
  obtain ⟨i, turn, hi, hturn, hdate⟩ := hv.recorded.steps.exists_place hmem
  rw [Nat.zero_add, hidx] at hdate
  exact ⟨turn, debug, hdate ▸ hi, hturn, hdebug, hidx, hjudged⟩

theorem isSome_debug_iff (hv : Viewed p t turns) {turn : Turn ε} (hturn : turn ∈ turns) :
    turn.debug?.isSome ↔ p.parseBashAction turn.text ≠ none := by
  rw [hv.recorded.commands turn hturn, ne_eq, Option.map_eq_none_iff, Option.isSome_iff_ne_none]

/-- The steps that the judge is shown are those of the turns up to its own. -/
theorem stepDebug_judgeTask (hv : Viewed p t turns) {debug : StepDebug ε} {task : PrmTask ε}
    (hjudged : judgeTask p t debug = some task) :
    task.stepDebug = (turns.take (task.stepIdx + 1)).filterMap Turn.debug? ∧
      task.policyResponse = t.assistantTexts.getD task.stepIdx "" := by
  unfold judgeTask at hjudged
  split_ifs at hjudged
  cases hjudged
  refine ⟨?_, rfl⟩
  dsimp only
  rw [hv.stepDebug, ← hv.recorded.steps.filter_lt (debug.stepIdx + 1)]
  exact List.filter_congr fun other _ => by rw [decide_eq_decide, Nat.lt_succ_iff]

theorem policyResponse_eq (hv : Viewed p t turns) (hj : Judged p t) {task : PrmTask ε}
    (htask : task ∈ t.prmPendingTasks) :
    t.assistantTexts[task.stepIdx]? = some task.policyResponse := by
  obtain ⟨turn, debug, hturn, -, -, -, hjudged⟩ := exists_turn hv hj htask
  have htext : t.assistantTexts[task.stepIdx]? = some turn.text := by
    rw [hv.texts, List.getElem?_map, hturn]
    rfl
  rw [(stepDebug_judgeTask hv hjudged).2, List.getD_eq_getElem?_getD, htext]
  rfl

/-- The judge sees the step exactly where the turns before it have commands. -/
theorem shown_iff (hv : Viewed p t turns) (hj : Judged p t) {task : PrmTask ε}
    (htask : task ∈ t.prmPendingTasks) :
    Shown p t task ↔ ∀ text ∈ t.assistantTexts.take task.stepIdx, p.parseBashAction text ≠ none := by
  obtain ⟨turn, debug, hturn, hdebug, hmem, hidx, hjudged⟩ := exists_turn hv hj htask
  obtain ⟨hsteps, -⟩ := stepDebug_judgeTask hv hjudged
  have hlt : task.stepIdx < turns.length := (List.getElem?_eq_some_iff.mp hturn).1
  have htake : (turns.take (task.stepIdx + 1)).length = task.stepIdx + 1 :=
    List.length_take_of_le hlt
  rw [hv.texts, ← List.map_take, List.forall_mem_map]
  constructor
  · rintro ⟨shown, -, -, hcurrent, -⟩ before hbefore
    -- an entry at this place means that no turn is without one
    unfold SweRewardAgent.current at hcurrent
    rw [hsteps] at hcurrent
    have hlong := (List.getElem?_eq_some_iff.mp hcurrent).1
    have hall : ∀ a ∈ turns.take (task.stepIdx + 1), (Turn.debug? a).isSome := by
      rw [← List.filterMap_length_eq_length, htake]
      have hle := List.length_filterMap_le Turn.debug? (turns.take (task.stepIdx + 1))
      omega
    have hin : before ∈ turns.take (task.stepIdx + 1) :=
      (List.take_subset_take_left turns (Nat.le_succ _)) hbefore
    exact (isSome_debug_iff hv (List.mem_of_mem_take hin)).mp (hall before hin)
  · intro hall
    refine ⟨debug, hmem, hidx, ?_, ?_⟩
    · unfold SweRewardAgent.current
      rw [hsteps]
      have hplace : (turns.take (task.stepIdx + 1))[task.stepIdx]? = some turn := by
        rw [List.getElem?_take_of_lt (Nat.lt_succ_self _), hturn]
      refine getElem?_filterMap hplace hdebug fun before hbefore => ?_
      rw [List.take_take, min_eq_left (Nat.le_succ _)] at hbefore
      exact (isSome_debug_iff hv (List.mem_of_mem_take hbefore)).mpr (hall before hbefore)
    · have htext := policyResponse_eq hv hj htask
      rw [hv.texts, List.getElem?_map, hturn] at htext
      rw [← Option.some.inj htext, hv.recorded.commands turn (List.mem_of_getElem? hturn), hdebug]
      rfl

/-- A turn with a command has its task when a later one has. -/
theorem isSome_task (hv : Viewed p t turns) (hj : Judged p t)
    (hearlier : ∀ debug ∈ t.stepDebug.dropLast, isSubmit debug.action = false) {task : PrmTask ε}
    (htask : task ∈ t.prmPendingTasks) {i : Nat} (hi : i < task.stepIdx) {before : Turn ε}
    (hbefore : turns[i]? = some before) (hcommand : before.debug?.isSome) :
    before.task?.isSome := by
  obtain ⟨turn, debug, -, -, hdebug, hidx, hjudged⟩ := exists_turn hv hj htask
  obtain ⟨own, hown⟩ := Option.isSome_iff_exists.mp hcommand
  have hplace : own.stepIdx = i := by
    rw [hv.recorded.steps.date_eq hbefore hown, Nat.zero_add]
  have hmem : own ∈ t.stepDebug := by
    rw [hv.stepDebug]
    exact List.mem_filterMap.mpr ⟨before, List.mem_of_getElem? hbefore, hown⟩
  have hpairwise : t.stepDebug.Pairwise (·.stepIdx < ·.stepIdx) := by
    rw [hv.stepDebug]
    exact hv.recorded.steps.pairwise
  -- only the last step may hand in the result, so this one is judged
  have hopen : isSubmit own.action = false :=
    hearlier own (mem_dropLast_of_lt hpairwise hmem hdebug (by rw [hplace, hidx]; exact hi))
  have hagent : p.hasPrmAgent = true := by
    unfold judgeTask at hjudged
    split_ifs at hjudged with h
    exact h.1
  have hjudges : p.hasPrmAgent = true ∧ ¬(isSubmit own.action = true ∧ p.skipSubmit = true) := by
    refine ⟨hagent, fun h => ?_⟩
    rw [hopen] at h
    exact Bool.noConfusion h.1
  obtain ⟨ownTask, hownTask, hownIdx⟩ : ∃ ownTask ∈ t.prmPendingTasks, ownTask.stepIdx = i := by
    rw [hj.tasks]
    exact ⟨⟨own.stepIdx, _, _⟩, List.mem_filterMap.mpr ⟨own, hmem, if_pos hjudges⟩, hplace⟩
  rw [hv.tasks] at hownTask
  obtain ⟨k, turn', hk, hturn', hdate⟩ := hv.recorded.tasks.exists_place hownTask
  rw [hownIdx, Nat.zero_add] at hdate
  rw [← hdate, hbefore] at hk
  cases hk
  rw [hturn']
  rfl

/-- Where the turns before a judged one have commands, a task stands at the place of its turn. -/
theorem stepIdx_eq (hv : Viewed p t turns) (hj : Judged p t)
    (hearlier : ∀ debug ∈ t.stepDebug.dropLast, isSubmit debug.action = false)
    (hcommanded : Commanded p t) {j : Nat} {task : PrmTask ε}
    (h : t.prmPendingTasks[j]? = some task) : task.stepIdx = j := by
  have htask := List.mem_of_getElem? h
  have hmem := htask
  rw [hv.tasks] at hmem
  obtain ⟨k, turn, hk, hturn, hdate⟩ := hv.recorded.tasks.exists_place hmem
  rw [Nat.zero_add] at hdate
  have hall : ∀ before ∈ turns.take k, (Turn.task? before).isSome := by
    intro before hbefore
    obtain ⟨i, hi⟩ := List.getElem?_of_mem hbefore
    have hlt : i < k := by
      have hlength := (List.getElem?_eq_some_iff.mp hi).1
      rw [List.length_take] at hlength
      omega
    rw [List.getElem?_take_of_lt hlt] at hi
    refine isSome_task hv hj hearlier htask (by omega) hi ?_
    refine (isSome_debug_iff hv (List.mem_of_getElem? hi)).mpr (hcommanded task htask _ ?_)
    rw [hv.texts, ← List.map_take, hdate]
    exact List.mem_map_of_mem hbefore
  have hown := getElem?_filterMap hk hturn hall
  rw [← hv.tasks] at hown
  have hpairwise : t.prmPendingTasks.Pairwise (·.stepIdx < ·.stepIdx) := by
    rw [hv.tasks]
    exact hv.recorded.tasks.pairwise
  rw [hdate]
  exact place_eq_of_pairwise hpairwise hown h

/-! The scores in the samples -/

theorem prmStepScores_eq (hv : Viewed p s.trajectory turns) (hj : Judged p s.trajectory)
    (reward : Nat) : (s.runInfo p agent outcome reward).prmStepScores =
      s.trajectory.prmPendingTasks.map (agent.score outcome) := by
  have hpairwise : s.trajectory.prmPendingTasks.Pairwise (·.stepIdx < ·.stepIdx) := by
    rw [hv.tasks]
    exact hv.recorded.tasks.pairwise
  unfold AgentRun.runInfo
  dsimp only
  split_ifs with hcollect
  · exact agent.collectStepResults_fst outcome hpairwise
  · -- without a judge there are no tasks
    have hnone : s.trajectory.prmPendingTasks = [] := by
      by_contra hne
      obtain ⟨task, rest, htasks⟩ := List.exists_cons_of_ne_nil hne
      have htask : task ∈ s.trajectory.prmPendingTasks := by
        rw [htasks]
        exact List.mem_cons_self ..
      obtain ⟨-, debug, -, -, -, -, hjudged⟩ := exists_turn hv hj htask
      unfold judgeTask at hjudged
      split_ifs at hjudged with h
      exact hcollect ⟨h.1, hne⟩
    rw [hnone]
    rfl

/-- The score at a place is that of the turn with this number. -/
theorem isScoreOf_place (hv : Viewed p t turns) (hj : Judged p t)
    (hearlier : ∀ debug ∈ t.stepDebug.dropLast, isSubmit debug.action = false)
    (hcommanded : Commanded p t) {j : Nat} {score : ℚ}
    (h : (t.prmPendingTasks.map (agent.score outcome))[j]? = some score) :
    ∃ text, t.assistantTexts[j]? = some text ∧ IsScoreOf agent t outcome j text score := by
  rw [List.getElem?_map] at h
  obtain ⟨task, htask, rfl⟩ := Option.map_eq_some_iff.mp h
  have hidx := stepIdx_eq hv hj hearlier hcommanded htask
  have hmem := List.mem_of_getElem? htask
  refine ⟨task.policyResponse, ?_, task, hmem, hidx, rfl, rfl⟩
  rw [← hidx]
  exact policyResponse_eq hv hj hmem

/-- What the assistant has written in the response is the texts of the turns. -/
theorem assistantContents_responseMessages {info : RunInfo} {messages : List Message}
    (hmessages : info.messages.drop 2 = messages) :
    assistantContents info.responseMessages = assistantContents messages := by
  have hrdrop : ∀ l : List Message, (l.rdropWhile fun message => message.role = .user).filter
      (fun message => message.role = .assistant) = l.filter fun message => message.role = .assistant := by
    intro l
    induction l using List.reverseRecOn with
    | nil => rfl
    | append_singleton l message ih =>
      by_cases huser : message.role = .user
      · rw [List.rdropWhile_concat_pos (fun message : Message => decide (message.role = .user)) l
          message (decide_eq_true huser), ih, List.filter_append]
        simp [huser]
      · rw [List.rdropWhile_concat_neg (fun message : Message => decide (message.role = .user)) l
          message (by simpa using huser)]
  unfold assistantContents RunInfo.responseMessages
  rw [hmessages, hrdrop]

theorem assistantContents_messages (turns : List (Turn ε)) :
    assistantContents (turns.flatMap Turn.messages) = turns.map Turn.text := by
  unfold assistantContents
  induction turns with
  | nil => rfl
  | cons turn turns ih =>
    rw [List.flatMap_cons, List.filter_append, List.map_append, ih]
    rfl

/-- The messages behind the prompt are the turns', the last observation possibly missing. -/
theorem drop_messages (he : Ended p t) : ∃ turns : List (Turn ε), Viewed p t turns ∧
    assistantContents (t.messages.drop 2) = t.assistantTexts ∧
    ∀ message ∈ t.messages.drop 2, message.role ≠ .system := by
  obtain ⟨turns, hrecorded, hends⟩ := he
  have hroles : ∀ (l : List (Turn ε)), ∀ message ∈ l.flatMap Turn.messages,
      message.role ≠ .system := by
    intro l message hmessage
    obtain ⟨turn, -, hturn⟩ := List.mem_flatMap.mp hmessage
    unfold Turn.messages at hturn
    rcases List.mem_cons.mp hturn with rfl | hturn
    · exact Role.noConfusion
    · rw [List.mem_singleton.mp hturn]
      exact Role.noConfusion
  rcases hends with rfl | ⟨before, last, rfl, rfl⟩
  · refine ⟨turns, ⟨hrecorded, rfl, rfl, rfl⟩, ?_, ?_⟩
    · exact assistantContents_messages turns
    · exact hroles turns
  · refine ⟨before ++ [last], ⟨hrecorded, rfl, rfl, rfl⟩, ?_, ?_⟩
    · have hdrop : ((trajectoryOf p before).messages ++ [(⟨.assistant, last.text⟩ : Message)]).drop 2 =
          before.flatMap Turn.messages ++ [⟨.assistant, last.text⟩] := rfl
      have htexts : (trajectoryOf p (before ++ [last])).assistantTexts =
          before.map Turn.text ++ [last.text] := List.map_append
      dsimp only
      rw [hdrop, htexts, ← assistantContents_messages before]
      unfold assistantContents
      rw [List.filter_append, List.map_append]
      rfl
    · intro message hmessage
      have hmem : message ∈ before.flatMap Turn.messages ++ [⟨.assistant, last.text⟩] := hmessage
      rcases List.mem_append.mp hmem with hold | hnew
      · exact hroles before message hold
      · rw [List.mem_singleton.mp hnew]
        exact Role.noConfusion

theorem getElem?_of_take {α : Type*} {l : List α} {n j : Nat} {a : α}
    (h : (l.take n)[j]? = some a) : l[j]? = some a := by
  rw [List.getElem?_take] at h
  split_ifs at h
  exact h

/-- In the default path. -/
theorem spansLand (hc : c.IsMarked) (hv : Viewed p s.trajectory turns) (hj : Judged p s.trajectory)
    (hearlier : ∀ debug ∈ s.trajectory.stepDebug.dropLast, isSubmit debug.action = false)
    (hcommanded : Commanded p s.trajectory) (reward : Nat)
    (htexts : assistantContents (s.trajectory.messages.drop 2) = s.trajectory.assistantTexts)
    (limit : Option Int) (isOver : Bool) :
    let info := s.runInfo p agent outcome reward
    let e := encodedOf c (info.messages.take 2, info.responseMessages)
    ∀ stepWise ∈ (info.sampleOf args sample info.responseMessages (e.cut limit) isOver).stepWise,
      args.prmEnable = true →
        SpansLand agent c s.trajectory outcome info.responseMessages stepWise := by
  intro info e stepWise hstepWise henable
  obtain ⟨-, kept, -, hmask⟩ := exists_cut (length_lossMask (c := c)
    (info.messages.take 2, info.responseMessages)) limit
  have hwhole : e.lossMask = c.maskAll info.responseMessages := by
    have hzero := ChatTemplate.overshoot_eq_zero_iff.mpr hc.eos_notMem
    exact List.flatMap_congr fun message _ => builtMask_eq_mask hzero message
  have hcontents : assistantContents info.responseMessages = s.trajectory.assistantTexts :=
    (assistantContents_responseMessages rfl).trans htexts
  have hscores : info.prmStepScores = s.trajectory.prmPendingTasks.map (agent.score outcome) :=
    prmStepScores_eq hv hj reward
  unfold RunInfo.sampleOf at hstepWise
  dsimp only at hstepWise
  rw [if_pos henable] at hstepWise
  cases hstepWise
  intro scored hscored
  dsimp only at hscored
  obtain ⟨j, hj'⟩ := List.getElem?_of_mem hscored
  obtain ⟨hscore, hspan⟩ := List.getElem?_zip_eq_some.mp hj'
  have hspan' : (extractAssistantTurnSpans ((c.maskAll info.responseMessages).take kept))[j]? =
      some scored.2 := by
    rw [← hwhole, ← hmask]
    exact getElem?_of_take hspan
  have hplace := getElem?_of_take hscore
  rw [hscores] at hplace
  obtain ⟨text, htext, hof⟩ := isScoreOf_place hv hj hearlier hcommanded hplace
  refine ⟨j, covers_span hc.generationPrompt_ne hspan', text, ?_, hof⟩
  rw [hcontents]
  exact htext

/-- In the dynamic-history path. -/
theorem stepLands (hv : Viewed p s.trajectory turns) (hj : Judged p s.trajectory)
    (hearlier : ∀ debug ∈ s.trajectory.stepDebug.dropLast, isSubmit debug.action = false)
    (hcommanded : Commanded p s.trajectory) (reward : Nat) {i : Nat} {step : List Message × String}
    (hstep : (s.trajectory.managedContexts.zip s.trajectory.assistantTexts)[i]? = some step) :
    ∀ stepWise ∈ (stepSample c (s.runInfo p agent outcome reward) args sample (step, i)).stepWise,
      args.prmEnable = true → StepLands agent s.trajectory outcome i
        (stepSample c (s.runInfo p agent outcome reward) args sample (step, i)) stepWise := by
  intro stepWise hstepWise henable
  have hscores : (s.runInfo p agent outcome reward).prmStepScores =
      s.trajectory.prmPendingTasks.map (agent.score outcome) := prmStepScores_eq hv hj reward
  have htext := (List.getElem?_zip_eq_some.mp hstep).2
  have hof : stepWise.stepScores = [(s.runInfo p agent outcome reward).prmStepScores.getD i 0] := by
    unfold stepSample RunInfo.childOf at hstepWise
    dsimp only at hstepWise
    rw [if_pos henable] at hstepWise
    cases hstepWise
    rfl
  refine ⟨_, hof, ?_⟩
  rw [hscores, List.getD_eq_getElem?_getD]
  cases hplace : (s.trajectory.prmPendingTasks.map (agent.score outcome))[i]? with
  | some score =>
    obtain ⟨text, htext', hscore⟩ := isScoreOf_place hv hj hearlier hcommanded hplace
    rw [htext'] at htext
    cases htext
    exact .inl hscore
  | none =>
    refine .inr ⟨rfl, fun task htask hidx => ?_⟩
    obtain ⟨j, hplace'⟩ := List.getElem?_of_mem htask
    have hj' := stepIdx_eq hv hj hearlier hcommanded hplace'
    rw [hidx] at hj'
    subst hj'
    rw [List.getElem?_map, hplace'] at hplace
    cases hplace

/-- Where no heartbeat after a recovery fails, the scores stand where they belong exactly when
each turn before one that is judged has a command. -/
theorem landed_iff (hc : c.IsMarked) {leaseId : String} {run : List (AgentAction ε)}
    (h : Meets (AgentRun.step p) Resumes (p.begin leaseId) run)
    (hs : exec (AgentRun.step p) (p.begin leaseId) run = some s) (hreturned : s.phase = .returned)
    (agent : SweRewardAgent) (outcome : PrmTask ε → JudgeOutcome) (reward : Nat)
    (args : GenerateArgs) (sample : TrainSample) :
    (∃ built, (s.runInfo p agent outcome reward).samples c.tokenizer args sample = .ok built ∧
      Landed p agent c args s.trajectory outcome (s.runInfo p agent outcome reward) built) ↔
    Commanded p s.trajectory := by
  obtain ⟨hj, hsubmitted, hended⟩ := judged_of_run h hs
  have hearlier := hsubmitted.earlier
  obtain ⟨turns, hv, htexts, hroles⟩ := drop_messages (hended (by rw [hreturned]; rfl))
  constructor
  · rintro ⟨built, -, hlanded⟩ task htask
    exact (shown_iff hv hj htask).mp (hlanded.shown task htask)
  · intro hcommanded
    have hresponse : ∀ message ∈ (s.runInfo p agent outcome reward).responseMessages,
        message.role ≠ .system := fun message hmessage =>
      hroles message ((List.rdropWhile_prefix _ _).subset hmessage)
    have hshown : ∀ task ∈ s.trajectory.prmPendingTasks, Shown p s.trajectory task :=
      fun task htask => (shown_iff hv hj htask).mpr (hcommanded task htask)
    generalize hinfo : s.runInfo p agent outcome reward = info at hresponse ⊢
    unfold RunInfo.samples
    by_cases hmessages : info.messages = []
    · rw [if_pos hmessages]
      refine ⟨_, rfl, hshown, fun _ i conversation hconversation => ?_⟩
      unfold RunInfo.conversations at hconversation
      rw [if_pos hmessages] at hconversation
      cases hconversation
    rw [if_neg hmessages]
    by_cases hdynamic : info.useDynamicHistory args = true
    · rw [if_pos hdynamic, dynamicSamples_eq]
      refine ⟨_, rfl, hshown, fun henable i _ _ b hb stepWise hstepWise => ?_⟩
      rw [if_pos hdynamic]
      rw [Option.mem_def, List.getElem?_map, List.getElem?_zipIdx] at hb
      obtain ⟨step, hstep, rfl⟩ := Option.map_eq_some_iff.mp hb
      obtain ⟨pair, hpair, rfl⟩ := Option.map_eq_some_iff.mp hstep
      rw [Nat.zero_add] at hstepWise ⊢
      subst hinfo
      exact stepLands hv hj hearlier hcommanded reward hpair stepWise hstepWise henable
    rw [if_neg hdynamic]
    by_cases hnone : info.responseMessages = []
    · unfold RunInfo.defaultSample
      rw [if_pos hnone]
      refine ⟨_, rfl, hshown, fun _ i conversation hconversation => ?_⟩
      unfold RunInfo.conversations at hconversation
      rw [if_neg hmessages, if_neg hdynamic, if_pos hnone] at hconversation
      cases hconversation
    · rw [defaultSample_eq hnone hresponse]
      refine ⟨_, rfl, hshown, fun henable i conversation hconversation b hb stepWise hstepWise => ?_⟩
      rw [if_neg hdynamic]
      unfold RunInfo.conversations at hconversation
      rw [if_neg hmessages, if_neg hdynamic, if_neg hnone] at hconversation
      cases i with
      | succ i => cases hconversation
      | zero =>
        cases hconversation
        cases hb
        subst hinfo
        exact spansLand hc hv hj hearlier hcommanded reward htexts _ _ stepWise hstepWise henable

theorem headerTemplate_isMarked : headerTemplate.IsMarked where
  generationPrompt_ne := by decide
  eos_notMem := by decide

/-- Two turns at most, each of them judged. -/
def twoTurnParams : AgentParams := { Timeline.eagerParams with stepLimit := 2 }

def judgingAgent : SweRewardAgent := ⟨8, 1000, 1000, 1000, true, true⟩

def judgingArgs : GenerateArgs := ⟨true, false, some 100, 100⟩

/-- A turn with the text, and the call of its command if it has one. -/
def turnRun (text : String) : List (AgentAction String) :=
  [.heartbeat none, .complete (.ok text) 1] ++
    if text = "```bash\nls\n```" then [.exec (.returned 0 "a" 1 "ls")] else []

/-- Two turns, then the diff and the scores. -/
def judgedRun (first second : String) : List (AgentAction String) :=
  turnRun first ++ turnRun second ++ [.leave, .diff (.error "no lease"), .collect none]

instance (s : AgentRun ε) : ∀ a, Decidable (Resumes s a)
  | .heartbeat (some _) => inferInstanceAs (Decidable (s.phase.isRecovered = false))
  | .exec _ | .rerun _ | .close _ | .allocate _ | .heartbeat none | .leave | .attemptFixed
  | .attemptAdaptive | .checkpoint _ | .complete _ _ | .diff _ | .collect _ | .cancel =>
    .isTrue trivial

theorem landed_iff_twoCommands :
    ∃ s ∈ exec (AgentRun.step twoTurnParams) (twoTurnParams.begin "l1")
        (judgedRun "```bash\nls\n```" "```bash\nls\n```"),
      ∃ built, (s.runInfo twoTurnParams judgingAgent (fun _ => .returned [1]) 1).samples
          headerTemplate.tokenizer judgingArgs pendingSample = .ok built ∧
        Landed twoTurnParams judgingAgent headerTemplate judgingArgs s.trajectory
          (fun _ => .returned [1])
          (s.runInfo twoTurnParams judgingAgent (fun _ => .returned [1]) 1) built := by
  refine ⟨_, Option.get_mem (by decide +kernel), (landed_iff headerTemplate_isMarked
    (by decide +kernel) (Option.some_get _).symm (by decide +kernel) _ _ _ _ _).mpr ?_⟩
  unfold Commanded
  decide +kernel

/-- The first turn has no command: the judge of the second turn is shown no step, since the list of
the steps has no entry at its number. -/
theorem not_landed_noCommand :
    ∃ s ∈ exec (AgentRun.step twoTurnParams) (twoTurnParams.begin "l1")
        (judgedRun "I look first." "```bash\nls\n```"),
      s.phase = .returned ∧
      ¬∃ built, (s.runInfo twoTurnParams judgingAgent (fun _ => .returned [1]) 1).samples
          headerTemplate.tokenizer judgingArgs pendingSample = .ok built ∧
        Landed twoTurnParams judgingAgent headerTemplate judgingArgs s.trajectory
          (fun _ => .returned [1])
          (s.runInfo twoTurnParams judgingAgent (fun _ => .returned [1]) 1) built := by
  refine ⟨_, Option.get_mem (by decide +kernel), by decide +kernel, ?_⟩
  rintro ⟨built, -, h⟩
  obtain ⟨debug, -, -, hcurrent, -⟩ := h.shown
    ⟨1, [⟨1, "ls", 0, "a", 1, 1, some "ls"⟩], "```bash\nls\n```"⟩ (by decide +kernel)
  cases hcurrent

end Belayer.Agent
