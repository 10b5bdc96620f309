import Belayer.Agent.Rollback
import Mathlib.Data.List.GetD

namespace Belayer.Agent

open Belayer.Framework

variable {ε : Type*} {p : AgentParams} {s s' : AgentRun ε} {a : AgentAction ε}

/-- The loop has been left and the run may return. -/
def AgentPhase.hasEnded : AgentPhase → Bool
  | .diffing | .collecting | .returned => true
  | _ => false

/-- The model is asked, or about to be. -/
def AgentPhase.isAsking : AgentPhase → Bool
  | .top | .waiting _ _ | .checkpointing _ _ _ => true
  | _ => false

/-- The task of the judge for a recorded step. -/
def judgeTask (p : AgentParams) (t : Trajectory ε) (debug : StepDebug ε) : Option (PrmTask ε) :=
  if p.hasPrmAgent ∧ ¬(isSubmit debug.action ∧ p.skipSubmit) then
    some ⟨debug.stepIdx, t.stepDebug.filter (·.stepIdx ≤ debug.stepIdx),
      t.assistantTexts.getD debug.stepIdx ""⟩
  else none

/-- The tasks of the judge are those of the recorded steps, each with the steps up to its own. -/
structure Judged (p : AgentParams) (t : Trajectory ε) : Prop where
  tasks : t.prmPendingTasks = t.stepDebug.filterMap (judgeTask p t)
  dates : ∀ debug ∈ t.stepDebug, debug.stepIdx < t.assistantTexts.length

/-- What a step does to the trajectory. -/
inductive Moved (p : AgentParams) (s s' : AgentRun ε) : Prop
  | stayed (h : s'.trajectory = s.trajectory)
      (hs : s'.phase.hasEnded = true → s.phase.isAsking = true ∨ s.phase.hasEnded = true)
      (ho : s.phase.isOver = true → s'.phase.isOver = true)
  | replied (context : List Message) (text : String) (observation? : Option String)
      (h : s'.trajectory = (observation?.elim (s.trajectory.addReply context text)
        (s.trajectory.addReply context text).addObservation))
      (hs : s'.phase.hasEnded = false) (ho : s.phase.isOver = false)
  | recorded (attempt : Attempt) (returncode : Int) (output : String) (elapsed : ℚ)
      (effect? : Option ε) (hs : ∀ turns, Followed p s turns → InTurn p s attempt turns)
      (h : s' = s.recordStep p attempt returncode output elapsed effect?)
      (ho : s.phase.isOver = false)
  | trimmed (r : Nat) (h : s'.trajectory = s.trajectory.trim r) (hs : s'.phase.hasEnded = false)
      (ho : s.phase.isOver = false)

theorem trajectory_afterLoop : (s.afterLoop p).trajectory = s.trajectory := by
  unfold AgentRun.afterLoop AgentRun.finish
  split_ifs <;> rfl

theorem trajectory_finish : (s.finish p).trajectory = s.trajectory := by
  unfold AgentRun.finish
  split_ifs <;> rfl

/-- A turn that has its command is not over. -/
theorem not_isOver {attempt : Attempt}
    (hs : s.phase = .executing attempt ∨ s.phase = .rerunning attempt ∨
      s.phase = .closing attempt ∨ s.phase = .allocating attempt) : s.phase.isOver = false := by
  rcases hs with hs | hs | hs | hs <;> rw [hs] <;> rfl

theorem isOver_of_hasEnded {phase : AgentPhase} (h : phase.hasEnded = true) :
    phase.isOver = true := by
  cases phase <;> first | rfl | cases h

/-- The trajectory stays, and the loop goes on. -/
theorem Moved.kept (h : s'.trajectory = s.trajectory) (hs' : s'.phase.isOver = false)
    (hs : s.phase.isOver = false) : Moved p s s' := by
  refine .stayed h (fun hended => ?_) fun hover => ?_
  · rw [isOver_of_hasEnded hended] at hs'
    cases hs'
  · rw [hs] at hover
    cases hover

/-- The loop is left while the model is asked. -/
theorem Moved.left (h : s'.trajectory = s.trajectory) (hs : s.phase.isAsking = true)
    (hs' : s'.phase.isOver = true) : Moved p s s' :=
  .stayed h (fun _ => .inl hs) fun _ => hs'

theorem Moved.failed {attempt : Attempt} {failure : Failure} {effect? : Option ε}
    (hs : s.phase = .executing attempt ∨ s.phase = .rerunning attempt ∨
      s.phase = .closing attempt ∨ s.phase = .allocating attempt) :
    Moved p s (s.failStep p attempt failure effect?) :=
  .recorded attempt _ _ _ _ (fun _ hf => inTurn_of_followed hs hf) rfl (not_isOver hs)

theorem moved_takeReply (context : List Message) (text : String) (elapsed : ℚ)
    (hs : s.phase.isOver = false) : Moved p s (s.takeReply p context text elapsed) := by
  unfold AgentRun.takeReply
  cases p.parseBashAction text with
  | some command => exact .replied context text none rfl rfl hs
  | none => exact .replied context text (some _) rfl rfl hs

theorem moved_endExec {attempt : Attempt} {result : ExecResult ε}
    (hs : s.phase = .executing attempt) : Moved p s (s.endExec p attempt result) := by
  have hover := not_isOver (.inl hs)
  cases result with
  | returned returncode output elapsed effect =>
    exact .recorded attempt _ _ _ _ (fun _ hf => inTurn_of_followed (.inl hs) hf) rfl hover
  | raised failure effect => exact .failed (.inl hs)
  | faultInjected elapsed =>
    unfold AgentRun.endExec
    dsimp only
    split_ifs
    · cases s.checkpointState.latestReadyCheckpointId <;> exact .kept rfl rfl hover
    · exact .failed (.inl hs)

theorem moved_endRerun {attempt : Attempt} {result : Except Failure Bool}
    (hs : s.phase = .rerunning attempt) : Moved p s (s.endRerun p attempt result) := by
  have hover := not_isOver (.inr (.inl hs))
  cases result with
  | error failure => exact .failed (.inr (.inl hs))
  | ok hasRerun =>
    cases hasRerun with
    | false => exact .kept rfl rfl hover
    | true => exact .trimmed _ rfl rfl hover

theorem moved_endCheckpoint {context : List Message} {wait : LlmWait} {isAdaptive : Bool}
    {result : CheckpointResult} (hs : s.phase = .checkpointing context wait isAdaptive) :
    Moved p s (s.endCheckpoint p context wait isAdaptive result) := by
  have hover : s.phase.isOver = false := by
    rw [hs]
    rfl
  cases result with
  | created checkpointId stepIdx => exact .kept rfl rfl hover
  | busy => exact .kept rfl rfl hover
  | failed => exact .kept rfl rfl hover
  | raised error =>
    refine .left trajectory_afterLoop ?_ isOver_afterLoop
    rw [hs]
    rfl

/-- The patch is read off. -/
theorem moved_endDiff {result : Except String String} (hs : s.phase = .diffing) :
    Moved p s (s.endDiff p result) := by
  have hended : s.phase.hasEnded = true := by
    rw [hs]
    rfl
  cases result with
  | ok patch => exact .stayed trajectory_finish (fun _ => .inr hended) fun _ => isOver_finish
  | error error => exact .stayed trajectory_finish (fun _ => .inr hended) fun _ => isOver_finish

theorem moved_of_step (hr : Resumes s a) (h : s.step p a = some s') : Moved p s s' := by
  have hasking : ∀ {phase : AgentPhase}, s.phase = phase → phase.isAsking = true →
      s.phase.isAsking = true := fun hs hphase => hs ▸ hphase
  have hnot : ∀ {phase : AgentPhase}, s.phase = phase → phase.isOver = false →
      s.phase.isOver = false := fun hs hphase => hs ▸ hphase
  have hended : s.phase = .collecting → s.phase.hasEnded = true := fun hs => hs ▸ rfl
  cases AgentRun.stepped_of_step h with
  | left hs => exact .left trajectory_afterLoop (hasking hs rfl) isOver_afterLoop
  | asked hs => exact .kept rfl rfl (hnot hs rfl)
  | lapsed failure hs => exact .left rfl (hasking hs rfl) rfl
  | resumed hs => exact .kept rfl rfl (hnot hs rfl)
  | resumeFailed failure hs =>
    unfold Resumes at hr
    rw [hs] at hr
    cases hr
  | attemptedFixed hs => exact .kept rfl rfl (hnot hs rfl)
  | attemptedAdaptive hs => exact .kept rfl rfl (hnot hs rfl)
  | checkpointed result hs => exact moved_endCheckpoint hs
  | replied text elapsed hs => exact moved_takeReply _ _ _ (hnot hs rfl)
  | callFailed error elapsed hs =>
    exact .left trajectory_afterLoop (hasking hs rfl) isOver_afterLoop
  | executed result hs => exact moved_endExec hs
  | rerun result hs => exact moved_endRerun hs
  | closed hs => exact .kept rfl rfl (hnot hs rfl)
  | closeFailed failure hs => exact .failed (.inr (.inr (.inl hs)))
  | allocated leaseId hs => exact .trimmed 0 rfl rfl (hnot hs rfl)
  | allocateFailed failure hs => exact .failed (.inr (.inr (.inr hs)))
  | diffed result hs => exact moved_endDiff hs
  | collected hs => exact .stayed rfl (fun _ => .inr (hended hs)) fun _ => rfl
  | collectFailed error hs => exact .stayed rfl (fun _ => .inr (hended hs)) fun _ => rfl
  | cancelled => exact .stayed rfl (fun hover => by cases hover) fun _ => rfl

/-! The tasks of the judge -/

theorem Judged.congr {t t' : Trajectory ε} (h : Judged p t) (hsteps : t'.stepDebug = t.stepDebug)
    (htasks : t'.prmPendingTasks = t.prmPendingTasks)
    (htexts : t'.assistantTexts = t.assistantTexts) : Judged p t' := by
  refine ⟨?_, ?_⟩
  · rw [htasks, hsteps, h.tasks]
    unfold judgeTask
    rw [hsteps, htexts]
  · rw [hsteps, htexts]
    exact h.dates

theorem Judged.addReply {t : Trajectory ε} (h : Judged p t) (context : List Message)
    (text : String) : Judged p (t.addReply context text) := by
  unfold Trajectory.addReply
  refine ⟨?_, fun debug hdebug => ?_⟩
  · refine h.tasks.trans (List.filterMap_congr fun debug hdebug => ?_)
    unfold judgeTask
    dsimp only
    rw [List.getD_append _ _ _ _ (h.dates debug hdebug)]
  · rw [List.length_append]
    exact Nat.lt_add_right _ (h.dates debug hdebug)

/-- Steps before a place have their tasks before it. -/
theorem Judged.trim {t : Trajectory ε} (h : Judged p t) (r : Nat) : Judged p (t.trim r) := by
  unfold Trajectory.trim trimStepDebugForResume trimPendingPrmTasksForResume
  refine ⟨?_, fun debug hdebug => ?_⟩
  · dsimp only
    rw [h.tasks, List.filter_filterMap, List.filterMap_filter]
    refine List.filterMap_congr fun debug hdebug => ?_
    unfold judgeTask
    dsimp only
    by_cases hlt : debug.stepIdx < r
    · have hsteps : (t.stepDebug.filter (·.stepIdx < r)).filter (·.stepIdx ≤ debug.stepIdx) =
          t.stepDebug.filter (·.stepIdx ≤ debug.stepIdx) := by
        rw [List.filter_filter]
        refine List.filter_congr fun other _ => ?_
        by_cases hle : other.stepIdx ≤ debug.stepIdx
        · have hother : other.stepIdx < r := Nat.lt_of_le_of_lt hle hlt
          simp [hle, hother]
        · simp [hle]
      have htext : (t.assistantTexts.take r).getD debug.stepIdx "" =
          t.assistantTexts.getD debug.stepIdx "" := by
        rw [List.getD_eq_getElem?_getD, List.getD_eq_getElem?_getD, List.getElem?_take_of_lt hlt]
      rw [hsteps, htext]
      simp only [hlt, decide_true, if_true]
      split_ifs
      · rw [Option.filter_some, if_pos (decide_eq_true hlt)]
      · rfl
    · simp only [hlt, decide_false, Bool.false_eq_true, if_false]
      split_ifs
      · rw [Option.filter_some, if_neg (fun h => hlt (of_decide_eq_true h))]
      · rfl
  · obtain ⟨hmem, hlt⟩ := List.mem_filter.mp hdebug
    rw [decide_eq_true_iff] at hlt
    have hdate := h.dates debug hmem
    rw [List.length_take]
    omega

/-- What a recorded step adds. -/
theorem trajectory_recordStep (p : AgentParams) (s : AgentRun ε) (attempt : Attempt)
    (returncode : Int) (output : String) (elapsed : ℚ) (effect? : Option ε) :
    let debug : StepDebug ε :=
      ⟨s.stepIdx, attempt.command, returncode, output, elapsed, attempt.llmElapsed, effect?⟩
    let t := (s.recordStep p attempt returncode output elapsed effect?).trajectory
    t.stepDebug = s.trajectory.stepDebug ++ [debug] ∧
      t.prmPendingTasks = s.trajectory.prmPendingTasks ++
        (if p.hasPrmAgent ∧ ¬(isSubmit attempt.command ∧ p.skipSubmit) then
          some (⟨s.stepIdx, s.trajectory.stepDebug ++ [debug], attempt.text⟩ : PrmTask ε)
        else none).toList ∧
      t.assistantTexts = s.trajectory.assistantTexts ∧
      t.managedContexts = s.trajectory.managedContexts := by
  unfold AgentRun.recordStep
  dsimp only
  rw [ite_append_toList]
  generalize (if p.hasPrmAgent = true ∧ ¬(isSubmit attempt.command = true ∧ p.skipSubmit = true) then
    _ else _) = task?
  split_ifs
  · rw [trajectory_afterLoop]
    exact ⟨rfl, rfl, rfl, rfl⟩
  · exact ⟨rfl, rfl, rfl, rfl⟩

/-- In a turn there is one text more than turns, and the steps are of the turns. -/
theorem InTurn.views {attempt : Attempt} {turns : List (Turn ε)} (h : InTurn p s attempt turns) :
    s.trajectory.assistantTexts = turns.map Turn.text ++ [attempt.text] ∧
      s.trajectory.stepDebug = turns.filterMap Turn.debug? ∧
      ∀ debug ∈ s.trajectory.stepDebug, debug.stepIdx < s.stepIdx := by
  obtain ⟨context, ht⟩ := h.trajectory
  have hsteps : s.trajectory.stepDebug = turns.filterMap Turn.debug? := by
    rw [ht]
    rfl
  refine ⟨by rw [ht]; rfl, hsteps, fun debug hdebug => ?_⟩
  rw [hsteps] at hdebug
  have hdate := (h.kept.recorded.steps.bounds hdebug).2
  have hlength := h.kept.length
  omega

theorem Judged.recordStep (h : Judged p s.trajectory) {attempt : Attempt} {turns : List (Turn ε)}
    (hturn : InTurn p s attempt turns) (returncode : Int) (output : String) (elapsed : ℚ)
    (effect? : Option ε) :
    Judged p (s.recordStep p attempt returncode output elapsed effect?).trajectory := by
  obtain ⟨hsteps, htasks, htexts, -⟩ :=
    trajectory_recordStep p s attempt returncode output elapsed effect?
  obtain ⟨hviews, -, hdates⟩ := hturn.views
  have hlength : s.trajectory.assistantTexts.length = s.stepIdx + 1 := by
    rw [hviews, List.length_append, List.length_map, hturn.kept.length, List.length_singleton]
  have htext : s.trajectory.assistantTexts.getD s.stepIdx "" = attempt.text := by
    have hplace : s.stepIdx = (turns.map Turn.text).length := by
      rw [List.length_map, hturn.kept.length]
    rw [hviews, hplace, List.getD_append_right _ _ _ _ (Nat.le_refl _), Nat.sub_self]
    rfl
  refine ⟨?_, ?_⟩
  · rw [htasks, hsteps, List.filterMap_append, h.tasks]
    congr 1
    · refine List.filterMap_congr fun debug hdebug => ?_
      have hlt := hdates debug hdebug
      unfold judgeTask
      rw [htexts, hsteps, List.filter_append]
      simp [Nat.not_le.mpr hlt]
    · have hall : (s.trajectory.stepDebug.filter (·.stepIdx ≤ s.stepIdx)) =
          s.trajectory.stepDebug :=
        List.filter_eq_self.mpr fun debug hdebug =>
          decide_eq_true (Nat.le_of_lt (hdates debug hdebug))
      rw [List.filterMap_cons, List.filterMap_nil]
      unfold judgeTask
      dsimp only
      rw [htexts, hsteps, htext, List.filter_append, hall]
      split_ifs <;> simp
  · rw [hsteps, htexts, hlength]
    intro debug hdebug
    rcases List.mem_append.mp hdebug with hold | hnew
    · exact Nat.lt_succ_of_lt (hdates debug hold)
    · rw [List.mem_singleton.mp hnew]
      exact Nat.lt_succ_self _

theorem Judged.moved (h : Judged p s.trajectory) {turns : List (Turn ε)} (hf : Followed p s turns)
    (hm : Moved p s s') : Judged p s'.trajectory := by
  cases hm with
  | stayed ht hs ho =>
    rw [ht]
    exact h
  | replied context text observation? ht hs ho =>
    rw [ht]
    cases observation? with
    | none => exact h.addReply context text
    | some observation => exact (h.addReply context text).congr rfl rfl rfl
  | recorded attempt returncode output elapsed effect? hs ht ho =>
    rw [ht]
    exact h.recordStep (hs turns hf) returncode output elapsed effect?
  | trimmed r ht hs ho =>
    rw [ht]
    exact h.trim r

/-! The step that hands in the result -/

/-- No step but the last one hands in the result, and while the loop goes on none does. -/
structure Submitted (s : AgentRun ε) : Prop where
  earlier : ∀ debug ∈ s.trajectory.stepDebug.dropLast, isSubmit debug.action = false
  running : s.phase.isOver = false →
    ∀ debug ∈ s.trajectory.stepDebug, isSubmit debug.action = false

/-- While the loop goes on, the steps do not hand in the result. -/
theorem Submitted.of_subset (h : Submitted s) (hs : s.phase.isOver = false)
    (hsub : s'.trajectory.stepDebug ⊆ s.trajectory.stepDebug) : Submitted s' where
  earlier := fun debug hdebug => h.running hs debug (hsub (List.dropLast_subset _ hdebug))
  running := fun _ debug hdebug => h.running hs debug (hsub hdebug)

theorem phase_recordStep (p : AgentParams) (s : AgentRun ε) (attempt : Attempt)
    (returncode : Int) (output : String) (elapsed : ℚ) (effect? : Option ε) :
    (s.recordStep p attempt returncode output elapsed effect?).phase.isOver =
      isSubmit attempt.command := by
  unfold AgentRun.recordStep
  dsimp only
  by_cases hsubmit : isSubmit attempt.command = true
  · rw [if_pos hsubmit, isOver_afterLoop, hsubmit]
  · rw [if_neg hsubmit, Bool.eq_false_of_not_eq_true hsubmit]
    rfl

theorem Submitted.moved (h : Submitted s) (hm : Moved p s s') : Submitted s' := by
  cases hm with
  | stayed ht hs ho =>
    refine ⟨?_, fun hs' => ?_⟩
    · rw [ht]
      exact h.earlier
    · rw [ht]
      refine h.running (Bool.eq_false_of_not_eq_true fun hover => ?_)
      rw [ho hover] at hs'
      cases hs'
  | replied context text observation? ht hs ho =>
    refine h.of_subset ho ?_
    rw [ht]
    cases observation? <;> exact List.Subset.refl _
  | recorded attempt returncode output elapsed effect? hs ht ho =>
    subst ht
    have hsteps := (trajectory_recordStep p s attempt returncode output elapsed effect?).1
    refine ⟨fun debug hdebug => ?_, fun hover debug hdebug => ?_⟩
    · rw [hsteps, List.dropLast_concat] at hdebug
      exact h.running ho debug hdebug
    · rw [hsteps] at hdebug
      rcases List.mem_append.mp hdebug with hold | hnew
      · exact h.running ho debug hold
      · rw [List.mem_singleton.mp hnew]
        exact (phase_recordStep p s attempt returncode output elapsed effect?).symm.trans hover
  | trimmed r ht hs ho =>
    refine h.of_subset ho ?_
    rw [ht]
    exact List.filter_sublist.subset

/-! The end of a run -/

/-- The trajectory is that of its turns; the last one may lack its observation. -/
def Ended (p : AgentParams) (t : Trajectory ε) : Prop :=
  ∃ turns : List (Turn ε), Recorded p turns ∧
    (t = trajectoryOf p turns ∨ ∃ before last, turns = before ++ [last] ∧
      t = { trajectoryOf p turns with
        messages := (trajectoryOf p before).messages ++ [⟨.assistant, last.text⟩] })

/-- The last turn hands in the result. -/
theorem ended_recordStep {attempt : Attempt} {turns : List (Turn ε)}
    (hturn : InTurn p s attempt turns) (returncode : Int) (output : String) (elapsed : ℚ)
    (effect? : Option ε)
    (h : (s.recordStep p attempt returncode output elapsed effect?).phase.hasEnded = true) :
    Ended p (s.recordStep p attempt returncode output elapsed effect?).trajectory := by
  obtain ⟨hk, hcommand, context, ht⟩ := hturn
  unfold AgentRun.recordStep at h ⊢
  dsimp only at h ⊢
  rw [ite_append_toList] at h ⊢
  generalize hdebug : (⟨s.stepIdx, attempt.command, returncode, output, elapsed,
    attempt.llmElapsed, effect?⟩ : StepDebug ε) = debug at h ⊢
  generalize htask : (if p.hasPrmAgent = true ∧
      ¬(isSubmit attempt.command = true ∧ p.skipSubmit = true) then
    some (⟨s.stepIdx, s.trajectory.stepDebug ++ [debug], attempt.text⟩ : PrmTask ε) else none) =
      task? at h ⊢
  by_cases hsubmit : isSubmit attempt.command = true
  · rw [if_pos hsubmit, trajectory_afterLoop]
    refine ⟨turns ++ [⟨context, attempt.text, "", some debug, task?⟩], ?_, .inr ⟨turns, _, rfl, ?_⟩⟩
    · refine hk.recorded.append ?_ ?_ ?_
      · intro d hd
        rw [← Option.some.inj hd, ← hdebug, hk.length]
      · intro task hmem
        rw [← htask] at hmem
        split_ifs at hmem
        · rw [← Option.some.inj hmem, hk.length]
        · cases hmem
      · rw [hcommand, ← hdebug]
        rfl
    · rw [trajectoryOf_append]
      dsimp only
      rw [ht]
      rfl
  · rw [if_neg hsubmit] at h
    cases h

theorem trajectory_of_isAsking {turns : List (Turn ε)} (hf : Followed p s turns)
    (h : s.phase.isAsking = true) : Recorded p turns ∧ s.trajectory = trajectoryOf p turns := by
  unfold Followed at hf
  cases hs : s.phase with
  | top =>
    rw [hs] at hf
    exact ⟨hf.1.recorded, hf.2⟩
  | waiting | checkpointing =>
    rw [hs] at hf
    exact ⟨hf.1.recorded, hf.2.1⟩
  | executing | rerunning | closing | allocating | recovered | diffing | collecting | returned
  | raised | cancelled =>
    rw [hs] at h
    cases h

theorem Ended.moved (h : s.phase.hasEnded = true → Ended p s.trajectory) {turns : List (Turn ε)}
    (hf : Followed p s turns) (hm : Moved p s s') (hs' : s'.phase.hasEnded = true) :
    Ended p s'.trajectory := by
  cases hm with
  | stayed ht hs ho =>
    rw [ht]
    rcases hs hs' with hasking | hended
    · obtain ⟨hrecorded, htrajectory⟩ := trajectory_of_isAsking hf hasking
      exact ⟨turns, hrecorded, .inl htrajectory⟩
    · exact h hended
  | replied context text observation? ht hs ho =>
    rw [hs] at hs'
    cases hs'
  | recorded attempt returncode output elapsed effect? hs ht ho =>
    rw [ht] at hs' ⊢
    exact ended_recordStep (hs turns hf) returncode output elapsed effect? hs'
  | trimmed r ht hs ho =>
    rw [hs] at hs'
    cases hs'

/-- In a run whose heartbeats after a recovery succeed, the judge is asked about the turns, and at
the end the trajectory is that of the turns. -/
theorem judged_of_run {leaseId : String} {run : List (AgentAction ε)}
    (h : Meets (AgentRun.step p) Resumes (p.begin leaseId) run)
    (hs : exec (AgentRun.step p) (p.begin leaseId) run = some s) :
    Judged p s.trajectory ∧ Submitted s ∧ (s.phase.hasEnded = true → Ended p s.trajectory) := by
  have hinvariant : Along (AgentRun.step p) (fun s => (∃ turns, Followed p s turns) ∧
      Judged p s.trajectory ∧ Submitted s ∧ (s.phase.hasEnded = true → Ended p s.trajectory))
      (p.begin leaseId) run := by
    refine along_of_meets (fun s a s' hi hr hstep => ?_) ?_ h
    · obtain ⟨⟨turns, hf⟩, hj, hu, he⟩ := hi
      have hm := moved_of_step hr hstep
      obtain ⟨turns', hf', -⟩ := followed_step hf hr hstep
      exact ⟨⟨turns', hf'⟩, hj.moved hf hm, hu.moved hm, Ended.moved he hf hm⟩
    · have hnone : ∀ debug ∈ ([] : List (StepDebug ε)), isSubmit debug.action = false :=
        fun debug hdebug => absurd hdebug List.not_mem_nil
      refine ⟨⟨[], ⟨⟨recorded_nil, rfl, rfl, le_rfl, rfl⟩, rfl⟩⟩, ⟨rfl, ?_⟩,
        ⟨hnone, fun _ => hnone⟩, fun h => by cases h⟩
      exact fun debug hdebug => absurd hdebug List.not_mem_nil
  exact (hinvariant.last hs).2

end Belayer.Agent
