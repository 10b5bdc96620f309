import Belayer.Policy.FaultReplay
import Mathlib.Algebra.Order.Archimedean.Basic
import Mathlib.Algebra.Order.Floor.Semiring
import Mathlib.Data.Finset.Card
import Mathlib.Data.Rat.Floor

namespace Belayer.Policy

open Belayer.Framework

/-- A container holds what the first `n` steps do, and the costs are theirs. -/
structure Holds (steps : List ReplayStep) (n : Nat) (container : List Executed)
    (envCostSec llmCostSec : ℚ) : Prop where
  actions : container.map (·.action) = (steps.take n).map (·.action)
  env : envCostSec = (container.map (·.elapsed)).sum
  llm : llmCostSec = ((steps.take n).map (·.llmElapsed)).sum

/-- The container holds the first `n` steps, and the latest ready checkpoint those below its resume
index. -/
structure OnTimeline (steps : List ReplayStep) (n : Nat) (r : Replay) : Prop where
  le : n ≤ steps.length
  container : Holds steps n r.container r.cumulativeEnvReplayCostSec r.cumulativeLlmReplayCostSec
  resume : r.latestReady.resumeStepIdx ≤ n
  saved : ∀ checkpointId ∈ r.latestReady.checkpointId, ∃ saved,
    r.checkpoints[checkpointId]? = some saved ∧ Holds steps r.latestReady.resumeStepIdx saved
      r.latestReady.protectedEnvCostSec r.latestReady.protectedLlmCostSec

/-- The injections that are still pending are ahead, and each of the others has been triggered
once. -/
structure Injects (plan : Finset Nat) (r : Replay) : Prop where
  ahead : ∀ i ∈ r.pendingInjectionSteps, r.currentStepIdx ≤ i
  apart : ∀ i ∈ r.pendingInjectionSteps, i ∉ r.failureEvents.map (·.injectBeforeStepIdx)
  nodup : (r.failureEvents.map (·.injectBeforeStepIdx)).Nodup
  mem_iff : ∀ i, i ∈ plan ↔
    i ∈ r.pendingInjectionSteps ∨ i ∈ r.failureEvents.map (·.injectBeforeStepIdx)

/-- The loop is at the same step, with the same plan. -/
structure SamePlace (r r' : Replay) : Prop where
  currentStepIdx : r'.currentStepIdx = r.currentStepIdx
  pendingInjectionSteps : r'.pendingInjectionSteps = r.pendingInjectionSteps
  failureEvents : r'.failureEvents = r.failureEvents

/-! Checkpoints -/

section Checkpoints

variable {steps : List ReplayStep} {n : Nat} {r r' r'' : Replay}

theorem SamePlace.refl (r : Replay) : SamePlace r r := ⟨rfl, rfl, rfl⟩

theorem SamePlace.trans (h : SamePlace r r') (h' : SamePlace r' r'') : SamePlace r r'' :=
  ⟨h'.currentStepIdx.trans h.currentStepIdx,
    h'.pendingInjectionSteps.trans h.pendingInjectionSteps,
    h'.failureEvents.trans h.failureEvents⟩

/-- Either the latest checkpoint stays, or the candidate takes its place. -/
theorem promoteLatestReadyCheckpoint_cases (latestReady : LatestReady) (checkpointId : Nat)
    (stepIdx : Int) (resumeStepIdx : Nat) (readyAt env llm : ℚ) :
    (promoteLatestReadyCheckpoint latestReady checkpointId stepIdx resumeStepIdx readyAt env
        llm).1 = latestReady ∨
      (promoteLatestReadyCheckpoint latestReady checkpointId stepIdx resumeStepIdx readyAt env
        llm).1 = ⟨checkpointId, stepIdx, resumeStepIdx, env, llm⟩ := by
  unfold promoteLatestReadyCheckpoint
  dsimp only
  generalize (if latestReady.checkpointId.isNone = true then (-1 : ℚ) else readyAt) = bestReadyAt
  split_ifs
  · exact .inl rfl
  · exact .inr rfl

theorem samePlace_attemptCheckpoint (answers : ReplayAnswers) (r : Replay) (stepIdx : Int)
    (resumeStepIdx : Nat) : SamePlace r (r.attemptCheckpoint answers stepIdx resumeStepIdx) := by
  unfold Replay.attemptCheckpoint
  dsimp only
  split <;> exact ⟨rfl, rfl, rfl⟩

/-- A new checkpoint leaves the saved ones in their places. -/
theorem OnTimeline.attemptCheckpoint (h : OnTimeline steps n r) (answers : ReplayAnswers)
    (stepIdx : Int) : OnTimeline steps n (r.attemptCheckpoint answers stepIdx n) := by
  obtain ⟨hle, hcontainer, hresume, hsaved⟩ := h
  unfold Replay.attemptCheckpoint
  dsimp only
  split
  · exact ⟨hle, hcontainer, hresume, hsaved⟩
  · rename_i created hcreated
    rcases promoteLatestReadyCheckpoint_cases r.latestReady r.checkpoints.length
      (created.stepIdx.getD stepIdx) n
      (if created.readyAt.getD created.now = 0 then created.now
        else created.readyAt.getD created.now)
      r.cumulativeEnvReplayCostSec r.cumulativeLlmReplayCostSec with hkept | hpromoted
    · refine ⟨hle, hcontainer, ?_, ?_⟩
      · dsimp only
        rw [hkept]
        exact hresume
      · dsimp only
        rw [hkept]
        intro checkpointId hid
        obtain ⟨saved, hget, hholds⟩ := hsaved checkpointId hid
        refine ⟨saved, ?_, hholds⟩
        rw [List.getElem?_append_left (List.getElem?_eq_some_iff.mp hget).1]
        exact hget
    · refine ⟨hle, hcontainer, ?_, ?_⟩
      · dsimp only
        rw [hpromoted]
      · dsimp only
        rw [hpromoted]
        intro checkpointId hid
        cases hid
        exact ⟨r.container, List.getElem?_concat_length, hcontainer⟩

end Checkpoints

/-! The wait -/

section Wait

variable {steps : List ReplayStep} {args : ReplayArgs} {answers : ReplayAnswers} {r : Replay}
  {b : LlmBubble} {llmDelay : ℚ}

theorem recordLlmWaitCredit_nonneg (elapsedSec availableSec : ℚ) :
    0 ≤ recordLlmWaitCredit elapsedSec availableSec :=
  le_min (le_max_left 0 availableSec) (le_max_left 0 elapsedSec)

/-- A round waits for the interval at least, or to the end. -/
theorem le_waitedInLlmSec_sleep (hinterval : 0 < args.adaptiveDecisionIntervalSec) :
    min llmDelay (b.waitedInLlmSec + args.adaptiveDecisionIntervalSec) ≤
      (b.sleep args llmDelay).waitedInLlmSec := by
  unfold LlmBubble.sleep
  dsimp only
  split_ifs with hchunk
  · dsimp only
    rcases min_choice args.adaptiveDecisionIntervalSec (llmDelay - b.waitedInLlmSec) with hmin | hmin
    · rw [hmin]
      exact min_le_right _ _
    · rw [hmin, add_sub_cancel]
      exact min_le_left _ _
  · have hrest : llmDelay - b.waitedInLlmSec ≤ 0 := by
      rcases lt_or_ge 0 (llmDelay - b.waitedInLlmSec) with hpos | hle
      · exact absurd (lt_min hinterval hpos) hchunk
      · exact hle
    exact (min_le_left _ _).trans (sub_nonpos.mp hrest)

theorem replay_sleep (b : LlmBubble) (args : ReplayArgs) (llmDelay : ℚ) :
    (b.sleep args llmDelay).replay = b.replay := by
  unfold LlmBubble.sleep
  dsimp only
  split_ifs <;> rfl

theorem waitedInLlmSec_le_probe (b : LlmBubble) (answers : ReplayAnswers) (llmDelay : ℚ) :
    b.waitedInLlmSec ≤ (b.probe answers llmDelay).waitedInLlmSec :=
  le_add_of_nonneg_right (recordLlmWaitCredit_nonneg _ _)

/-- A round of the wait may save a checkpoint, and nothing else. -/
theorem round_bubble (tailModel : AdaptiveTailModel ℚ) (redo : ℚ) (stepsSince : Int)
    (hinterval : 0 < args.adaptiveDecisionIntervalSec)
    (h : OnTimeline steps b.replay.currentStepIdx b.replay) :
    OnTimeline steps b.replay.currentStepIdx
        (b.round args answers tailModel llmDelay redo stepsSince).replay ∧
      SamePlace b.replay (b.round args answers tailModel llmDelay redo stepsSince).replay ∧
      min llmDelay (b.waitedInLlmSec + args.adaptiveDecisionIntervalSec) ≤
        (b.round args answers tailModel llmDelay redo stepsSince).waitedInLlmSec := by
  unfold LlmBubble.round
  dsimp only
  split_ifs
  · rw [replay_sleep]
    refine ⟨h.attemptCheckpoint answers _, samePlace_attemptCheckpoint _ _ _ _, ?_⟩
    have hwaited := waitedInLlmSec_le_probe b answers llmDelay
    exact (min_le_min_left llmDelay (by linarith)).trans (le_waitedInLlmSec_sleep hinterval)
  · rw [replay_sleep]
    exact ⟨h, .refl _, le_waitedInLlmSec_sleep hinterval⟩

/-- The number of intervals that are left goes down. -/
theorem ceil_left_lt {waited waited' delay interval : ℚ} (hinterval : 0 < interval)
    (hless : waited < delay) (hround : min delay (waited + interval) ≤ waited') :
    ⌈(delay - waited') / interval⌉₊ < ⌈(delay - waited) / interval⌉₊ := by
  rw [Nat.lt_ceil]
  rcases le_or_gt delay waited' with hend | hmore
  · have hnone : (delay - waited') / interval ≤ 0 :=
      div_nonpos_of_nonpos_of_nonneg (sub_nonpos.mpr hend) hinterval.le
    rw [Nat.ceil_eq_zero.mpr hnone, Nat.cast_zero]
    exact div_pos (sub_pos.mpr hless) hinterval
  · have hfar : waited + interval ≤ waited' := by
      rcases min_le_iff.mp hround with hle | hle
      · exact absurd hle (not_le.mpr hmore)
      · exact hle
    have hpos : 0 ≤ (delay - waited') / interval :=
      div_nonneg (sub_nonneg.mpr hmore.le) hinterval.le
    have hsplit : (delay - waited) / interval =
        (delay - (waited + interval)) / interval + 1 := by
      field_simp
      ring
    have hmono : (delay - waited') / interval ≤ (delay - (waited + interval)) / interval :=
      div_le_div_of_nonneg_right (by linarith) hinterval.le
    have hceil := Nat.ceil_lt_add_one hpos
    linarith

/-- The rounds of the wait end, at the same step. -/
theorem wait_bubble (tailModel : AdaptiveTailModel ℚ) (redo : ℚ) (stepsSince : Int)
    (hinterval : 0 < args.adaptiveDecisionIntervalSec)
    (h : OnTimeline steps b.replay.currentStepIdx b.replay) {fuel : Nat}
    (hfuel : ⌈(llmDelay - b.waitedInLlmSec) / args.adaptiveDecisionIntervalSec⌉₊ < fuel) :
    ∃ b', b.wait args answers tailModel llmDelay redo stepsSince fuel = some b' ∧
      OnTimeline steps b.replay.currentStepIdx b'.replay ∧ SamePlace b.replay b'.replay := by
  let stays : LlmBubble → Prop := fun b' =>
    OnTimeline steps b.replay.currentStepIdx b'.replay ∧ SamePlace b.replay b'.replay
  let intervalsLeft : LlmBubble → Nat := fun b' =>
    ⌈(llmDelay - b'.waitedInLlmSec) / args.adaptiveDecisionIntervalSec⌉₊
  have hround : ∀ b', stays b' → b'.waitedInLlmSec < llmDelay →
      ∃ b'', some (b'.round args answers tailModel llmDelay redo stepsSince) = some b'' ∧
        stays b'' ∧ intervalsLeft b'' < intervalsLeft b' := by
    rintro b' ⟨htimeline, hplace⟩ hless
    rw [← hplace.currentStepIdx] at htimeline
    obtain ⟨hafter, hsame, hwaited⟩ := round_bubble tailModel redo stepsSince hinterval htimeline
    rw [hplace.currentStepIdx] at hafter
    exact ⟨_, rfl, ⟨hafter, hplace.trans hsame⟩, ceil_left_lt hinterval hless hwaited⟩
  obtain ⟨tops, b', hloop, -, hstays, -⟩ :=
    whileLoop_total stays intervalsLeft hround ⟨h, .refl _⟩ hfuel
  refine ⟨b', ?_, hstays⟩
  rw [LlmBubble.wait, hloop]
  rfl

/-- The wait ends, at the same step. -/
theorem waitForLlm_spec (answers : ReplayAnswers)
    (hinterval : 0 < args.adaptiveDecisionIntervalSec)
    (h : OnTimeline steps r.currentStepIdx r) {fuel : Nat}
    (hfuel : ⌈llmDelay / args.adaptiveDecisionIntervalSec⌉₊ < fuel) :
    ∃ r', r.waitForLlm args answers fuel llmDelay = some r' ∧
      OnTimeline steps r.currentStepIdx r' ∧ SamePlace r r' := by
  unfold Replay.waitForLlm
  dsimp only
  split
  · exact ⟨_, rfl, ⟨h.le, h.container, h.resume, h.saved⟩, ⟨rfl, rfl, rfl⟩⟩
  · rename_i tailModel hmodel
    generalize hprepaid : min llmDelay
      (max 0 ((r.llmWaitCreditByStep.lookup r.currentStepIdx).getD 0)) = prepaid
    have hleft : ⌈(llmDelay - prepaid) / args.adaptiveDecisionIntervalSec⌉₊ < fuel := by
      refine lt_of_le_of_lt ?_ hfuel
      rw [← hprepaid]
      rcases min_choice llmDelay
        (max 0 ((r.llmWaitCreditByStep.lookup r.currentStepIdx).getD 0)) with hmin | hmin
      · rw [hmin, sub_self, zero_div, Nat.ceil_zero]
        exact Nat.zero_le _
      · rw [hmin]
        refine Nat.ceil_le_ceil (div_le_div_of_nonneg_right ?_ hinterval.le)
        have hcredit := le_max_left 0 ((r.llmWaitCreditByStep.lookup r.currentStepIdx).getD 0)
        linarith
    let popped : Replay :=
      { r with llmWaitCreditByStep := AList.erase r.currentStepIdx r.llmWaitCreditByStep }
    have hpopped : OnTimeline steps r.currentStepIdx popped :=
      ⟨h.le, h.container, h.resume, h.saved⟩
    obtain ⟨b', hwait, htimeline, hplace⟩ := wait_bubble
      (b := ⟨popped, prepaid, false, false⟩) tailModel _ _ hinterval hpopped hleft
    refine ⟨b'.replay, ?_, htimeline, ?_⟩
    · rw [hwait]
      rfl
    · exact ⟨hplace.currentStepIdx, hplace.pendingInjectionSteps, hplace.failureEvents⟩

end Wait

/-! The rounds of the loop -/

section Rounds

variable {steps : List ReplayStep} {args : ReplayArgs} {answers : ReplayAnswers} {n : Nat}
  {r r' : Replay} {step : ReplayStep} {plan : Finset Nat}

theorem Holds.start (steps : List ReplayStep) : Holds steps 0 [] 0 0 := ⟨rfl, rfl, rfl⟩

/-- The container after one more step. -/
theorem Holds.exec {container : List Executed} {env llm : ℚ} (h : Holds steps n container env llm)
    (hstep : steps[n]? = some step) (elapsed : ℚ) :
    Holds steps (n + 1) (container ++ [⟨step.action, elapsed⟩]) (env + elapsed)
      (llm + step.llmElapsed) := by
  have htake : steps.take (n + 1) = steps.take n ++ [step] := by
    rw [List.take_add_one, hstep]
    rfl
  refine ⟨?_, ?_, ?_⟩
  · rw [List.map_append, h.actions, htake, List.map_append]
    rfl
  · rw [h.env, List.map_append, List.sum_append]
    simp
  · rw [h.llm, htake, List.map_append, List.sum_append]
    simp

theorem OnTimeline.exec (h : OnTimeline steps n r) (hstep : steps[n]? = some step) :
    OnTimeline steps (n + 1) (r.exec answers step) :=
  ⟨(List.getElem?_eq_some_iff.mp hstep).1, h.container.exec hstep _, h.resume.trans (Nat.le_succ n),
    h.saved⟩

theorem OnTimeline.checkpointAfterStep (h : OnTimeline steps (r.currentStepIdx + 1) r) :
    OnTimeline steps (r.currentStepIdx + 1) (r.checkpointAfterStep args steps answers) := by
  have hattempt := h.attemptCheckpoint answers (r.currentStepIdx : Int)
  unfold Replay.checkpointAfterStep
  dsimp only
  split_ifs
  all_goals exact ⟨hattempt.le, hattempt.container, hattempt.resume, hattempt.saved⟩

theorem samePlace_checkpointAfterStep (args : ReplayArgs) (steps : List ReplayStep)
    (answers : ReplayAnswers) (r : Replay) :
    SamePlace r (r.checkpointAfterStep args steps answers) := by
  have hattempt := samePlace_attemptCheckpoint answers r r.currentStepIdx (r.currentStepIdx + 1)
  obtain ⟨hstep, hpending, hevents⟩ := hattempt
  unfold Replay.checkpointAfterStep
  dsimp only
  split_ifs
  all_goals exact ⟨hstep, hpending, hevents⟩

/-- What a step does to the timeline and to the place in it. -/
theorem execute_spec (args : ReplayArgs) (answers : ReplayAnswers)
    (h : OnTimeline steps r.currentStepIdx r)
    (hstep : steps[r.currentStepIdx]? = some step) :
    OnTimeline steps (r.currentStepIdx + 1) (r.execute args steps answers step) ∧
      (r.execute args steps answers step).currentStepIdx = r.currentStepIdx + 1 ∧
      (r.execute args steps answers step).pendingInjectionSteps = r.pendingInjectionSteps ∧
      (r.execute args steps answers step).failureEvents = r.failureEvents := by
  have hexec : OnTimeline steps (r.currentStepIdx + 1) (r.exec answers step) := h.exec hstep
  unfold Replay.execute
  dsimp only
  split_ifs
  · have hcheckpoint : OnTimeline steps (r.currentStepIdx + 1)
        ((r.exec answers step).checkpointAfterStep args steps answers) :=
      OnTimeline.checkpointAfterStep (r := r.exec answers step) hexec
    obtain ⟨hindex, hpending, hevents⟩ :=
      samePlace_checkpointAfterStep args steps answers (r.exec answers step)
    refine ⟨⟨hcheckpoint.le, hcheckpoint.container, hcheckpoint.resume, hcheckpoint.saved⟩, ?_,
      hpending, hevents⟩
    exact congrArg (· + 1) hindex
  · exact ⟨⟨hexec.le, hexec.container, hexec.resume, hexec.saved⟩, rfl, rfl, rfl⟩

/-- A failure brings the loop back to the latest checkpoint, or to the start. -/
theorem recover_spec (h : OnTimeline steps r.currentStepIdx r) (policy : ReplayPolicy) :
    OnTimeline steps (r.recover policy).currentStepIdx (r.recover policy) ∧
      (r.recover policy).currentStepIdx ≤ r.currentStepIdx ∧
      (r.recover policy).pendingInjectionSteps =
        r.pendingInjectionSteps.erase r.currentStepIdx ∧
      (r.recover policy).failureEvents.map (·.injectBeforeStepIdx) =
        r.failureEvents.map (·.injectBeforeStepIdx) ++ [r.currentStepIdx] := by
  unfold Replay.recover
  dsimp only
  split
  · rename_i checkpointId hid
    obtain ⟨saved, hget, hholds⟩ := h.saved checkpointId hid
    refine ⟨⟨h.resume.trans h.le, ?_, le_rfl, h.saved⟩, h.resume, rfl, ?_⟩
    · dsimp only
      rw [hget]
      exact hholds
    · simp
  · refine ⟨⟨Nat.zero_le _, .start steps, le_rfl, ?_⟩, Nat.zero_le _, rfl, ?_⟩
    · intro checkpointId hid
      cases hid
    · simp

theorem Injects.execute (h : Injects plan r) (hnot : r.currentStepIdx ∉ r.pendingInjectionSteps)
    (hindex : r'.currentStepIdx = r.currentStepIdx + 1)
    (hpending : r'.pendingInjectionSteps = r.pendingInjectionSteps)
    (hevents : r'.failureEvents = r.failureEvents) : Injects plan r' := by
  refine ⟨?_, ?_, ?_, ?_⟩
  · intro i hi
    rw [hpending] at hi
    have hle := h.ahead i hi
    have hne : i ≠ r.currentStepIdx := by
      rintro rfl
      exact hnot hi
    omega
  · rw [hpending, hevents]
    exact h.apart
  · rw [hevents]
    exact h.nodup
  · rw [hpending, hevents]
    exact h.mem_iff

theorem Injects.recover (h : Injects plan r) (hmem : r.currentStepIdx ∈ r.pendingInjectionSteps)
    (hindex : r'.currentStepIdx ≤ r.currentStepIdx)
    (hpending : r'.pendingInjectionSteps = r.pendingInjectionSteps.erase r.currentStepIdx)
    (hevents : r'.failureEvents.map (·.injectBeforeStepIdx) =
      r.failureEvents.map (·.injectBeforeStepIdx) ++ [r.currentStepIdx]) : Injects plan r' := by
  have hfresh := h.apart r.currentStepIdx hmem
  refine ⟨?_, ?_, ?_, ?_⟩
  · intro i hi
    rw [hpending] at hi
    exact hindex.trans (h.ahead i (Finset.mem_of_mem_erase hi))
  · intro i hi
    rw [hpending, Finset.mem_erase] at hi
    rw [hevents, List.mem_append, List.mem_singleton, not_or]
    exact ⟨h.apart i hi.2, hi.1⟩
  · rw [hevents, List.nodup_append]
    refine ⟨h.nodup, List.nodup_singleton _, ?_⟩
    intro i hi j hj
    rw [List.mem_singleton.mp hj]
    rintro rfl
    exact hfresh hi
  · intro i
    rw [hpending, hevents, List.mem_append, List.mem_singleton, Finset.mem_erase, h.mem_iff i]
    by_cases hi : i = r.currentStepIdx
    · subst hi
      simp [hmem]
    · simp [hi]

/-- How far the loop is from its end: an injection may bring it back to the start. -/
def roundsLeft (steps : List ReplayStep) (r : Replay) : Nat :=
  r.pendingInjectionSteps.card * (steps.length + 1) + (steps.length - r.currentStepIdx)

/-- A round goes on by a step, or triggers the injection before it. -/
theorem round_spec (answers : ReplayAnswers) (hinterval : 0 < args.adaptiveDecisionIntervalSec) {fuel : Nat}
    (hfuel : ∀ step ∈ steps, ⌈step.llmElapsed / args.adaptiveDecisionIntervalSec⌉₊ < fuel)
    (h : OnTimeline steps r.currentStepIdx r) (hi : Injects plan r)
    (hless : r.currentStepIdx < steps.length) :
    ∃ r', r.round args steps answers fuel = some r' ∧
      (OnTimeline steps r'.currentStepIdx r' ∧ Injects plan r') ∧
      roundsLeft steps r' < roundsLeft steps r := by
  have hstep : steps[r.currentStepIdx]? = some steps[r.currentStepIdx] :=
    List.getElem?_eq_getElem hless
  generalize steps[r.currentStepIdx] = step at hstep
  have hdelay : ⌈(if args.simulateLlmDelay = true then step.llmElapsed else 0) /
      args.adaptiveDecisionIntervalSec⌉₊ < fuel := by
    have hlast := hfuel step (List.mem_of_getElem? hstep)
    split_ifs
    · exact hlast
    · rw [zero_div, Nat.ceil_zero]
      exact (Nat.zero_le _).trans_lt hlast
  obtain ⟨w, hwait, htimeline, hindex, hpending, hevents⟩ :=
    waitForLlm_spec answers hinterval h hdelay
  rw [← hindex] at htimeline hstep hless
  have hplan : Injects plan w := by
    refine ⟨?_, ?_, ?_, ?_⟩
    · rw [hpending, hindex]
      exact hi.ahead
    · rw [hpending, hevents]
      exact hi.apart
    · rw [hevents]
      exact hi.nodup
    · rw [hpending, hevents]
      exact hi.mem_iff
  have hleft : roundsLeft steps w = roundsLeft steps r := by
    rw [roundsLeft, hpending, hindex]
    rfl
  have hround : r.round args steps answers fuel =
      some (if w.currentStepIdx ∈ w.pendingInjectionSteps then w.recover args.policy
        else w.execute args steps answers step) := by
    rw [Replay.round, ← hindex, hstep, Option.bind_some, hwait]
    rfl
  rw [hround, ← hleft]
  by_cases hmem : w.currentStepIdx ∈ w.pendingInjectionSteps
  · obtain ⟨hafter, hback, hpending', hevents'⟩ := recover_spec htimeline args.policy
    refine ⟨_, rfl, ?_⟩
    rw [if_pos hmem]
    refine ⟨⟨hafter, hplan.recover hmem hback hpending' hevents'⟩, ?_⟩
    have hcard := Finset.card_erase_add_one hmem
    rw [roundsLeft, roundsLeft, hpending', ← hcard, Nat.add_mul]
    omega
  · obtain ⟨hafter, hindex', hpending', hevents'⟩ :=
      execute_spec args answers htimeline hstep
    refine ⟨_, rfl, ?_⟩
    rw [if_neg hmem]
    refine ⟨⟨hindex'.symm ▸ hafter, hplan.execute hmem hindex' hpending' hevents'⟩, ?_⟩
    rw [roundsLeft, roundsLeft, hpending', hindex']
    omega

end Rounds

/-- The rounds of a whole replay: every state is on the timeline, and every planned injection has
been triggered once. -/
structure Faithful (steps : List ReplayStep) (plan : Finset Nat) (tops : List Replay)
    (last : Replay) : Prop where
  timeline : ∀ r ∈ tops ++ [last], OnTimeline steps r.currentStepIdx r
  finished : last.currentStepIdx = steps.length
  noneLeft : last.pendingInjectionSteps = ∅
  once : (last.failureEvents.map (·.injectBeforeStepIdx)).Nodup
  triggered : ∀ i, i ∈ last.failureEvents.map (·.injectBeforeStepIdx) ↔ i ∈ plan

section Replays

variable {args : ReplayArgs} {steps : List ReplayStep} {plan : Finset Nat}

theorem Faithful.actions {tops : List Replay} {last : Replay} (h : Faithful steps plan tops last) :
    last.container.map (·.action) = steps.map (·.action) := by
  have htimeline := h.timeline last (List.mem_append_right tops List.mem_cons_self)
  have hactions := htimeline.container.actions
  rw [h.finished, List.take_length] at hactions
  exact hactions

/-- A fuel that every wait and the loop itself get by with. -/
def enoughFuel (args : ReplayArgs) (steps : List ReplayStep) (plan : Finset Nat) : Nat :=
  (steps.map fun step => ⌈step.llmElapsed / args.adaptiveDecisionIntervalSec⌉₊).sum +
    roundsLeft steps (.start plan) + 1

/-- With enough fuel, a replay comes to its end. -/
theorem faithful_runOneTrajectory (hinterval : 0 < args.adaptiveDecisionIntervalSec)
    (hplan : ∀ i ∈ plan, i < steps.length) (answers : ReplayAnswers) {fuel : Nat}
    (hfuel : enoughFuel args steps plan ≤ fuel) :
    ∃ tops last, runOneTrajectory args steps plan answers fuel = some (tops, last) ∧
      Faithful steps plan tops last := by
  rw [enoughFuel] at hfuel
  have hwaits : ∀ step ∈ steps,
      ⌈step.llmElapsed / args.adaptiveDecisionIntervalSec⌉₊ < fuel := by
    intro step hstep
    have hle := List.single_le_sum (fun _ _ => Nat.zero_le _) _
      (List.mem_map_of_mem
        (f := fun step : ReplayStep =>
          ⌈step.llmElapsed / args.adaptiveDecisionIntervalSec⌉₊) hstep)
    omega
  have hstart : OnTimeline steps 0 (.start plan) ∧ Injects plan (.start plan) := by
    constructor
    · exact ⟨Nat.zero_le _, .start steps, le_rfl, fun _ hid => by cases hid⟩
    · exact ⟨fun _ _ => Nat.zero_le _, fun _ _ => List.not_mem_nil, List.nodup_nil,
        fun i => by simp [Replay.start]⟩
  have hrounds : roundsLeft steps (.start plan) < fuel := by omega
  obtain ⟨tops, last, hloop, htops, ⟨htimeline, hinjects⟩, hend⟩ := whileLoop_total
    (fun r : Replay => OnTimeline steps r.currentStepIdx r ∧ Injects plan r) (roundsLeft steps)
    (fun r hr hless => round_spec answers hinterval hwaits hr.1 hr.2 hless) hstart hrounds
  have hfinished : last.currentStepIdx = steps.length :=
    le_antisymm htimeline.le (not_lt.mp hend)
  have hnone : last.pendingInjectionSteps = ∅ := by
    refine Finset.eq_empty_of_forall_notMem ?_
    intro i hi
    have hahead := hinjects.ahead i hi
    have hless := hplan i ((hinjects.mem_iff i).mpr (.inl hi))
    omega
  refine ⟨tops, last, hloop, ⟨?_, hfinished, hnone, hinjects.nodup, ?_⟩⟩
  · intro r hr
    rcases List.mem_append.mp hr with hr | hr
    · exact (htops r hr).1
    · rw [List.mem_singleton.mp hr]
      exact htimeline
  · intro i
    rw [hinjects.mem_iff i, hnone]
    simp

/-- A replay with injected failures ends, with each injection triggered once, is on its timeline at
the top of every round, and leaves the container that the replay without failures leaves. -/
theorem runOneTrajectory_faithful (args : ReplayArgs) (steps : List ReplayStep) (plan : Finset Nat)
    (answers faultFreeAnswers : ReplayAnswers) (hinterval : 0 < args.adaptiveDecisionIntervalSec)
    (hplan : ∀ i ∈ plan, 1 ≤ i ∧ i < steps.length) :
    ∃ enough, ∀ fuel, enough ≤ fuel → ∃ tops last faultFreeTops faultFreeLast,
      runOneTrajectory args steps plan answers fuel = some (tops, last) ∧
        Faithful steps plan tops last ∧
        runOneTrajectory args steps ∅ faultFreeAnswers fuel =
          some (faultFreeTops, faultFreeLast) ∧
        last.container.map (·.action) = faultFreeLast.container.map (·.action) := by
  refine ⟨max (enoughFuel args steps plan) (enoughFuel args steps ∅), ?_⟩
  intro fuel hfuel
  obtain ⟨tops, last, hrun, hfaithful⟩ := faithful_runOneTrajectory hinterval
    (fun i hi => (hplan i hi).2) answers ((le_max_left _ _).trans hfuel)
  obtain ⟨faultFreeTops, faultFreeLast, hfree, hfaithful'⟩ := faithful_runOneTrajectory hinterval
    (fun i hi => absurd hi (Finset.notMem_empty i)) faultFreeAnswers
    ((le_max_right _ _).trans hfuel)
  exact ⟨tops, last, faultFreeTops, faultFreeLast, hrun, hfaithful, hfree,
    hfaithful.actions.trans hfaithful'.actions.symm⟩

/-- A checkpoint after the first of three steps, and a failure before the last. -/
def failedThirdStep : ReplayAnswers where
  execElapsed := fun k => k + 1
  create := fun k => ⟨1, if k = 0 then some ⟨none, none, 10⟩ else none⟩

/-- The failure is recovered from the checkpoint after the first step. -/
theorem runOneTrajectory_faithful_threeSteps :
    ∃ enough, ∀ fuel, enough ≤ fuel → ∃ tops last faultFreeTops faultFreeLast,
      runOneTrajectory ⟨.always, true, none, 0, 1⟩ [⟨"cd", 1⟩, ⟨"make", 2⟩, ⟨"ls", 3⟩] {2}
          failedThirdStep fuel = some (tops, last) ∧
        Faithful [⟨"cd", 1⟩, ⟨"make", 2⟩, ⟨"ls", 3⟩] {2} tops last ∧
        runOneTrajectory ⟨.always, true, none, 0, 1⟩ [⟨"cd", 1⟩, ⟨"make", 2⟩, ⟨"ls", 3⟩] ∅
          failedThirdStep fuel = some (faultFreeTops, faultFreeLast) ∧
        last.container.map (·.action) = faultFreeLast.container.map (·.action) :=
  runOneTrajectory_faithful ⟨.always, true, none, 0, 1⟩ [⟨"cd", 1⟩, ⟨"make", 2⟩, ⟨"ls", 3⟩] {2}
    failedThirdStep failedThirdStep one_pos (by decide)

end Replays

end Belayer.Policy
