import Belayer.Rollout.Regroup

namespace Belayer.Rollout

open Belayer.Framework

namespace RolloutState

variable {args : RolloutArgs} {keep : Nat → Bool} {s s' : RolloutState}

/-- All tasks of a prompt group have finished. -/
def IsFinished (s : RolloutState) (prompts : List Sample) : Prop :=
  ∀ task ∈ prompts, task ∈ s.finished.map Prod.fst

instance (s : RolloutState) (prompts : List Sample) : Decidable (s.IsFinished prompts) :=
  inferInstanceAs (Decidable (∀ task ∈ prompts, _))

/-- What the tasks of a prompt group have returned. -/
def returned (s : RolloutState) (prompts : List Sample) : List Sample :=
  (s.finished.filter fun task => task.1 ∈ prompts).flatMap fun task => task.2.completedSamples

/-- A group with samples of a prompt group. -/
def isFrom (prompts group : List Sample) : Bool :=
  group.any fun sample => prompts.any fun prompt => sample.groupIndex = prompt.groupIndex

/-- Each group of the data has what all trajectories of one prompt group returned and nothing
else, and each submitted group is complete once when its tasks have finished, and not before. -/
structure WholeGroups (args : RolloutArgs) (s : RolloutState) : Prop where
  whole : ∀ group ∈ s.data, ∃ prompts ∈ s.submitted, prompts.length = args.nSamplesPerPrompt ∧
    s.IsFinished prompts ∧ group.Perm (s.returned prompts)
  once : ∀ prompts ∈ s.submitted,
    s.allData.countP (isFrom prompts) = if s.IsFinished prompts then 1 else 0

instance : Decidable (WholeGroups args s) :=
  decidable_of_iff (_ ∧ _) ⟨fun h => ⟨h.1, h.2⟩, fun h => ⟨h.whole, h.once⟩⟩

/-- Each task that is done returns one sample, alone or in a list. -/
def OneSample (_ : RolloutState) : RolloutAction → Prop
  | .refill _ => True
  | .wait done => ∀ task ∈ done, task.2.completedSamples.length = 1

instance (s : RolloutState) : ∀ action, Decidable (OneSample s action)
  | .refill _ => .isTrue trivial
  | .wait done => inferInstanceAs (Decidable (∀ task ∈ done, _))

/-- The finished tasks have returned one sample each. -/
def SingleResults (s : RolloutState) : Prop :=
  ∀ task ∈ s.finished, task.2.completedSamples.length = 1

theorem SingleResults.step (h : s.SingleResults) {action : RolloutAction}
    (hone : OneSample s action) (hstep : s.step args keep action = some s') :
    s'.SingleResults := by
  cases action with
  | refill samples =>
    unfold RolloutState.step at hstep
    dsimp only at hstep
    split_ifs at hstep
    cases hstep
    exact h
  | wait done =>
    unfold RolloutState.step at hstep
    dsimp only at hstep
    split_ifs at hstep
    cases hstep
    obtain ⟨-, -, -, -, -, hfinished⟩ := finish_spec args keep done { s with
      pendings := s.pendings.diff (done.map Prod.fst)
      finished := s.finished ++ done }
    unfold SingleResults
    rw [hfinished]
    intro task htask
    rcases List.mem_append.mp htask with hold | hnew
    · exact h task hold
    · exact hone task hnew

/-! Counting the samples of one group -/

theorem isFrom_eq {prompts : List Sample} {k : Nat} (hne : prompts ≠ [])
    (hk : ∀ sample ∈ prompts, sample.groupIndex = k) :
    isFrom prompts = Batching.isOf Sample.groupIndex k := by
  obtain ⟨first, rest, rfl⟩ := List.exists_cons_of_ne_nil hne
  have hindex : ∀ sample : Sample, ((first :: rest).any fun prompt =>
      sample.groupIndex = prompt.groupIndex) = decide (sample.groupIndex = k) := by
    intro sample
    rw [Bool.eq_iff_iff, List.any_eq_true, decide_eq_true_iff]
    constructor
    · rintro ⟨prompt, hprompt, hsame⟩
      exact (of_decide_eq_true hsame).trans (hk prompt hprompt)
    · intro hsample
      exact ⟨first, List.mem_cons_self .., decide_eq_true
        (hsample.trans (hk first (List.mem_cons_self ..)).symm)⟩
  funext group
  simp only [isFrom, Batching.isOf, hindex]

/-- With one sample a task, as many samples have arrived for a group as tasks have finished. -/
theorem countP_arrived (h : Collected args keep s) (hsingle : s.SingleResults) (k : Nat) :
    s.arrived.countP (hasIndex k) = ((s.finished.map Prod.fst).filter (hasIndex k)).length := by
  have hone : ∀ task ∈ s.finished.filter fun task => hasIndex k task.1,
      task.2.completedSamples.length = 1 :=
    fun task htask => hsingle task (List.mem_of_mem_filter htask)
  rw [List.countP_eq_length_filter, h.filter_arrived, List.length_flatMap,
    List.map_congr_left hone, List.map_const', List.sum_replicate_nat, Nat.mul_one,
    List.filter_map, List.length_map]
  rfl

/-- A group is complete once when its tasks have finished, and not before. -/
theorem countP_complete (h : Collected args keep s) (hsingle : s.SingleResults)
    {prompts : List Sample} (hprompts : prompts ∈ s.submitted) {k : Nat}
    (hk : ∀ sample ∈ prompts, sample.groupIndex = k) :
    s.allData.countP (Batching.isOf Sample.groupIndex k) =
        (if s.IsFinished prompts then 1 else 0) ∧
      (s.IsFinished prompts → s.pendingGroupSamples.getD k [] = []) := by
  obtain ⟨hsize, hindices, -⟩ := h.groups prompts hprompts
  have htasks := h.tasks_of_group hprompts hk
  have hlength := htasks.length_eq
  rw [List.length_append, hsize] at hlength
  have hcount := h.regrouped.count k
  have hwaiting := h.regrouped.waiting_lt k
  have harrived : (s.arrived.countP fun sample => sample.groupIndex = k) =
      ((s.finished.map Prod.fst).filter (hasIndex k)).length := countP_arrived h hsingle k
  rw [harrived] at hcount
  have hpos := args.nSamplesPerPrompt_pos
  -- the group's tasks have finished exactly when none of them runs
  have hdone : s.IsFinished prompts ↔ (s.pendings.filter (hasIndex k)).length = 0 := by
    constructor
    · intro hfinished
      by_contra hne
      obtain ⟨task, htask⟩ := List.exists_mem_of_length_pos (Nat.pos_of_ne_zero hne)
      have hmem : task ∈ prompts := htasks.mem_iff.mp (List.mem_append_left _ htask)
      have hnodup := htasks.nodup_iff.mpr (List.Nodup.of_map _ hindices)
      have hagain : task ∈ (s.finished.map Prod.fst).filter (hasIndex k) :=
        List.mem_filter.mpr ⟨hfinished task hmem, decide_eq_true (hk task hmem)⟩
      exact List.disjoint_of_nodup_append hnodup htask hagain
    · intro hnone task htask
      rw [List.length_eq_zero_iff] at hnone
      rw [hnone, List.nil_append] at htasks
      exact List.mem_of_mem_filter (htasks.mem_iff.mpr htask)
  have hbatches : s.regrouping.batches = s.allData := rfl
  have htable : s.regrouping.waiting = s.pendingGroupSamples := rfl
  rw [hbatches, htable] at hcount
  rw [htable] at hwaiting
  by_cases hfinished : s.IsFinished prompts
  · rw [if_pos hfinished]
    have hnone := hdone.mp hfinished
    have hone : s.allData.countP (Batching.isOf Sample.groupIndex k) = 1 := by
      rcases Nat.lt_trichotomy (s.allData.countP (Batching.isOf Sample.groupIndex k)) 1 with
        hlt | heq | hgt
      · rw [Nat.lt_one_iff.mp hlt] at hcount
        omega
      · exact heq
      · have htwice := Nat.mul_le_mul_right args.nSamplesPerPrompt hgt
        omega
    refine ⟨hone, fun _ => List.length_eq_zero_iff.mp ?_⟩
    rw [hone] at hcount
    omega
  · rw [if_neg hfinished]
    have hsome := mt hdone.mpr hfinished
    refine ⟨?_, fun hf => absurd hf hfinished⟩
    by_contra hne
    have honce := Nat.mul_le_mul_right args.nSamplesPerPrompt (Nat.one_le_iff_ne_zero.mpr hne)
    omega

/-- The tasks with the index of a submitted group are the group's. -/
theorem hasIndex_iff_mem (h : Collected args keep s) {prompts : List Sample}
    (hprompts : prompts ∈ s.submitted) {k : Nat} (hk : ∀ sample ∈ prompts, sample.groupIndex = k)
    {task : Sample × GenerateResult} (htask : task ∈ s.finished) :
    hasIndex k task.1 = true ↔ task.1 ∈ prompts := by
  constructor
  · intro hindex
    have hsubmitted : task.1 ∈ s.submitted.flatten :=
      h.tasks.mem_iff.mp (List.mem_append_right _ (List.mem_map_of_mem htask))
    rw [← h.filter_submitted hprompts hk]
    exact List.mem_filter.mpr ⟨hsubmitted, hindex⟩
  · intro hmem
    exact decide_eq_true (hk task.1 hmem)

/-- A complete group is of a submitted one. -/
theorem exists_prompts (h : Collected args keep s) {group : List Sample} (hgroup : group ∈ s.allData) :
    ∃ prompts ∈ s.submitted, ∃ k, (∀ sample ∈ prompts, sample.groupIndex = k) ∧
      Batching.isOf Sample.groupIndex k group = true := by
  obtain ⟨hsize, k, hkeys⟩ := h.regrouped.batch group hgroup
  have hpos : 0 < group.length := by
    rw [hsize]
    exact args.nSamplesPerPrompt_pos
  obtain ⟨sample, hsample⟩ := List.exists_mem_of_length_pos hpos
  have hof : Batching.isOf Sample.groupIndex k group = true :=
    List.any_eq_true.mpr ⟨sample, hsample, decide_eq_true (hkeys sample hsample)⟩
  have hin : sample ∈ s.arrived.filter (hasIndex k) := by
    refine (h.regrouped.perm k).mem_iff.mp (List.mem_append_left _ ?_)
    exact List.mem_flatten.mpr ⟨group, List.mem_filter.mpr ⟨hgroup, hof⟩, hsample⟩
  rw [h.filter_arrived] at hin
  obtain ⟨task, htask, -⟩ := List.mem_flatMap.mp hin
  obtain ⟨hfinished, hindex⟩ := List.mem_filter.mp htask
  have hsubmitted : task.1 ∈ s.submitted.flatten :=
    h.tasks.mem_iff.mp (List.mem_append_right _ (List.mem_map_of_mem hfinished))
  obtain ⟨prompts, hprompts, hmem⟩ := List.mem_flatten.mp hsubmitted
  refine ⟨prompts, hprompts, k, fun other hother => ?_, hof⟩
  exact ((h.groups prompts hprompts).2.2 other hother task.1 hmem).trans (of_decide_eq_true hindex)

/-- A complete group has what the tasks of one submitted group returned. -/
theorem perm_returned (h : Collected args keep s) (hsingle : s.SingleResults) {group : List Sample}
    (hgroup : group ∈ s.allData) : ∃ prompts ∈ s.submitted,
      prompts.length = args.nSamplesPerPrompt ∧ s.IsFinished prompts ∧
        group.Perm (s.returned prompts) := by
  obtain ⟨prompts, hprompts, k, hk, hof⟩ := exists_prompts h hgroup
  obtain ⟨hcount, hwaiting⟩ := countP_complete h hsingle hprompts hk
  have hmem : group ∈ s.allData.filter (Batching.isOf Sample.groupIndex k) :=
    List.mem_filter.mpr ⟨hgroup, hof⟩
  have hfinished : s.IsFinished prompts := by
    by_contra hnot
    rw [if_neg hnot, List.countP_eq_length_filter, List.length_eq_zero_iff] at hcount
    rw [hcount] at hmem
    exact List.not_mem_nil hmem
  rw [if_pos hfinished, List.countP_eq_length_filter] at hcount
  obtain ⟨only, honly⟩ := List.length_eq_one_iff.mp hcount
  rw [honly, List.mem_singleton] at hmem
  subst hmem
  have hperm : ((s.allData.filter (Batching.isOf Sample.groupIndex k)).flatten ++
      s.pendingGroupSamples.getD k []).Perm (s.arrived.filter (hasIndex k)) := h.regrouped.perm k
  rw [honly, hwaiting hfinished, List.append_nil, List.flatten_singleton, h.filter_arrived] at hperm
  have hsame : (s.finished.filter fun task => hasIndex k task.1) =
      s.finished.filter fun task => task.1 ∈ prompts := by
    refine List.filter_congr fun task htask => ?_
    rw [Bool.eq_iff_iff, hasIndex_iff_mem h hprompts hk htask, decide_eq_true_iff]
  rw [hsame] at hperm
  exact ⟨prompts, hprompts, (h.groups prompts hprompts).1, hfinished, hperm⟩

/-- With one sample a task the groups are whole. -/
theorem wholeGroups_of_single (h : Collected args keep s) (hsingle : s.SingleResults) :
    WholeGroups args s where
  whole := fun group hgroup => perm_returned h hsingle (h.gathered.mem_allData group hgroup)
  once := by
    intro prompts hprompts
    obtain ⟨hsize, -, hindex⟩ := h.groups prompts hprompts
    have hne := ne_nil_of_length hsize
    obtain ⟨first, rest, rfl⟩ := List.exists_cons_of_ne_nil hne
    have hk : ∀ sample ∈ first :: rest, sample.groupIndex = first.groupIndex :=
      fun sample hsample => hindex sample hsample first (List.mem_cons_self ..)
    rw [isFrom_eq hne hk]
    exact (countP_complete h hsingle hprompts hk).1

/-- Where each task returns one sample, the groups are whole in every state of every run. -/
theorem wholeGroups_of_meets {run : List RolloutAction}
    (h : Meets (RolloutState.step args keep) OneSample init run) :
    Along (RolloutState.step args keep) (WholeGroups args) init run := by
  refine Along.mono (fun s hs => wholeGroups_of_single hs.1 hs.2) (P := fun s =>
    Collected args keep s ∧ s.SingleResults) ?_
  refine along_of_meets (fun s action s' hs hone hstep => ?_) ?_ h
  · exact ⟨hs.1.step hstep, hs.2.step hone hstep⟩
  · exact ⟨collected_init args keep, fun _ htask => absurd htask List.not_mem_nil⟩

/-- Two samples for each prompt and a batch of one group. -/
def twoSamples : RolloutArgs where
  rolloutBatchSize := 1
  overSamplingBatchSize := 1
  nSamplesPerPrompt := 2
  partialRollout := false
  rollingRefill := false
  onlineScheduler := false
  pendingGroupWindowMultiplier := 2
  pendingGroupWindowExtra := 0
  pendingGroupWindowCap := 0
  rolloutBatchSize_pos := Nat.one_pos
  nSamplesPerPrompt_pos := Nat.two_pos
  le_overSamplingBatchSize := Nat.le_refl 1

theorem wholeGroups_of_meets_twoSamples :
    Along (RolloutState.step twoSamples fun _ => true) (WholeGroups twoSamples) init
      [.refill [[⟨0, 0, "", none⟩, ⟨0, 1, "", none⟩]],
        .wait [(⟨0, 1, "", none⟩, .one ⟨0, 1, "b", none⟩)],
        .wait [(⟨0, 0, "", none⟩, .many [⟨0, 0, "a", none⟩])]] :=
  wholeGroups_of_meets (by decide)

/-- A task that returns the two steps of its trajectory. -/
def twoSteps : List RolloutAction :=
  [.refill [[⟨0, 0, "", none⟩, ⟨0, 1, "", none⟩]],
    .wait [(⟨0, 0, "", none⟩, .many [⟨0, 0, "a", none⟩, ⟨0, 0, "b", none⟩])]]

/-- The steps of one trajectory make up a group, and the other trajectory is not in it. -/
theorem not_wholeGroups_twoSteps :
    ¬Along (RolloutState.step twoSamples fun _ => true) (WholeGroups twoSamples) init twoSteps := by
  decide

end RolloutState

end Belayer.Rollout
