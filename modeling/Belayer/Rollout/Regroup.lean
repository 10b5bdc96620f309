import Belayer.Rollout.GenerateRollout

namespace Belayer.Rollout

open Belayer.Framework

/-- How many of the filter's first calls keep their group. -/
def kept (keep : Nat → Bool) (calls : Nat) : Nat := (List.range calls).countP keep

theorem kept_succ (keep : Nat → Bool) (calls : Nat) :
    kept keep (calls + 1) = kept keep calls + (keep calls).toNat := by
  rw [kept, kept, List.range_succ, List.countP_append, List.countP_singleton]
  cases keep calls <;> rfl

theorem kept_mono (keep : Nat → Bool) {m n : Nat} (h : m ≤ n) : kept keep m ≤ kept keep n := by
  induction h with
  | refl => exact Nat.le_refl _
  | step _ ih =>
    rw [kept_succ]
    exact ih.trans (Nat.le_add_right ..)

/-- `group.sort(key=lambda item: item.index)`. -/
abbrev sortByIndex (group : List Sample) : List Sample :=
  group.insertionSort fun a b => a.index ≤ b.index

theorem sortByIndex_perm (group : List Sample) : (sortByIndex group).Perm group :=
  List.perm_insertionSort _ group

namespace RolloutState

variable {args : RolloutArgs} {keep : Nat → Bool} {s s' : RolloutState}

/-- The regrouping table with the groups that are complete. -/
def regrouping (s : RolloutState) : Batching Nat Sample := ⟨s.pendingGroupSamples, s.allData⟩

/-- How many groups were submitted, by the counter. -/
def counted (args : RolloutArgs) (s : RolloutState) : Int :=
  s.remainingBatchSize + if args.rollingRefill then (s.allData.length : Int) else 0

/-- The data are complete groups, as many as the filter kept up to the target. -/
structure Gathered (args : RolloutArgs) (keep : Nat → Bool) (s : RolloutState) : Prop where
  mem_allData : ∀ group ∈ s.data, group ∈ s.allData
  length_data : s.data.length = min args.rolloutBatchSize (kept keep s.allData.length)

/-! A sample that arrives -/

theorem complete_eq (args : RolloutArgs) (keep : Nat → Bool) (s : RolloutState)
    (group : List Sample) : complete args keep s group =
      { s with
        remainingBatchSize := s.remainingBatchSize - if args.rollingRefill then 1 else 0
        allData := s.allData ++ [group]
        data := if keep s.allData.length && s.data.length < args.rolloutBatchSize then
          s.data ++ [group] else s.data } := by
  unfold complete release
  by_cases hroom : s.data.length < args.rolloutBatchSize <;>
    cases args.rollingRefill <;> cases keep s.allData.length <;> simp [hroom]

theorem complete_gathered (h : Gathered args keep s) (group : List Sample) :
    Gathered args keep (complete args keep s group) := by
  rw [complete_eq]
  have hlength := h.length_data
  refine ⟨fun g hg => ?_, ?_⟩
  · dsimp only at hg ⊢
    split_ifs at hg
    · rcases List.mem_append.mp hg with hold | hnew
      · exact List.mem_append_left _ (h.mem_allData g hold)
      · exact List.mem_append_right _ hnew
    · exact List.mem_append_left _ (h.mem_allData g hg)
  · dsimp only
    rw [List.length_append, List.length_singleton, kept_succ]
    cases hkeep : keep s.allData.length with
    | false =>
      simp only [Bool.false_and, Bool.false_eq_true, if_false, Bool.toNat_false, Nat.add_zero]
      exact hlength
    | true =>
      simp only [Bool.true_and, decide_eq_true_eq, Bool.toNat_true]
      split_ifs with hroom
      · rw [List.length_append, List.length_singleton]
        omega
      · omega

/-- Of the state an arrival only touches the counter, the table and the groups. -/
theorem arrive_spec (args : RolloutArgs) (keep : Nat → Bool) (s : RolloutState) (sample : Sample) :
    (arrive args keep s sample).regrouping =
        s.regrouping.add Sample.groupIndex args.nSamplesPerPrompt sortByIndex sample ∧
      (arrive args keep s sample).counted args = s.counted args ∧
      (Gathered args keep s → Gathered args keep (arrive args keep s sample)) ∧
      (arrive args keep s sample).pendings = s.pendings ∧
      (arrive args keep s sample).submitted = s.submitted ∧
      (arrive args keep s sample).finished = s.finished := by
  unfold arrive Batching.add regrouping
  dsimp only
  split_ifs with hfull
  · refine ⟨?_, ?_, fun h => ?_, ?_, ?_, ?_⟩
    · rw [complete_eq]
    · rw [complete_eq]
      unfold counted
      dsimp only
      rw [List.length_append, List.length_singleton]
      split_ifs
      · push_cast
        ring
      · ring
    · refine complete_gathered ?_ _
      exact ⟨h.mem_allData, h.length_data⟩
    · rw [complete_eq]
    · rw [complete_eq]
    · rw [complete_eq]
  · exact ⟨rfl, rfl, fun h => ⟨h.mem_allData, h.length_data⟩, rfl, rfl, rfl⟩

/-- What the tasks that are done do to the state. -/
theorem finish_spec (args : RolloutArgs) (keep : Nat → Bool) (done : List (Sample × GenerateResult))
    (s : RolloutState) :
    (done.foldl (finish args keep) s).regrouping =
        (done.flatMap fun task => task.2.completedSamples).foldl
          (Batching.add Sample.groupIndex args.nSamplesPerPrompt sortByIndex) s.regrouping ∧
      (done.foldl (finish args keep) s).counted args = s.counted args ∧
      (Gathered args keep s → Gathered args keep (done.foldl (finish args keep) s)) ∧
      (done.foldl (finish args keep) s).pendings = s.pendings ∧
      (done.foldl (finish args keep) s).submitted = s.submitted ∧
      (done.foldl (finish args keep) s).finished = s.finished := by
  have hsamples : done.foldl (finish args keep) s =
      (done.flatMap fun task => task.2.completedSamples).foldl (arrive args keep) s := by
    rw [List.foldl_flatMap]
    rfl
  rw [hsamples]
  clear hsamples
  generalize (done.flatMap fun task => task.2.completedSamples) = samples
  induction samples generalizing s with
  | nil => exact ⟨rfl, rfl, fun h => h, rfl, rfl, rfl⟩
  | cons sample samples ih =>
    obtain ⟨hregrouping, hcounted, hgathered, hpendings, hsubmitted, hfinished⟩ :=
      arrive_spec args keep s sample
    obtain ⟨hregrouping', hcounted', hgathered', hpendings', hsubmitted', hfinished'⟩ :=
      ih (arrive args keep s sample)
    rw [List.foldl_cons, List.foldl_cons]
    exact ⟨hregrouping'.trans (by rw [hregrouping]), hcounted'.trans hcounted,
      fun h => hgathered' (hgathered h), hpendings'.trans hpendings,
      hsubmitted'.trans hsubmitted, hfinished'.trans hfinished⟩

/-! Runs -/

/-- The samples of the tasks that have finished, in the order of their arrival. -/
def arrived (s : RolloutState) : List Sample :=
  s.finished.flatMap fun task => task.2.completedSamples

/-- What holds at the loop head: the tasks are those of the samples that were submitted, the table
and the groups are made of what they returned, and the counter counts the groups. -/
structure Collected (args : RolloutArgs) (keep : Nat → Bool) (s : RolloutState) : Prop where
  groups : ∀ group ∈ s.submitted, IsGroup args.nSamplesPerPrompt group
  distinct : Distinct s.submitted
  tasks : (s.pendings ++ s.finished.map Prod.fst).Perm s.submitted.flatten
  results : ∀ task ∈ s.finished, IsResult task.1 task.2
  regrouped : s.regrouping.Holds Sample.groupIndex args.nSamplesPerPrompt s.arrived
  gathered : Gathered args keep s
  counted_eq : s.counted args = s.submitted.length

theorem collected_init (args : RolloutArgs) (keep : Nat → Bool) : Collected args keep init where
  groups := fun _ h => absurd h List.not_mem_nil
  distinct := List.Pairwise.nil
  tasks := List.Perm.refl []
  results := fun _ h => absurd h List.not_mem_nil
  regrouped := Batching.holds_empty args.nSamplesPerPrompt_pos
  gathered := ⟨fun _ h => absurd h List.not_mem_nil, (Nat.min_zero _).symm⟩
  counted_eq := by
    unfold counted
    split_ifs <;> rfl

theorem flatMap_range_getElem? {α : Type*} (l : List α) {n : Nat} (h : l.length ≤ n) :
    ((List.range n).flatMap fun i => l[i]?.toList) = l := by
  induction l generalizing n with
  | nil => simp
  | cons a l ih =>
    obtain ⟨m, rfl⟩ : ∃ m, n = m + 1 := ⟨n - 1, by rw [List.length_cons] at h; omega⟩
    rw [List.range_succ_eq_map, List.flatMap_cons, List.flatMap_map]
    simp only [List.getElem?_cons_zero, List.getElem?_cons_succ, Option.toList_some]
    rw [ih (Nat.le_of_succ_le_succ h), List.singleton_append]

/-- Row by row or column by column, the same elements. -/
theorem flatMap_filterMap_perm {α : Type*} (groups : List (List α)) {n : Nat}
    (h : ∀ group ∈ groups, group.length ≤ n) :
    ((List.range n).flatMap fun i : Nat => groups.filterMap fun group : List α => group[i]?).Perm
      groups.flatten := by
  induction groups with
  | nil => simp
  | cons group groups ih =>
    obtain ⟨hgroup, hrest⟩ := List.forall_mem_cons.mp h
    have hsplit : (fun i : Nat => (group :: groups).filterMap fun g : List α => g[i]?) =
        fun i : Nat => group[i]?.toList ++ groups.filterMap fun g : List α => g[i]? := by
      funext i
      rw [List.filterMap_cons]
      cases group[i]? <;> rfl
    rw [hsplit, List.flatten_cons]
    refine (List.flatMap_append_perm _ _ _).symm.trans ?_
    rw [flatMap_range_getElem? group hgroup]
    exact (ih hrest).append_left group

/-- Breadth-first submission makes a task for each sample. -/
theorem bfs_perm (groups : List (List Sample)) : (bfs groups).Perm groups.flatten := by
  refine flatMap_filterMap_perm groups fun group hgroup => ?_
  have hmax : ∀ (l : List Nat) (m : Nat), (∀ i ∈ l, i ≤ l.foldl max m) ∧ m ≤ l.foldl max m := by
    intro l
    induction l with
    | nil => exact fun m => ⟨fun i hi => absurd hi List.not_mem_nil, Nat.le_refl m⟩
    | cons j l ih =>
      intro m
      obtain ⟨hall, hle⟩ := ih (max m j)
      refine ⟨List.forall_mem_cons.mpr ⟨(Nat.le_max_right m j).trans hle, hall⟩,
        (Nat.le_max_left m j).trans hle⟩
  exact (hmax _ 0).1 _ (List.mem_map_of_mem hgroup)

/-- A step of the loop. -/
theorem Collected.step (h : Collected args keep s) {action : RolloutAction}
    (hstep : s.step args keep action = some s') : Collected args keep s' := by
  cases action with
  | refill samples =>
    unfold RolloutState.step at hstep
    dsimp only at hstep
    split_ifs at hstep with hguard
    cases hstep
    obtain ⟨-, hgroups, hdistinct⟩ := hguard
    refine ⟨?_, hdistinct, ?_, h.results, h.regrouped, ?_, ?_⟩
    · intro group hgroup
      rcases List.mem_append.mp hgroup with hold | hnew
      · exact h.groups group hold
      · exact hgroups group hnew
    · show (s.pendings ++ bfs samples ++ s.finished.map Prod.fst).Perm (s.submitted ++ samples).flatten
      rw [List.flatten_append]
      refine (List.perm_append_comm.append_right _).trans ?_
      rw [List.append_assoc]
      exact ((bfs_perm samples).append h.tasks).trans List.perm_append_comm
    · exact ⟨h.gathered.mem_allData, h.gathered.length_data⟩
    · have hcounted := h.counted_eq
      unfold counted at hcounted
      show s.remainingBatchSize + samples.length +
        (if args.rollingRefill then (s.allData.length : Int) else 0) =
          ((s.submitted ++ samples).length : Int)
      rw [List.length_append, Int.natCast_add, ← hcounted]
      ring
  | wait done =>
    unfold RolloutState.step at hstep
    dsimp only at hstep
    split_ifs at hstep with hguard
    cases hstep
    obtain ⟨-, -, hsub, hresults⟩ := hguard
    obtain ⟨hregrouping, hcounted, hgathered, hpendings, hsubmitted, hfinished⟩ :=
      finish_spec args keep done { s with
        pendings := s.pendings.diff (done.map Prod.fst)
        finished := s.finished ++ done }
    refine ⟨?_, ?_, ?_, ?_, ?_, ?_, ?_⟩
    · rw [hsubmitted]
      exact h.groups
    · rw [hsubmitted]
      exact h.distinct
    · rw [hpendings, hsubmitted, hfinished]
      show (s.pendings.diff (done.map Prod.fst) ++ (s.finished ++ done).map Prod.fst).Perm
        s.submitted.flatten
      have htaken : (done.map Prod.fst ++ s.pendings.diff (done.map Prod.fst)).Perm s.pendings :=
        List.subperm_append_diff_self_of_count_le (List.subperm_ext_iff.mp hsub)
      rw [List.map_append]
      refine List.Perm.trans ?_ ((htaken.append_right _).trans h.tasks)
      rw [← List.append_assoc]
      refine List.perm_append_comm.trans ?_
      rw [List.append_assoc]
    · rw [hfinished]
      intro task htask
      rcases List.mem_append.mp htask with hold | hnew
      · exact h.results task hold
      · exact hresults task hnew
    · rw [hregrouping, arrived, hfinished]
      show Batching.Holds _ _ _ ((s.finished ++ done).flatMap fun task => task.2.completedSamples)
      rw [List.flatMap_append]
      exact h.regrouped.addAll sortByIndex_perm _
    · exact hgathered ⟨h.gathered.mem_allData, h.gathered.length_data⟩
    · rw [hcounted, hsubmitted]
      exact h.counted_eq

theorem Collected.of_run {run : List RolloutAction}
    (h : exec (RolloutState.step args keep) init run = some s) : Collected args keep s :=
  exec_invariant (fun _ _ _ hs hstep => Collected.step hs hstep) (collected_init args keep) h

/-! Groups and their indices -/

/-- The index that the samples of a group have. -/
def indexOf (group : List Sample) : Nat := (group.head?.map Sample.groupIndex).getD 0

theorem indexOf_eq {group : List Sample} {k : Nat} (hne : group ≠ [])
    (hk : ∀ sample ∈ group, sample.groupIndex = k) : indexOf group = k := by
  obtain ⟨first, rest, rfl⟩ := List.exists_cons_of_ne_nil hne
  exact hk first (List.mem_cons_self ..)

theorem ne_nil_of_length {group : List Sample} (h : group.length = args.nSamplesPerPrompt) :
    group ≠ [] := by
  have hpos := args.nSamplesPerPrompt_pos
  rw [← h] at hpos
  exact List.ne_nil_of_length_pos hpos

/-- A submitted group has samples, and they have its index. -/
theorem Collected.index_of_submitted (h : Collected args keep s) {prompts : List Sample}
    (hprompts : prompts ∈ s.submitted) :
    prompts ≠ [] ∧ ∀ sample ∈ prompts, sample.groupIndex = indexOf prompts := by
  obtain ⟨hsize, -, hindex⟩ := h.groups prompts hprompts
  have hne := ne_nil_of_length hsize
  obtain ⟨first, rest, rfl⟩ := List.exists_cons_of_ne_nil hne
  exact ⟨hne, fun sample hsample => hindex sample hsample first (List.mem_cons_self ..)⟩

/-- A complete group has samples, and they have its index. -/
theorem Collected.index_of_complete (h : Collected args keep s) {group : List Sample}
    (hgroup : group ∈ s.allData) :
    group ≠ [] ∧ ∀ sample ∈ group, sample.groupIndex = indexOf group := by
  obtain ⟨hsize, k, hk⟩ := h.regrouped.batch group hgroup
  have hne := ne_nil_of_length hsize
  rw [indexOf_eq hne hk]
  exact ⟨hne, hk⟩

/-! The tasks of one group -/

/-- The group index of a prompt group's samples. -/
def hasIndex (k : Nat) (sample : Sample) : Bool := sample.groupIndex = k

/-- The samples with the index of a submitted group are those of the group. -/
theorem Collected.filter_submitted (h : Collected args keep s) {group : List Sample}
    (hgroup : group ∈ s.submitted) {k : Nat} (hk : ∀ sample ∈ group, sample.groupIndex = k) :
    s.submitted.flatten.filter (hasIndex k) = group := by
  have hdistinct := h.distinct
  have hgroups := h.groups
  obtain ⟨before, after, hsplit⟩ := List.append_of_mem hgroup
  rw [hsplit] at hdistinct hgroups ⊢
  obtain ⟨-, hlater, hacross⟩ := List.pairwise_append.mp hdistinct
  have hsize : 0 < group.length := by
    rw [(hgroups group (List.mem_append_right _ (List.mem_cons_self ..))).1]
    exact args.nSamplesPerPrompt_pos
  obtain ⟨first, hfirst⟩ := List.exists_mem_of_length_pos hsize
  have hnone : ∀ other, (other ∈ before ∨ other ∈ after) → ∀ sample ∈ other,
      ¬hasIndex k sample = true := by
    intro other hother sample hsample hindex
    have hsame : sample.groupIndex = first.groupIndex :=
      (of_decide_eq_true hindex).trans (hk first hfirst).symm
    rcases hother with hbefore | hafter
    · exact hacross other hbefore group (List.mem_cons_self ..) sample hsample first hfirst hsame
    · exact (List.pairwise_cons.mp hlater).1 other hafter first hfirst sample hsample hsame.symm
  have hempty : ∀ others : List (List Sample), (∀ other ∈ others, other ∈ before ∨ other ∈ after) →
      others.flatten.filter (hasIndex k) = [] := by
    intro others hothers
    refine List.filter_eq_nil_iff.mpr fun sample hsample => ?_
    obtain ⟨other, hother, hmem⟩ := List.mem_flatten.mp hsample
    exact hnone other (hothers other hother) sample hmem
  rw [List.flatten_append, List.flatten_cons, List.filter_append, List.filter_append,
    hempty before fun _ => .inl, hempty after fun _ => .inr, List.nil_append, List.append_nil]
  exact List.filter_eq_self.mpr fun sample hsample => decide_eq_true (hk sample hsample)

/-- The tasks of a submitted group are those that run and those that have finished. -/
theorem Collected.tasks_of_group (h : Collected args keep s) {group : List Sample}
    (hgroup : group ∈ s.submitted) {k : Nat} (hk : ∀ sample ∈ group, sample.groupIndex = k) :
    (s.pendings.filter (hasIndex k) ++ (s.finished.map Prod.fst).filter (hasIndex k)).Perm group := by
  have htasks := h.tasks.filter (hasIndex k)
  rwa [List.filter_append, h.filter_submitted hgroup hk] at htasks

/-- What has arrived for a group is what its finished tasks returned. -/
theorem Collected.filter_arrived (h : Collected args keep s) (k : Nat) :
    s.arrived.filter (hasIndex k) =
      (s.finished.filter fun task => hasIndex k task.1).flatMap fun task =>
        task.2.completedSamples := by
  have hall : ∀ l : List (Sample × GenerateResult), (∀ task ∈ l, IsResult task.1 task.2) →
      (l.flatMap fun task => task.2.completedSamples).filter (hasIndex k) =
        (l.filter fun task => hasIndex k task.1).flatMap fun task => task.2.completedSamples := by
    intro l hl
    induction l with
    | nil => rfl
    | cons task l ih =>
      obtain ⟨htask, hrest⟩ := List.forall_mem_cons.mp hl
      rw [List.flatMap_cons, List.filter_append, ih hrest, List.filter_cons]
      by_cases hindex : hasIndex k task.1 = true
      · rw [if_pos hindex, List.flatMap_cons]
        congr 1
        refine List.filter_eq_self.mpr fun sample hsample => ?_
        rw [hasIndex, (htask.2 sample hsample).1]
        exact hindex
      · rw [if_neg hindex]
        have hnone : task.2.completedSamples.filter (hasIndex k) = [] := by
          refine List.filter_eq_nil_iff.mpr fun sample hsample => ?_
          rw [hasIndex, (htask.2 sample hsample).1]
          exact hindex
        rw [hnone, List.nil_append]
  exact hall s.finished h.results

end RolloutState

end Belayer.Rollout
