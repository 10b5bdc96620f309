import Belayer.Rollout.WholeGroups

namespace Belayer.Rollout

open Belayer.Framework

namespace RolloutState

variable {args : RolloutArgs} {keep : Nat → Bool} {s s' : RolloutState}

/-- The loop does not wait without a task. -/
def InFlight (args : RolloutArgs) (s : RolloutState) : Prop :=
  s.isWaiting args = true → s.pendings ≠ []

instance : Decidable (InFlight args s) :=
  inferInstanceAs (Decidable (_ → _))

/-- The data source returns the number of groups that it is asked for. -/
def Requested (args : RolloutArgs) (s : RolloutState) : RolloutAction → Prop
  | .refill samples => samples.length = args.refillSize s.remainingBatchSize
  | .wait _ => True

instance (args : RolloutArgs) (s : RolloutState) : ∀ action, Decidable (Requested args s action)
  | .refill samples =>
    inferInstanceAs (Decidable ((samples.length : Int) = args.refillSize s.remainingBatchSize))
  | .wait _ => .isTrue trivial

/-- How many groups are submitted without rolling refill: the first multiple of the over-sampling
size that is not below the pending window. -/
def window (args : RolloutArgs) : Nat :=
  (args.pendingGroupTarget.toNat + args.overSamplingBatchSize - 1) / args.overSamplingBatchSize *
    args.overSamplingBatchSize

theorem one_le_pendingGroupTarget (args : RolloutArgs) : 1 ≤ args.pendingGroupTarget := by
  have hpos := args.rolloutBatchSize_pos
  have honline : 1 ≤ args.onlineSchedulerPendingGroupTarget := by
    unfold RolloutArgs.onlineSchedulerPendingGroupTarget
    dsimp only
    split_ifs
    · exact le_max_left ..
    · exact (le_max_left 1 _).trans (le_max_left ..)
    · exact (le_max_left 1 _).trans (le_max_left ..)
  unfold RolloutArgs.pendingGroupTarget
  dsimp only
  split_ifs
  · exact honline.trans (le_max_left ..)
  · omega
  · exact honline

theorem overSamplingBatchSize_pos (args : RolloutArgs) : 0 < args.overSamplingBatchSize :=
  Nat.lt_of_lt_of_le args.rolloutBatchSize_pos args.le_overSamplingBatchSize

/-! Groups and their indices -/

theorem Collected.isOf_iff (h : Collected args keep s) {group : List Sample}
    (hgroup : group ∈ s.allData) (k : Nat) :
    Batching.isOf Sample.groupIndex k group = true ↔ indexOf group = k := by
  obtain ⟨hne, hindex⟩ := h.index_of_complete hgroup
  rw [Batching.isOf_eq hne hindex, decide_eq_true_iff]

theorem Collected.nodup_submitted (h : Collected args keep s) : (s.submitted.map indexOf).Nodup := by
  refine List.pairwise_map.mpr (List.Pairwise.imp_of_mem ?_ h.distinct)
  intro prompts other hprompts hother hdistinct hsame
  obtain ⟨hne, hindex⟩ := h.index_of_submitted hprompts
  obtain ⟨hne', hindex'⟩ := h.index_of_submitted hother
  obtain ⟨first, hfirst⟩ := List.exists_mem_of_ne_nil _ hne
  obtain ⟨first', hfirst'⟩ := List.exists_mem_of_ne_nil _ hne'
  refine hdistinct first hfirst first' hfirst' ?_
  rw [hindex first hfirst, hindex' first' hfirst', hsame]

/-- Each finished task has brought a sample at least. -/
theorem le_countP_arrived (h : Collected args keep s) (k : Nat) :
    ((s.finished.map Prod.fst).filter (hasIndex k)).length ≤ s.arrived.countP (hasIndex k) := by
  have hall : ∀ l : List (Sample × GenerateResult), (∀ task ∈ l, IsResult task.1 task.2) →
      l.length ≤ (l.flatMap fun task => task.2.completedSamples).length := by
    intro l hl
    induction l with
    | nil => exact Nat.le_refl 0
    | cons task l ih =>
      obtain ⟨htask, hrest⟩ := List.forall_mem_cons.mp hl
      have hpos := List.length_pos_of_ne_nil htask.1
      have hlength := ih hrest
      rw [List.flatMap_cons, List.length_append, List.length_cons]
      omega
  rw [List.countP_eq_length_filter, h.filter_arrived, List.filter_map, List.length_map]
  exact hall _ fun task htask => h.results task (List.mem_of_mem_filter htask)

/-- Without a running task each submitted group is complete. -/
theorem length_submitted_le (h : Collected args keep s) (hnone : s.pendings = []) :
    s.submitted.length ≤ s.allData.length := by
  have hsub : s.submitted.map indexOf ⊆ s.allData.map indexOf := by
    intro k hk
    obtain ⟨prompts, hprompts, rfl⟩ := List.mem_map.mp hk
    obtain ⟨-, hindex⟩ := h.index_of_submitted hprompts
    have htasks := (h.tasks_of_group hprompts hindex).length_eq
    rw [hnone, List.filter_nil, List.nil_append, (h.groups prompts hprompts).1] at htasks
    have harrived := le_countP_arrived h (indexOf prompts)
    have hcount := h.regrouped.count (indexOf prompts)
    have hwaiting := h.regrouped.waiting_lt (indexOf prompts)
    have hsame : (s.arrived.countP fun sample => sample.groupIndex = indexOf prompts) =
        s.arrived.countP (hasIndex (indexOf prompts)) := rfl
    have hcomplete : 0 < s.regrouping.batches.countP
        (Batching.isOf Sample.groupIndex (indexOf prompts)) := by
      by_contra hzero
      rw [Nat.eq_zero_of_not_pos hzero] at hcount
      omega
    obtain ⟨group, hgroup, hof⟩ := List.countP_pos_iff.mp hcomplete
    exact List.mem_map.mpr ⟨group, hgroup, (h.isOf_iff hgroup _).mp hof⟩
  have hle := (List.subperm_of_subset h.nodup_submitted hsub).length_le
  rwa [List.length_map, List.length_map] at hle

/-- With one sample a task no more groups are complete than were submitted. -/
theorem length_allData_le (h : Collected args keep s) (hsingle : s.SingleResults) :
    s.allData.length ≤ s.submitted.length := by
  have hsub : s.allData.map indexOf ⊆ s.submitted.map indexOf := by
    intro k hk
    obtain ⟨group, hgroup, rfl⟩ := List.mem_map.mp hk
    obtain ⟨prompts, hprompts, k, hindex, hof⟩ := exists_prompts h hgroup
    rw [(h.isOf_iff hgroup k).mp hof]
    exact List.mem_map.mpr ⟨prompts, hprompts,
      indexOf_eq (h.index_of_submitted hprompts).1 hindex⟩
  have hnodup : (s.allData.map indexOf).Nodup := by
    refine List.nodup_iff_count_le_one.mpr fun k => ?_
    by_cases hmem : k ∈ s.allData.map indexOf
    · obtain ⟨prompts, hprompts, rfl⟩ := List.mem_map.mp (hsub hmem)
      have honce := (countP_complete h hsingle hprompts (h.index_of_submitted hprompts).2).1
      have hsame : s.allData.countP (Batching.isOf Sample.groupIndex (indexOf prompts)) =
          (s.allData.map indexOf).count (indexOf prompts) := by
        rw [List.count, List.countP_map]
        refine List.countP_congr fun group hgroup => ?_
        rw [h.isOf_iff hgroup]
        simp
      rw [← hsame, honce]
      split_ifs <;> omega
    · rw [List.count_eq_zero_of_not_mem hmem]
      exact Nat.zero_le 1
  have hle := (List.subperm_of_subset hnodup hsub).length_le
  rwa [List.length_map, List.length_map] at hle

/-! With room for the groups that the filter drops -/

/-- Without rolling refill the groups come in whole requests. -/
def InRequests (args : RolloutArgs) (s : RolloutState) : Prop :=
  args.rollingRefill = false → args.overSamplingBatchSize ∣ s.submitted.length

theorem InRequests.step (h : InRequests args s) {action : RolloutAction}
    (hrequested : Requested args s action) (hstep : s.step args keep action = some s') :
    InRequests args s' := by
  intro hoff
  cases action with
  | refill samples =>
    unfold RolloutState.step at hstep
    dsimp only at hstep
    split_ifs at hstep
    cases hstep
    have hsize : samples.length = args.overSamplingBatchSize := by
      have hlength : (samples.length : Int) = args.refillSize s.remainingBatchSize := hrequested
      rw [RolloutArgs.refillSize, hoff, if_neg Bool.false_ne_true] at hlength
      exact_mod_cast hlength
    show args.overSamplingBatchSize ∣ (s.submitted ++ samples).length
    rw [List.length_append, hsize]
    exact Nat.dvd_add (h hoff) (Nat.dvd_refl _)
  | wait done =>
    unfold RolloutState.step at hstep
    dsimp only at hstep
    split_ifs at hstep
    cases hstep
    obtain ⟨-, -, -, -, hsubmitted, -⟩ := finish_spec args keep done { s with
      pendings := s.pendings.diff (done.map Prod.fst)
      finished := s.finished ++ done }
    rw [hsubmitted]
    exact h hoff

/-- A multiple of the over-sampling size that is not below the pending window. -/
theorem window_le {n : Nat} (hdvd : args.overSamplingBatchSize ∣ n)
    (hle : args.pendingGroupTarget ≤ n) : window args ≤ n := by
  obtain ⟨m, rfl⟩ := hdvd
  have hR := overSamplingBatchSize_pos args
  unfold window
  rw [Nat.mul_comm args.overSamplingBatchSize m]
  refine Nat.mul_le_mul_right _ (Nat.lt_succ_iff.mp ((Nat.div_lt_iff_lt_mul hR).mpr ?_))
  have hwindow : args.pendingGroupTarget.toNat ≤ args.overSamplingBatchSize * m := by omega
  calc args.pendingGroupTarget.toNat + args.overSamplingBatchSize - 1
      < args.overSamplingBatchSize * m + args.overSamplingBatchSize := by omega
    _ = (m + 1) * args.overSamplingBatchSize := by ring

/-- The filter keeps enough groups of those that are submitted, or more are. -/
def HasRoom (args : RolloutArgs) (keep : Nat → Bool) : Prop :=
  args.rollingRefill = true ∨ args.rolloutBatchSize ≤ kept keep (window args)

instance : Decidable (HasRoom args keep) := inferInstanceAs (Decidable (_ ∨ _))

theorem inFlight_of_hasRoom (h : Collected args keep s) (hrequests : InRequests args s)
    (hroom : HasRoom args keep) : InFlight args s := by
  intro hwaiting hnone
  unfold isWaiting isCollecting at hwaiting
  rw [Bool.and_eq_true, decide_eq_true_iff, decide_eq_true_iff] at hwaiting
  obtain ⟨hcollecting, hwindow⟩ := hwaiting
  have hcomplete := length_submitted_le h hnone
  have hcounted := h.counted_eq
  have hpos := one_le_pendingGroupTarget args
  unfold counted at hcounted
  cases hrolling : args.rollingRefill with
  | true =>
    rw [hrolling, if_pos rfl] at hcounted
    omega
  | false =>
    rw [hrolling, if_neg Bool.false_ne_true, Int.add_zero] at hcounted
    rw [HasRoom, hrolling] at hroom
    have hkept := hroom.resolve_left Bool.false_ne_true
    rw [hcounted] at hwindow
    have hmono := kept_mono keep ((window_le (hrequests hrolling) hwindow).trans hcomplete)
    have hlength := h.gathered.length_data
    omega

/-! Without it -/

/-- The `k`-th group that a data source makes. -/
def newGroup (n k : Nat) : List Sample := (List.range n).map fun i => ⟨k, k * n + i, "", none⟩

theorem isGroup_newGroup (n k : Nat) : IsGroup n (newGroup n k) := by
  refine ⟨by rw [newGroup, List.length_map, List.length_range], ?_, ?_⟩
  · rw [newGroup, List.map_map]
    exact List.nodup_range.map fun i j h => Nat.add_left_cancel h
  · intro a ha b hb
    obtain ⟨i, -, rfl⟩ := List.mem_map.mp ha
    obtain ⟨j, -, rfl⟩ := List.mem_map.mp hb
    rfl

theorem distinct_newGroups (n m : Nat) : Distinct ((List.range m).map (newGroup n)) := by
  refine List.pairwise_map.mpr (List.nodup_range.imp fun {i j} hne a ha b hb => ?_)
  obtain ⟨_, -, rfl⟩ := List.mem_map.mp ha
  obtain ⟨_, -, rfl⟩ := List.mem_map.mp hb
  exact hne

/-- The groups of the `m`-th request. -/
def request (args : RolloutArgs) (m : Nat) : List (List Sample) :=
  (List.range args.overSamplingBatchSize).map fun j =>
    newGroup args.nSamplesPerPrompt (m * args.overSamplingBatchSize + j)

/-- Before anything has finished the loop asks for groups until the window is full. -/
theorem exists_refills (hoff : args.rollingRefill = false) (keep : Nat → Bool) (m : Nat)
    (hm : ∀ k < m, (k * args.overSamplingBatchSize : Int) < args.pendingGroupTarget) :
    ∃ run s, exec (RolloutState.step args keep) init run = some s ∧
      Meets (RolloutState.step args keep) (Requested args) init run ∧
      s.submitted = (List.range (m * args.overSamplingBatchSize)).map
        (newGroup args.nSamplesPerPrompt) ∧
      s.allData = [] ∧ s.finished = [] := by
  induction m with
  | zero => exact ⟨[], init, rfl, trivial, by rw [Nat.zero_mul]; rfl, rfl, rfl⟩
  | succ m ih =>
    obtain ⟨run, s, hrun, hrequested, hsubmitted, hnone, hfinished⟩ :=
      ih fun k hk => hm k (Nat.lt_succ_of_lt hk)
    have h := Collected.of_run hrun
    have hcounted := h.counted_eq
    rw [counted, hoff, if_neg Bool.false_ne_true, Int.add_zero, hsubmitted, List.length_map,
      List.length_range] at hcounted
    have hdata := h.gathered.length_data
    rw [hnone, kept, List.length_nil, List.range_zero, List.countP_nil, Nat.min_zero] at hdata
    have hrange : s.submitted ++ request args m = (List.range ((m + 1) *
        args.overSamplingBatchSize)).map (newGroup args.nSamplesPerPrompt) := by
      rw [hsubmitted, Nat.succ_mul, List.range_add, List.map_append, List.map_map]
      rfl
    have hrefilling : s.isRefilling args = true := by
      have hlt := hm m (Nat.lt_succ_self m)
      have hpos := args.rolloutBatchSize_pos
      unfold isRefilling isCollecting
      rw [Bool.and_eq_true, decide_eq_true_iff, decide_eq_true_iff, hcounted, hdata]
      exact ⟨hpos, by exact_mod_cast hlt⟩
    have hstep : RolloutState.step args keep s (.refill (request args m)) =
        some (s.submitGenerateTasksBfs (request args m)) := by
      refine if_pos ⟨hrefilling, ?_, ?_⟩
      · intro group hgroup
        obtain ⟨j, -, rfl⟩ := List.mem_map.mp hgroup
        exact isGroup_newGroup ..
      · rw [hrange]
        exact distinct_newGroups ..
    have hasked : Requested args s (.refill (request args m)) := by
      show ((request args m).length : Int) = args.refillSize s.remainingBatchSize
      rw [request, List.length_map, List.length_range, RolloutArgs.refillSize, hoff,
        if_neg Bool.false_ne_true]
    have hmeets : Meets (RolloutState.step args keep) (Requested args) s
        [.refill (request args m)] := (meets_cons_some hstep).mpr ⟨hasked, trivial⟩
    refine ⟨run ++ [.refill (request args m)], s.submitGenerateTasksBfs (request args m), ?_,
      hrequested.append hrun hmeets, hrange, hnone, hfinished⟩
    rw [exec_append hrun, exec_cons_some hstep]
    rfl

/-- When all groups have come and the filter has kept too few, the loop waits for nothing. -/
theorem exists_stuck (hoff : args.rollingRefill = false)
    (hfew : kept keep (window args) < args.rolloutBatchSize) :
    ∃ run s, exec (RolloutState.step args keep) init run = some s ∧
      Meets (RolloutState.step args keep) (Requested args) init run ∧ ¬InFlight args s := by
  have hR := overSamplingBatchSize_pos args
  have hP := one_le_pendingGroupTarget args
  have hwindow : args.pendingGroupTarget ≤ (window args : Int) := by
    have hlt := Nat.lt_div_mul_add hR (a := args.pendingGroupTarget.toNat +
      args.overSamplingBatchSize - 1)
    unfold window
    omega
  obtain ⟨run, s, hrun, hrequested, hsubmitted, hnone, hfinished⟩ :=
    exists_refills hoff keep ((args.pendingGroupTarget.toNat + args.overSamplingBatchSize - 1) /
      args.overSamplingBatchSize) (by
        intro k hk
        have hle := Nat.mul_le_mul_right args.overSamplingBatchSize (Nat.succ_le_of_lt hk)
        have hdiv := Nat.div_mul_le_self (args.pendingGroupTarget.toNat +
          args.overSamplingBatchSize - 1) args.overSamplingBatchSize
        rw [Nat.succ_mul] at hle
        have hcast : ((k * args.overSamplingBatchSize : Nat) : Int) < args.pendingGroupTarget := by
          omega
        exact_mod_cast hcast)
  have h := Collected.of_run hrun
  have hlength : s.submitted.length = window args := by
    rw [hsubmitted, List.length_map, List.length_range]
    rfl
  have hpendings : s.pendings ≠ [] := by
    intro hempty
    have hle := length_submitted_le h hempty
    rw [hlength, hnone, List.length_nil] at hle
    omega
  -- all tasks finish at once, each with its sample
  obtain ⟨done, hdone⟩ : ∃ done : List (Sample × GenerateResult),
      done = s.pendings.map fun task => (task, GenerateResult.one task) := ⟨_, rfl⟩
  have htasks : done.map Prod.fst = s.pendings := by
    rw [hdone, List.map_map]
    exact List.map_id _
  have hcounted := h.counted_eq
  rw [counted, hoff, if_neg Bool.false_ne_true, Int.add_zero, hlength] at hcounted
  have hdata := h.gathered.length_data
  rw [hnone, kept, List.length_nil, List.range_zero, List.countP_nil, Nat.min_zero] at hdata
  have hwaiting : s.isWaiting args = true := by
    unfold isWaiting isCollecting
    rw [Bool.and_eq_true, decide_eq_true_iff, decide_eq_true_iff, hcounted, hdata]
    exact ⟨args.rolloutBatchSize_pos, hwindow⟩
  have hresults : ∀ task ∈ done, IsResult task.1 task.2 ∧ task.2.completedSamples.length = 1 := by
    intro task htask
    rw [hdone] at htask
    obtain ⟨sample, -, rfl⟩ := List.mem_map.mp htask
    exact ⟨⟨List.cons_ne_nil _ _, List.forall_mem_singleton.mpr ⟨rfl, rfl⟩⟩, rfl⟩
  have hne : done ≠ [] := by
    intro hempty
    rw [hempty] at htasks
    exact hpendings htasks.symm
  obtain ⟨s', hs'⟩ : ∃ s', s' = done.foldl (finish args keep) { s with
      pendings := s.pendings.diff (done.map Prod.fst)
      finished := s.finished ++ done } := ⟨_, rfl⟩
  have hstep : RolloutState.step args keep s (.wait done) = some s' := by
    rw [hs']
    refine if_pos ⟨hwaiting, hne, ?_, fun task htask => (hresults task htask).1⟩
    rw [htasks]
  have hmeets : Meets (RolloutState.step args keep) (Requested args) s [.wait done] :=
    (meets_cons_some hstep).mpr ⟨trivial, trivial⟩
  refine ⟨run ++ [.wait done], s', ?_, hrequested.append hrun hmeets, fun hflight => ?_⟩
  · rw [exec_append hrun, exec_cons_some hstep]
    rfl
  obtain ⟨-, -, -, hpendings', hsubmitted', hfinished'⟩ := finish_spec args keep done { s with
    pendings := s.pendings.diff (done.map Prod.fst)
    finished := s.finished ++ done }
  rw [← hs'] at hpendings' hsubmitted' hfinished'
  have h' := h.step hstep
  have hsingle : s'.SingleResults := by
    intro task htask
    rw [hfinished', hfinished, List.nil_append] at htask
    exact (hresults task htask).2
  have hempty : s'.pendings = [] := by
    have htaken : (s.pendings ++ s.pendings.diff s.pendings).Perm s.pendings :=
      List.subperm_append_diff_self_of_count_le fun _ _ => Nat.le_refl _
    have hsize := htaken.length_eq
    rw [List.length_append] at hsize
    rw [hpendings', htasks]
    show s.pendings.diff s.pendings = []
    exact List.length_eq_zero_iff.mp (by omega)
  have hlength' : s'.submitted.length = window args := by rw [hsubmitted', ← hlength]
  have hcounted' := h'.counted_eq
  rw [counted, hoff, if_neg Bool.false_ne_true, Int.add_zero, hlength'] at hcounted'
  have hcomplete := length_allData_le h' hsingle
  have hmono := kept_mono keep (hcomplete.trans (Nat.le_of_eq hlength'))
  have hdata' := h'.gathered.length_data
  refine hflight ?_ hempty
  unfold isWaiting isCollecting
  rw [Bool.and_eq_true, decide_eq_true_iff, decide_eq_true_iff, hcounted']
  exact ⟨by omega, hwindow⟩

/-- The loop never waits without a task, whatever finishes when, exactly where groups that end
make room for others, or the filter keeps enough of those that the window has. -/
theorem inFlight_iff :
    (∀ run, Meets (RolloutState.step args keep) (Requested args) init run →
        Along (RolloutState.step args keep) (InFlight args) init run) ↔
      HasRoom args keep := by
  constructor
  · intro h
    by_contra hnot
    obtain ⟨hoff, hfew⟩ := not_or.mp hnot
    obtain ⟨run, s, hrun, hrequested, hstuck⟩ :=
      exists_stuck (Bool.eq_false_of_not_eq_true hoff) (Nat.lt_of_not_le hfew)
    exact hstuck ((h run hrequested).last hrun)
  · intro hroom run hrequested
    refine Along.mono (P := fun s => Collected args keep s ∧ InRequests args s)
      (fun s hs => inFlight_of_hasRoom hs.1 hs.2 hroom) ?_
    refine along_of_meets (fun s action s' hs hasked hstep => ?_) ?_ hrequested
    · exact ⟨hs.1.step hstep, hs.2.step hasked hstep⟩
    · exact ⟨collected_init args keep, fun _ => Nat.dvd_zero _⟩

/-- With one group in the window and a filter that drops it the loop waits for nothing. -/
theorem not_inFlight_twoSamples :
    ¬∀ run, Meets (RolloutState.step twoSamples fun _ => false) (Requested twoSamples) init run →
      Along (RolloutState.step twoSamples fun _ => false) (InFlight twoSamples) init run := by
  intro h
  have hrun := h [.refill [[⟨0, 0, "", none⟩, ⟨0, 1, "", none⟩]],
    .wait [(⟨0, 1, "", none⟩, .one ⟨0, 1, "b", none⟩), (⟨0, 0, "", none⟩, .one ⟨0, 0, "a", none⟩)]]
    (by decide)
  revert hrun
  decide

end RolloutState

end Belayer.Rollout
