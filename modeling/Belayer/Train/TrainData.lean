import Belayer.Rollout.StepWiseRewards
import Belayer.Train.SeqlenBalancing

namespace Belayer.Train

open Belayer.Framework Belayer.Rollout

/-- What the training data takes of a sample. -/
structure TrainSample (K : Type*) extends RewardSample K where
  tokens : List Int

inductive MicroBatching where
  | fixed (microBatchSize : Nat)
  | byTokens (maxTokensPerGpu : Nat)
  deriving DecidableEq

structure TrainArgs where
  reward : RewardArgs
  globalBatchSize : Nat
  disableRolloutTrimSamples : Bool
  useDynamicGlobalBatchSize : Bool
  numStepsPerRollout : Option Int
  balanceData : Bool
  microBatching : MicroBatching

/-- The sizes of the parallel groups; with virtual pipeline stages also the size of a group of
micro-batches. -/
structure ParallelConfig where
  dpSize : Nat
  cpSize : Nat
  microbatchGroupSize : Option Nat
  dpSize_pos : 0 < dpSize
  group_pos : ∀ n ∈ microbatchGroupSize, 0 < n

/-! ### The rollout manager -/

/-- `_compute_dynamic_global_batch_size`. -/
def computeDynamicGlobalBatchSize (dpSize numSamples : Nat) (targetSteps : Option Int) : Nat :=
  let desiredSteps :=
    match targetSteps with
    | some target => if 0 < target then target.toNat else 1
    | none => 1
  let perStepTarget := max 1 (numSamples / desiredSteps)
  let dynamicGbs := perStepTarget / dpSize * dpSize
  if dynamicGbs = 0 then dpSize else dynamicGbs

variable {K : Type*} [Field K] [LinearOrder K]

/-- `_get_rollout_data` from the flat list of samples on: the samples that are left, and the
dynamic global batch size if there is one. -/
def getRolloutData (args : TrainArgs) (dpSize : Nat) (data : List (TrainSample K)) :
    Option (List (TrainSample K) × Option Nat) :=
  if data.isEmpty then none
  else if args.disableRolloutTrimSamples then some (data, none)
  else
    let autoDynamic := args.reward.dynamicHistory && args.numStepsPerRollout.isSome
    let targetSteps := if autoDynamic then args.numStepsPerRollout else none
    let dynamicGbs :=
      if args.useDynamicGlobalBatchSize || autoDynamic then
        some (computeDynamicGlobalBatchSize dpSize data.length targetSteps)
      else none
    let globalBatchSize := dynamicGbs.getD args.globalBatchSize
    if globalBatchSize = 0 then none
    else if data.length % globalBatchSize = 0 then some (data, dynamicGbs)
    else
      let trimLen := data.length / globalBatchSize * globalBatchSize
      if trimLen = 0 then none else some (data.take trimLen, dynamicGbs)

def TrainSample.group (s : TrainSample K) : Int := s.groupIndex.getD (-1)

/-- `1e-12`. -/
def rewardMargin (K : Type*) [Field K] : K := Rollout.BucketStats.constantMargin K

/-- `max(vals) - min(vals) <= 1e-12`; a group has a sample. -/
def isConstant : List K → Bool
  | [] => false
  | val :: vals => vals.foldl max val - vals.foldl min val ≤ rewardMargin K

/-- `_drop_constant_reward_groups`. -/
def dropConstantRewardGroups (args : RewardArgs) (samples : List (TrainSample K)) :
    List (TrainSample K) :=
  if samples.isEmpty || !args.isGroupRelative then samples
  else
    let groups := Dict.groupBy (fun sample => some sample.group) samples
    let constantGroups :=
      (groups.items.filter fun e => isConstant (e.2.map fun sample => sample.reward)).map Prod.fst
    if constantGroups.isEmpty then samples
    else
      let otherGroups := (groups.items.map Prod.fst).filter fun g => g ∉ constantGroups
      -- one whole group stays in any case
      let keepGroups :=
        if otherGroups.isEmpty then (groups.items.map Prod.fst).take 1 else otherGroups
      samples.filter fun sample => sample.group ∈ keepGroups

/-- `range(start, stop, step)`. -/
def pyRange (start stop step : Nat) : List Nat :=
  (List.range ((stop - start + step - 1) / step)).map fun j => start + j * step

/-- `_split_train_data_by_dp`: the places of the samples of each rank. -/
def splitTrainDataByDp (args : TrainArgs) (dpSize : Nat) (totalLengths : List Nat) :
    Option (List (List Nat)) :=
  if args.balanceData then
    getSeqlenBalancedPartitions totalLengths dpSize (totalLengths.length % dpSize = 0)
  else some ((List.range dpSize).map fun i => pyRange i totalLengths.length dpSize)

/-! ### Who is left -/

section Left

variable {args : TrainArgs} {dpSize : Nat} {samples data : List (TrainSample K)}
  {dynamicGbs : Option Nat}

omit [Field K] [LinearOrder K] in
theorem getRolloutData_ne_nil
    (h : getRolloutData args dpSize samples = some (data, dynamicGbs)) : data ≠ [] := by
  simp only [getRolloutData] at h
  by_cases hempty : samples.isEmpty
  · rw [if_pos hempty] at h
    cases h
  · have hsamples : samples ≠ [] := fun hnil => hempty (List.isEmpty_iff.mpr hnil)
    rw [if_neg hempty] at h
    generalize (if (args.useDynamicGlobalBatchSize || (args.reward.dynamicHistory &&
      args.numStepsPerRollout.isSome)) = true then _ else (none : Option Nat)) = gbs at h
    split_ifs at h with htrim hzero hmod hlen
    · exact (Prod.mk.inj (Option.some.inj h)).1 ▸ hsamples
    · exact (Prod.mk.inj (Option.some.inj h)).1 ▸ hsamples
    · rw [← (Prod.mk.inj (Option.some.inj h)).1, Ne, List.take_eq_nil_iff]
      exact not_or.mpr ⟨hlen, hsamples⟩

/-- A drop leaves a sample. -/
theorem dropConstantRewardGroups_ne_nil (reward : RewardArgs) (hdata : data ≠ []) :
    dropConstantRewardGroups reward data ≠ [] := by
  rw [dropConstantRewardGroups]
  split_ifs with hplain
  · exact hdata
  · dsimp only
    have hmem : ∀ g, g ∈ (Dict.groupBy (fun sample : TrainSample K => some sample.group)
        data).items.map Prod.fst ↔ ∃ sample ∈ data, sample.group = g := by
      intro g
      rw [Dict.map_fst_items, ← AList.mem_keys, Dict.mem_groupBy]
      simp only [Option.some.injEq]
    have hkept : ∀ (keep : List Int) (g : Int), g ∈ keep →
        g ∈ (Dict.groupBy (fun sample : TrainSample K => some sample.group) data).items.map
          Prod.fst → (data.filter fun sample => sample.group ∈ keep) ≠ [] := by
      intro keep g hg hgroup
      obtain ⟨sample, hsample, rfl⟩ := (hmem g).mp hgroup
      exact List.ne_nil_of_mem (List.mem_filter.mpr ⟨hsample, decide_eq_true hg⟩)
    split_ifs with hconstant hother
    · exact hdata
    · obtain ⟨first, hfirst⟩ := List.exists_mem_of_ne_nil data hdata
      obtain ⟨g, rest, hgroups⟩ := List.exists_cons_of_ne_nil
        (List.ne_nil_of_mem ((hmem first.group).mpr ⟨first, hfirst, rfl⟩))
      refine hkept _ g ?_ ?_
      · rw [hgroups]
        exact List.mem_cons_self
      · rw [hgroups]
        exact List.mem_cons_self
    · obtain ⟨g, hg⟩ := List.exists_mem_of_ne_nil _ (fun hnil => hother (List.isEmpty_iff.mpr hnil))
      exact hkept _ g hg (List.mem_of_mem_filter hg)

end Left

/-! ### The ranks' shares -/

section Shares

theorem mem_pyRange {start stop step j : Nat} (hstep : 0 < step) :
    j ∈ pyRange start stop step ↔ start ≤ j ∧ j < stop ∧ j % step = start % step := by
  rw [pyRange, List.mem_map]
  constructor
  · rintro ⟨i, hi, rfl⟩
    rw [List.mem_range, Nat.lt_div_iff_mul_lt hstep] at hi
    refine ⟨Nat.le_add_right _ _, ?_, Nat.add_mul_mod_self_right _ _ _⟩
    omega
  · rintro ⟨hle, hlt, hmod⟩
    have hdvd : step ∣ j - start := (Nat.modEq_iff_dvd' hle).mp hmod.symm
    obtain ⟨i, hi⟩ := hdvd
    refine ⟨i, ?_, ?_⟩
    · rw [List.mem_range, Nat.lt_div_iff_mul_lt hstep, Nat.mul_comm]
      omega
    · rw [Nat.mul_comm]
      omega

theorem nodup_pyRange {start stop step : Nat} (hstep : 0 < step) :
    (pyRange start stop step).Nodup := by
  refine List.nodup_range.map fun i j hij => ?_
  exact Nat.eq_of_mul_eq_mul_right hstep (Nat.add_left_cancel hij)

/-- The ranks take the samples in turn. -/
theorem perm_pyRanges {n dpSize : Nat} (hdp : 0 < dpSize) :
    ((List.range dpSize).flatMap fun i => pyRange i n dpSize).Perm (List.range n) := by
  refine (List.perm_ext_iff_of_nodup ?_ List.nodup_range).mpr fun j => ?_
  · refine List.nodup_flatMap.mpr ⟨fun i _ => nodup_pyRange hdp, ?_⟩
    refine List.nodup_range.pairwise_of_forall_ne fun i hi i' hi' hne j hj hj' => hne ?_
    rw [List.mem_range] at hi hi'
    rw [mem_pyRange hdp, Nat.mod_eq_of_lt hi] at hj
    rw [mem_pyRange hdp, Nat.mod_eq_of_lt hi'] at hj'
    exact hj.2.2.symm.trans hj'.2.2
  · rw [List.mem_flatMap]
    constructor
    · rintro ⟨i, -, hj⟩
      exact List.mem_range.mpr ((mem_pyRange hdp).mp hj).2.1
    · intro hj
      refine ⟨j % dpSize, List.mem_range.mpr (Nat.mod_lt j hdp), (mem_pyRange hdp).mpr ?_⟩
      exact ⟨Nat.mod_le j dpSize, List.mem_range.mp hj, (Nat.mod_mod j dpSize).symm⟩

theorem length_pyRange {n dpSize i : Nat} (hi : i < dpSize) (hn : dpSize ∣ n) :
    (pyRange i n dpSize).length * dpSize = n := by
  obtain ⟨q, rfl⟩ := hn
  rw [pyRange, List.length_map, List.length_range, Nat.mul_comm dpSize q]
  congr 1
  cases q with
  | zero =>
    rw [Nat.zero_mul, Nat.zero_sub, Nat.zero_add]
    exact Nat.div_eq_of_lt (by omega)
  | succ q =>
    have hsum : (q + 1) * dpSize - i + dpSize - 1 = (dpSize - 1 - i) + (q + 1) * dpSize := by
      rw [Nat.succ_mul]
      omega
    rw [hsum, Nat.add_mul_div_right _ _ (by omega), Nat.div_eq_of_lt (by omega), Nat.zero_add]

/-- The ranks' shares: each sample is in one of them, and they are of one size where the number of
samples allows it. -/
structure IsSplit (n dpSize : Nat) (partitions : List (List Nat)) : Prop where
  length : partitions.length = dpSize
  perm : partitions.flatten.Perm (List.range n)
  equal : dpSize ∣ n → ∀ partition ∈ partitions, partition.length * dpSize = n

theorem exists_splitTrainDataByDp (args : TrainArgs) {dpSize : Nat} {totalLengths : List Nat}
    (hdp : 0 < dpSize) (henough : args.balanceData = true → dpSize ≤ totalLengths.length) :
    ∃ partitions, splitTrainDataByDp args dpSize totalLengths = some partitions ∧
      IsSplit totalLengths.length dpSize partitions := by
  rw [splitTrainDataByDp]
  split_ifs with hbalance
  · obtain ⟨partitions, hpartitions, hpart⟩ := exists_getSeqlenBalancedPartitions hdp
      (henough hbalance)
      (of_decide_eq_true : decide (totalLengths.length % dpSize = 0) = true → _)
    exact ⟨partitions, hpartitions, hpart.length, hpart.perm,
      fun hdvd => hpart.equal (decide_eq_true (Nat.mod_eq_zero_of_dvd hdvd))⟩
  · refine ⟨_, rfl, ?_, ?_, fun hdvd partition hpartition => ?_⟩
    · rw [List.length_map, List.length_range]
    · rw [← List.flatMap_def]
      exact perm_pyRanges hdp
    · obtain ⟨i, hi, rfl⟩ := List.mem_map.mp hpartition
      exact length_pyRange (List.mem_range.mp hi) hdvd

theorem splitTrainDataByDp_of_few {args : TrainArgs} {dpSize : Nat} {totalLengths : List Nat}
    (hbalance : args.balanceData = true) (hfew : totalLengths.length < dpSize) :
    splitTrainDataByDp args dpSize totalLengths = none := by
  rw [splitTrainDataByDp, if_pos hbalance, getSeqlenBalancedPartitions, if_pos hfew]

theorem isSplit_of_splitTrainDataByDp {args : TrainArgs} {dpSize : Nat} {totalLengths : List Nat}
    {partitions : List (List Nat)} (hdp : 0 < dpSize)
    (h : splitTrainDataByDp args dpSize totalLengths = some partitions) :
    IsSplit totalLengths.length dpSize partitions := by
  have henough : args.balanceData = true → dpSize ≤ totalLengths.length := by
    intro hbalance
    by_contra hfew
    rw [splitTrainDataByDp_of_few hbalance (Nat.lt_of_not_le hfew)] at h
    cases h
  obtain ⟨partitions', hsplit, hpart⟩ := exists_splitTrainDataByDp args hdp henough
  obtain rfl := Option.some.inj (h.symm.trans hsplit)
  exact hpart

end Shares

end Belayer.Train
