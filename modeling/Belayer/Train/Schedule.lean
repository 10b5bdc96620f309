import Belayer.Train.GetDataIterator

namespace Belayer.Train

open Belayer.Framework

/-- The training of a rank: its numbers of micro-batches, and the samples of each of them. -/
structure RankRun where
  numMicrobatches : List Nat
  steps : List (List (List Nat))

/-- `process_rollout_data`: the lengths of the samples of a rank. -/
def localTotalLengths (totalLengths partition : List Nat) : List Nat :=
  partition.map fun i => totalLengths.getD i 0

/-- The training on all ranks, from the split of the samples on. -/
def trainRollout (args : TrainArgs) (parallel : ParallelConfig) (globalBatchSize : Nat)
    (totalLengths : List Nat) : Option (List RankRun) :=
  match splitTrainDataByDp args parallel.dpSize totalLengths with
  | none => none
  | some partitions =>
    match getDataIterator args parallel globalBatchSize
        (partitions.map (localTotalLengths totalLengths)) with
    | none => none
    | some iterators =>
      (partitions.zip iterators).mapM fun e =>
        (DataIterator.trainSteps e.1 e.2.1 ⟨e.2.2, 0⟩).map fun steps => ⟨e.2.1, steps⟩

/-- The ranks train in step: their tensors for the all-reduce have one length, they have the same
number of micro-batches in every step, and each sample is in one micro-batch of one rank. -/
structure InStep (args : TrainArgs) (parallel : ParallelConfig) (globalBatchSize : Nat)
    (totalLengths : List Nat) (partitions : List (List Nat)) (runs : List RankRun) : Prop where
  tensors : ∀ t ∈ reducedTensors args parallel globalBatchSize
      (partitions.map (localTotalLengths totalLengths)),
    ∀ u ∈ reducedTensors args parallel globalBatchSize
      (partitions.map (localTotalLengths totalLengths)), t.length = u.length
  numMicrobatches : ∀ r ∈ runs, ∀ r' ∈ runs, r.numMicrobatches = r'.numMicrobatches
  once : (runs.flatMap fun r => r.steps.flatten.flatten).Perm (List.range totalLengths.length)

/-- All ranks run the training, and in step. -/
def TrainsInStep (args : TrainArgs) (parallel : ParallelConfig) (globalBatchSize : Nat)
    (totalLengths : List Nat) : Prop :=
  ∃ partitions runs, splitTrainDataByDp args parallel.dpSize totalLengths = some partitions ∧
    trainRollout args parallel globalBatchSize totalLengths = some runs ∧
      InStep args parallel globalBatchSize totalLengths partitions runs

/-- The shares of the ranks begin as many steps, and in every step the safety split makes up for
what is clipped in the same way on all ranks. -/
structure StepsAgree (parallel : ParallelConfig) (numLocalGbs maxTokens : Nat)
    (localLengths : List (List Nat)) : Prop where
  steps : ∀ l ∈ localLengths, ∀ l' ∈ localLengths,
    numSegments numLocalGbs l.length = numSegments numLocalGbs l'.length
  batches : ∀ reduced,
    allReduceMax (localLengths.map (localNumMicrobatches numLocalGbs maxTokens)) = some reduced →
      ∀ e ∈ (reduced.map (alignToGroups parallel.microbatchGroupSize)).zipIdx,
        ∀ l ∈ localLengths, ∀ l' ∈ localLengths,
          addedBySplit numLocalGbs maxTokens l e.1 e.2 + clippedAway numLocalGbs l' e.1 e.2 =
            addedBySplit numLocalGbs maxTokens l' e.1 e.2 + clippedAway numLocalGbs l e.1 e.2

/-- When the samples that are left go into steps on all ranks alike. -/
def Fits (args : TrainArgs) (parallel : ParallelConfig) (globalBatchSize : Nat)
    (totalLengths : List Nat) : Prop :=
  let numLocalGbs := globalBatchSize / parallel.dpSize
  match args.microBatching with
  | .fixed microBatchSize =>
    parallel.dpSize * numLocalGbs ∣ totalLengths.length ∧ microBatchSize ∣ numLocalGbs
  | .byTokens maxTokensPerGpu =>
    (args.balanceData = true → parallel.dpSize ≤ totalLengths.length) ∧ 0 < numLocalGbs ∧
      ∀ partitions, splitTrainDataByDp args parallel.dpSize totalLengths = some partitions →
        StepsAgree parallel numLocalGbs (maxTokensPerGpu * parallel.cpSize)
          (partitions.map (localTotalLengths totalLengths))

section Run

variable {args : TrainArgs} {parallel : ParallelConfig} {globalBatchSize : Nat}
  {totalLengths : List Nat} {partitions : List (List Nat)}

/-- The run of a rank with what `get_data_iterator` gives it. -/
def runOf (iterator : List Nat × Batches) (partition : List Nat) : RankRun :=
  ⟨iterator.1, (DataIterator.trainSteps partition iterator.1 ⟨iterator.2, 0⟩).getD []⟩

theorem length_localTotalLengths (totalLengths partition : List Nat) :
    (localTotalLengths totalLengths partition).length = partition.length :=
  List.length_map _

theorem trainRollout_eq {iterator : List Nat → List Nat × Batches}
    (hsplit : splitTrainDataByDp args parallel.dpSize totalLengths = some partitions)
    (hiterators : getDataIterator args parallel globalBatchSize
      (partitions.map (localTotalLengths totalLengths)) = some (partitions.map iterator))
    (hruns : ∀ p ∈ partitions,
      (DataIterator.trainSteps p (iterator p).1 ⟨(iterator p).2, 0⟩).isSome) :
    trainRollout args parallel globalBatchSize totalLengths =
      some (partitions.map fun p => runOf (iterator p) p) := by
  rw [trainRollout, hsplit]
  dsimp only
  rw [hiterators]
  dsimp only
  rw [zip_map_self, mapM_eq_some_iff, List.map_map, List.map_map]
  refine List.map_congr_left fun p hp => ?_
  obtain ⟨steps, hsteps⟩ := Option.isSome_iff_exists.mp (hruns p hp)
  simp only [Function.comp_apply, runOf, hsteps, Option.map_some, Option.getD_some]

/-- What `get_data_iterator` gives a rank with the reduced numbers. -/
def tokenIterator (numLocalGbs maxTokens : Nat) (totalLengths numMicrobatches partition : List Nat) :
    List Nat × Batches :=
  let lengths := localTotalLengths totalLengths partition
  (numMicrobatches.zipIdx.map fun e => (stepBatches numLocalGbs maxTokens lengths e.1 e.2).length,
    .ofIndices (numMicrobatches.zipIdx.flatMap fun e =>
      stepBatches numLocalGbs maxTokens lengths e.1 e.2))

variable {maxTokensPerGpu : Nat} {reduced : List Nat}

/-- The numbers that the all-reduce leaves are positive, one for each step of a rank. -/
theorem reduced_spec (hg : 0 < globalBatchSize / parallel.dpSize)
    (hargs : args.microBatching = .byTokens maxTokensPerGpu)
    (hreduced : allReduceMax (reducedTensors args parallel globalBatchSize
      (partitions.map (localTotalLengths totalLengths))) = some reduced) :
    (∀ p ∈ partitions, (reduced.map (alignToGroups parallel.microbatchGroupSize)).length =
      numSegments (globalBatchSize / parallel.dpSize) p.length) ∧
    ∀ num ∈ reduced.map (alignToGroups parallel.microbatchGroupSize), 0 < num := by
  simp only [reducedTensors, hargs, List.map_map] at hreduced
  obtain ⟨hlengths, hpos⟩ := allReduceMax_spec hreduced (by
    intro t ht num hnum
    obtain ⟨p, -, rfl⟩ := List.mem_map.mp ht
    exact localNumMicrobatches_pos hg num hnum)
  constructor
  · intro p hp
    have hlength := hlengths _ (List.mem_map.mpr ⟨p, hp, rfl⟩)
    rw [Function.comp_apply, length_localNumMicrobatches hg, length_localTotalLengths] at hlength
    rw [List.length_map, hlength]
  · intro num hnum
    obtain ⟨n, hn, rfl⟩ := List.mem_map.mp hnum
    exact alignToGroups_pos (hpos n hn)

/-- With one positive number for each step a rank trains on each of its samples once. -/
theorem exists_tokenRun {numLocalGbs : Nat} {numMicrobatches partition : List Nat}
    (hg : 0 < numLocalGbs)
    (hlength : numMicrobatches.length = numSegments numLocalGbs partition.length)
    (hpos : ∀ num ∈ numMicrobatches, 0 < num) (maxTokens : Nat) (totalLengths : List Nat) :
    dynamicSchedule numLocalGbs maxTokens (localTotalLengths totalLengths partition)
        numMicrobatches =
      some (tokenIterator numLocalGbs maxTokens totalLengths numMicrobatches partition) ∧
    ∃ steps, DataIterator.trainSteps partition
        (tokenIterator numLocalGbs maxTokens totalLengths numMicrobatches partition).1
        ⟨(tokenIterator numLocalGbs maxTokens totalLengths numMicrobatches partition).2, 0⟩ =
          some steps ∧ steps.flatten.flatten.Perm partition := by
  rw [← length_localTotalLengths totalLengths partition] at hlength
  obtain ⟨indices, hdynamic, rfl, hperm⟩ := exists_dynamicSchedule maxTokens hg hlength hpos
  rw [length_localTotalLengths] at hperm
  refine ⟨hdynamic, DataIterator.exists_trainSteps_ofIndices ?_ hperm⟩
  rw [List.length_flatMap]
  rfl

/-- After an all-reduce every rank trains, on each of its samples once. -/
theorem trainRollout_byTokens (hg : 0 < globalBatchSize / parallel.dpSize)
    (hargs : args.microBatching = .byTokens maxTokensPerGpu)
    (hsplit : splitTrainDataByDp args parallel.dpSize totalLengths = some partitions)
    (hreduced : allReduceMax (reducedTensors args parallel globalBatchSize
      (partitions.map (localTotalLengths totalLengths))) = some reduced) :
    let iterator := tokenIterator (globalBatchSize / parallel.dpSize)
      (maxTokensPerGpu * parallel.cpSize) totalLengths
      (reduced.map (alignToGroups parallel.microbatchGroupSize))
    trainRollout args parallel globalBatchSize totalLengths =
        some (partitions.map fun p => runOf (iterator p) p) ∧
      ∀ p ∈ partitions, (runOf (iterator p) p).steps.flatten.flatten.Perm p := by
  intro iterator
  obtain ⟨hlengths, hpos⟩ := reduced_spec hg hargs hreduced
  have hrun := fun p hp => exists_tokenRun hg (hlengths p hp) hpos
    (maxTokensPerGpu * parallel.cpSize) totalLengths
  constructor
  · refine trainRollout_eq hsplit ?_ fun p hp => ?_
    · simp only [getDataIterator, hargs, if_neg (Nat.ne_of_gt hg)]
      rw [hreduced]
      dsimp only
      rw [mapM_eq_some_iff, List.map_map, List.map_map]
      exact List.map_congr_left fun p hp => (hrun p hp).1
    · obtain ⟨-, steps, hsteps, -⟩ := hrun p hp
      exact Option.isSome_iff_exists.mpr ⟨steps, hsteps⟩
  · intro p hp
    obtain ⟨-, steps, hsteps, hread⟩ := hrun p hp
    change ((DataIterator.trainSteps p (iterator p).1 ⟨(iterator p).2, 0⟩).getD
      []).flatten.flatten.Perm p
    rw [hsteps]
    exact hread

/-- Two ranks have as many micro-batches in every step exactly when what the safety split adds and
what is clipped differ by the same. -/
theorem numMicrobatches_eq_iff {numLocalGbs : Nat} {numMicrobatches l l' : List Nat}
    (maxTokens : Nat) (hg : 0 < numLocalGbs) (hl : numMicrobatches.length = numSegments numLocalGbs l.length)
    (hl' : numMicrobatches.length = numSegments numLocalGbs l'.length)
    (hpos : ∀ num ∈ numMicrobatches, 0 < num) :
    (numMicrobatches.zipIdx.map fun e => (stepBatches numLocalGbs maxTokens l e.1 e.2).length) =
        (numMicrobatches.zipIdx.map fun e =>
          (stepBatches numLocalGbs maxTokens l' e.1 e.2).length) ↔
      ∀ e ∈ numMicrobatches.zipIdx,
        addedBySplit numLocalGbs maxTokens l e.1 e.2 + clippedAway numLocalGbs l' e.1 e.2 =
          addedBySplit numLocalGbs maxTokens l' e.1 e.2 + clippedAway numLocalGbs l e.1 e.2 := by
  rw [List.map_inj_left]
  refine forall₂_congr fun e he => ?_
  obtain ⟨-, hlt, hget⟩ := List.mem_zipIdx he
  rw [Nat.zero_add] at hlt
  have hnum : 0 < e.1 := by
    rw [hget]
    exact hpos _ (List.getElem_mem _)
  have hlength := length_stepBatches maxTokens hg hnum (hl ▸ hlt)
  have hlength' := length_stepBatches maxTokens hg hnum (hl' ▸ hlt)
  omega

/-- The samples of all ranks are those of their shares. -/
theorem perm_runs {run : List Nat → RankRun}
    (hpart : IsSplit totalLengths.length parallel.dpSize partitions)
    (h : ∀ p ∈ partitions, (run p).steps.flatten.flatten.Perm p) :
    ((partitions.map run).flatMap fun r => r.steps.flatten.flatten).Perm
      (List.range totalLengths.length) := by
  rw [List.flatMap_map]
  refine (List.Perm.flatMap_left partitions h).trans ?_
  rw [List.flatMap_id']
  exact hpart.perm

theorem trainsInStep_byTokens (hg : 0 < globalBatchSize / parallel.dpSize)
    (hargs : args.microBatching = .byTokens maxTokensPerGpu)
    (hsplit : splitTrainDataByDp args parallel.dpSize totalLengths = some partitions)
    (hpart : IsSplit totalLengths.length parallel.dpSize partitions) :
    TrainsInStep args parallel globalBatchSize totalLengths ↔
      StepsAgree parallel (globalBatchSize / parallel.dpSize)
        (maxTokensPerGpu * parallel.cpSize)
        (partitions.map (localTotalLengths totalLengths)) := by
  have htensors : reducedTensors args parallel globalBatchSize
      (partitions.map (localTotalLengths totalLengths)) =
        (partitions.map (localTotalLengths totalLengths)).map (localNumMicrobatches
          (globalBatchSize / parallel.dpSize) (maxTokensPerGpu * parallel.cpSize)) := by
    simp only [reducedTensors, hargs]
  have hlengths : (∀ l ∈ partitions.map (localTotalLengths totalLengths),
      ∀ l' ∈ partitions.map (localTotalLengths totalLengths),
        numSegments (globalBatchSize / parallel.dpSize) l.length =
          numSegments (globalBatchSize / parallel.dpSize) l'.length) ↔
      ∀ t ∈ reducedTensors args parallel globalBatchSize
          (partitions.map (localTotalLengths totalLengths)),
        ∀ u ∈ reducedTensors args parallel globalBatchSize
          (partitions.map (localTotalLengths totalLengths)), t.length = u.length := by
    rw [htensors]
    simp only [List.forall_mem_map, length_localNumMicrobatches hg]
  cases hreduced : allReduceMax (reducedTensors args parallel globalBatchSize
      (partitions.map (localTotalLengths totalLengths))) with
  | none =>
    have hnot : ¬∀ t ∈ reducedTensors args parallel globalBatchSize
          (partitions.map (localTotalLengths totalLengths)),
        ∀ u ∈ reducedTensors args parallel globalBatchSize
          (partitions.map (localTotalLengths totalLengths)), t.length = u.length := by
      rw [← allReduceMax_isSome_iff, hreduced]
      exact Bool.false_ne_true
    refine iff_of_false ?_ fun h => hnot (hlengths.mp h.steps)
    rintro ⟨partitions', runs, hsplit', -, hinstep⟩
    obtain rfl := Option.some.inj (hsplit.symm.trans hsplit')
    exact hnot hinstep.tensors
  | some reduced =>
    have hsame := allReduceMax_isSome_iff.mp (Option.isSome_iff_exists.mpr ⟨reduced, hreduced⟩)
    obtain ⟨hrollout, honce⟩ := trainRollout_byTokens hg hargs hsplit hreduced
    obtain ⟨hnums, hpos⟩ := reduced_spec hg hargs hreduced
    have hlocal : ∀ p ∈ partitions,
        (reduced.map (alignToGroups parallel.microbatchGroupSize)).length =
          numSegments (globalBatchSize / parallel.dpSize)
            (localTotalLengths totalLengths p).length := by
      intro p hp
      rw [length_localTotalLengths, hnums p hp]
    have hcounts := fun p (hp : p ∈ partitions) p' (hp' : p' ∈ partitions) =>
      numMicrobatches_eq_iff (maxTokensPerGpu * parallel.cpSize) hg
        (hlocal p hp) (hlocal p' hp') hpos
    constructor
    · rintro ⟨partitions', runs, hsplit', hruns, hinstep⟩
      obtain rfl := Option.some.inj (hsplit.symm.trans hsplit')
      obtain rfl := Option.some.inj (hrollout.symm.trans hruns)
      refine ⟨hlengths.mpr hsame, fun reduced' hreduced' e he => ?_⟩
      rw [← htensors, hreduced] at hreduced'
      obtain rfl := Option.some.inj hreduced'
      simp only [List.forall_mem_map]
      intro p hp p' hp'
      have heq := hinstep.numMicrobatches _ (List.mem_map.mpr ⟨p, hp, rfl⟩) _
        (List.mem_map.mpr ⟨p', hp', rfl⟩)
      exact (hcounts p hp p' hp').mp heq e he
    · intro h
      refine ⟨partitions, _, hsplit, hrollout, hsame, ?_, perm_runs hpart honce⟩
      simp only [List.forall_mem_map]
      intro p hp p' hp'
      refine (hcounts p hp p' hp').mpr fun e he => ?_
      rw [htensors] at hreduced
      exact h.batches reduced hreduced e he _ (List.mem_map.mpr ⟨p, hp, rfl⟩) _
        (List.mem_map.mpr ⟨p', hp', rfl⟩)

variable {microBatchSize : Nat}

/-- What `get_data_iterator` gives a rank with micro-batches of one size. -/
def fixedIterator (numLocalGbs microBatchSize : Nat) (partition : List Nat) : List Nat × Batches :=
  (List.replicate (partition.length / numLocalGbs) (numLocalGbs / microBatchSize),
    .ofSize microBatchSize)

theorem fixedSchedule_eq {numLocalGbs : Nat} {partition : List Nat}
    {iterator : List Nat × Batches}
    (h : fixedSchedule numLocalGbs microBatchSize partition.length = some iterator) :
    iterator = fixedIterator numLocalGbs microBatchSize partition := by
  simp only [fixedSchedule] at h
  split_ifs at h
  exact (Option.some.inj h).symm

/-- The samples of a rank up to the last whole micro-batch are read. -/
theorem exists_fixedRun (numLocalGbs microBatchSize : Nat) (partition : List Nat) :
    ∃ steps, DataIterator.trainSteps partition
        (fixedIterator numLocalGbs microBatchSize partition).1
        ⟨(fixedIterator numLocalGbs microBatchSize partition).2, 0⟩ = some steps ∧
      steps.flatten.flatten = partition.take
        (partition.length / numLocalGbs * (numLocalGbs / microBatchSize) * microBatchSize) := by
  have hle : partition.length / numLocalGbs * (numLocalGbs / microBatchSize) * microBatchSize ≤
      partition.length := by
    rw [Nat.mul_assoc]
    exact (Nat.mul_le_mul_left _ (Nat.div_mul_le_self _ _)).trans (Nat.div_mul_le_self _ _)
  have hsum : (fixedIterator numLocalGbs microBatchSize partition).1.sum =
      partition.length / numLocalGbs * (numLocalGbs / microBatchSize) :=
    List.sum_replicate_nat
  have hbound : 0 + (fixedIterator numLocalGbs microBatchSize partition).1.sum *
      microBatchSize ≤ partition.length := by
    rw [hsum, Nat.zero_add]
    exact hle
  obtain ⟨steps, hsteps, hread⟩ := DataIterator.exists_trainSteps_ofSize hbound
  rw [hsum, List.drop_zero] at hread
  exact ⟨steps, hsteps, hread⟩

theorem trainRollout_fixed
    (hsplit : splitTrainDataByDp args parallel.dpSize totalLengths = some partitions)
    (hiterators : getDataIterator args parallel globalBatchSize
      (partitions.map (localTotalLengths totalLengths)) = some (partitions.map
        (fixedIterator (globalBatchSize / parallel.dpSize) microBatchSize))) :
    let iterator := fixedIterator (globalBatchSize / parallel.dpSize) microBatchSize
    trainRollout args parallel globalBatchSize totalLengths =
        some (partitions.map fun p => runOf (iterator p) p) ∧
      ∀ p ∈ partitions, (runOf (iterator p) p).steps.flatten.flatten = p.take
        (p.length / (globalBatchSize / parallel.dpSize) *
          (globalBatchSize / parallel.dpSize / microBatchSize) * microBatchSize) := by
  intro iterator
  constructor
  · refine trainRollout_eq hsplit hiterators fun p _ => ?_
    obtain ⟨steps, hsteps, -⟩ :=
      exists_fixedRun (globalBatchSize / parallel.dpSize) microBatchSize p
    exact Option.isSome_iff_exists.mpr ⟨steps, hsteps⟩
  · intro p _
    obtain ⟨steps, hsteps, hread⟩ :=
      exists_fixedRun (globalBatchSize / parallel.dpSize) microBatchSize p
    change ((DataIterator.trainSteps p (iterator p).1 ⟨(iterator p).2, 0⟩).getD
      []).flatten.flatten = _
    rw [hsteps]
    exact hread

theorem getDataIterator_fixed (hargs : args.microBatching = .fixed microBatchSize)
    {iterators : List (List Nat × Batches)}
    (h : getDataIterator args parallel globalBatchSize
      (partitions.map (localTotalLengths totalLengths)) = some iterators) :
    iterators =
      partitions.map (fixedIterator (globalBatchSize / parallel.dpSize) microBatchSize) := by
  simp only [getDataIterator, hargs, List.mapM_map] at h
  refine eq_map_of_mapM h fun p _ iterator hiterator => ?_
  rw [Function.comp_apply, length_localTotalLengths] at hiterator
  exact fixedSchedule_eq hiterator

/-- Shares that are read to their ends in as many steps are whole steps of whole micro-batches. -/
theorem dvd_of_reads {n dpSize numLocalGbs : Nat} (hn : 0 < n)
    (hpart : IsSplit n dpSize partitions)
    (hreads : ∀ p ∈ partitions,
      p.length / numLocalGbs * (numLocalGbs / microBatchSize) * microBatchSize = p.length)
    (hsteps : ∀ p ∈ partitions, ∀ p' ∈ partitions,
      p.length / numLocalGbs = p'.length / numLocalGbs) :
    dpSize * numLocalGbs ∣ n ∧ microBatchSize ∣ numLocalGbs := by
  have hcount : n = (partitions.map List.length).sum := by
    rw [← List.length_flatten, hpart.perm.length_eq, List.length_range]
  obtain ⟨first, hfirst, hpos⟩ : ∃ p ∈ partitions, 0 < p.length := by
    by_contra hnone
    have hzero : (partitions.map List.length).sum = 0 := by
      refine List.sum_eq_zero fun n hn' => ?_
      obtain ⟨p, hp, rfl⟩ := List.mem_map.mp hn'
      exact Nat.eq_zero_of_not_pos fun h => hnone ⟨p, hp, h⟩
    omega
  have hquot : 0 < first.length / numLocalGbs := by
    refine Nat.pos_of_ne_zero fun hzero => ?_
    have := hreads first hfirst
    rw [hzero, Nat.zero_mul, Nat.zero_mul] at this
    omega
  have hwhole : numLocalGbs / microBatchSize * microBatchSize = numLocalGbs := by
    refine Nat.le_antisymm (Nat.div_mul_le_self _ _) ?_
    have hle : first.length / numLocalGbs * numLocalGbs ≤
        first.length / numLocalGbs * (numLocalGbs / microBatchSize * microBatchSize) := by
      rw [← Nat.mul_assoc, hreads first hfirst]
      exact Nat.div_mul_le_self _ _
    exact Nat.le_of_mul_le_mul_left hle hquot
  refine ⟨⟨first.length / numLocalGbs, ?_⟩, ⟨numLocalGbs / microBatchSize, ?_⟩⟩
  · have hlength : ∀ p ∈ partitions, p.length = first.length / numLocalGbs * numLocalGbs := by
      intro p hp
      rw [← hsteps p hp first hfirst]
      conv_lhs => rw [← hreads p hp, Nat.mul_assoc, hwhole]
    rw [hcount, List.map_congr_left hlength, List.map_const', List.sum_replicate_nat,
      hpart.length, Nat.mul_assoc, Nat.mul_comm numLocalGbs]
  · rw [Nat.mul_comm]
    exact hwhole.symm

/-- Micro-batches of one size take in all samples exactly when the ranks have equal shares of whole
steps, and a step whole micro-batches. -/
theorem trainsInStep_fixed (hargs : args.microBatching = .fixed microBatchSize)
    (hn : 0 < totalLengths.length) :
    TrainsInStep args parallel globalBatchSize totalLengths ↔
      parallel.dpSize * (globalBatchSize / parallel.dpSize) ∣ totalLengths.length ∧
        microBatchSize ∣ globalBatchSize / parallel.dpSize := by
  have hdp := parallel.dpSize_pos
  constructor
  · rintro ⟨partitions, runs, hsplit, hruns, hinstep⟩
    have hpart := isSplit_of_splitTrainDataByDp hdp hsplit
    obtain ⟨iterators, hiterators⟩ : ∃ iterators, getDataIterator args parallel globalBatchSize
        (partitions.map (localTotalLengths totalLengths)) = some iterators := by
      cases h : getDataIterator args parallel globalBatchSize
          (partitions.map (localTotalLengths totalLengths)) with
      | none =>
        simp only [trainRollout, hsplit, h] at hruns
        cases hruns
      | some iterators => exact ⟨iterators, rfl⟩
    rw [getDataIterator_fixed hargs hiterators] at hiterators
    obtain ⟨hrollout, hread⟩ := trainRollout_fixed hsplit hiterators
    obtain rfl := Option.some.inj (hrollout.symm.trans hruns)
    -- all samples are read, so each rank reads all of its own
    refine dvd_of_reads hn hpart (eq_of_sum_map_eq ?_ ?_) fun p hp p' hp' => ?_
    · intro p _
      rw [Nat.mul_assoc]
      exact (Nat.mul_le_mul_left _ (Nat.div_mul_le_self _ _)).trans (Nat.div_mul_le_self _ _)
    · have hall := hinstep.once.length_eq
      rw [List.length_flatMap, List.map_map, ← hpart.perm.length_eq, List.length_flatten] at hall
      rw [← hall]
      refine congrArg List.sum (List.map_congr_left fun p hp => ?_)
      rw [Function.comp_apply, hread p hp, List.length_take, Nat.min_eq_left]
      rw [Nat.mul_assoc]
      exact (Nat.mul_le_mul_left _ (Nat.div_mul_le_self _ _)).trans (Nat.div_mul_le_self _ _)
    · have heq := hinstep.numMicrobatches _ (List.mem_map.mpr ⟨p, hp, rfl⟩) _
        (List.mem_map.mpr ⟨p', hp', rfl⟩)
      have hcounts := congrArg List.length heq
      simpa only [runOf, fixedIterator, List.length_replicate] using hcounts
  · rintro ⟨hsteps, hbatches⟩
    have hg : 0 < globalBatchSize / parallel.dpSize := by
      refine Nat.pos_of_ne_zero fun hzero => ?_
      rw [hzero, Nat.mul_zero, Nat.zero_dvd] at hsteps
      omega
    have hmbs : microBatchSize ≠ 0 := by
      rintro rfl
      rw [Nat.zero_dvd] at hbatches
      omega
    have hdvd : parallel.dpSize ∣ totalLengths.length := (Nat.dvd_mul_right _ _).trans hsteps
    obtain ⟨partitions, hsplit, hpart⟩ := exists_splitTrainDataByDp args hdp
      fun _ => Nat.le_of_dvd hn hdvd
    have hlength : ∀ p ∈ partitions, p.length * parallel.dpSize = totalLengths.length :=
      hpart.equal hdvd
    have hiterators : getDataIterator args parallel globalBatchSize
        (partitions.map (localTotalLengths totalLengths)) = some (partitions.map
          (fixedIterator (globalBatchSize / parallel.dpSize) microBatchSize)) := by
      simp only [getDataIterator, hargs, List.mapM_map]
      rw [mapM_eq_some_iff, List.map_map]
      refine List.map_congr_left fun p _ => ?_
      rw [Function.comp_apply, Function.comp_apply, length_localTotalLengths, fixedSchedule]
      exact if_neg (not_or.mpr ⟨Nat.ne_of_gt hg, fun h => hmbs h.1⟩)
    obtain ⟨hrollout, hread⟩ := trainRollout_fixed hsplit hiterators
    refine ⟨partitions, _, hsplit, hrollout, ?_, ?_, perm_runs hpart fun p hp => ?_⟩
    · simp only [reducedTensors, hargs]
      exact fun _ ht => absurd ht List.not_mem_nil
    · simp only [List.forall_mem_map]
      intro p hp p' hp'
      have hsame : p.length = p'.length :=
        Nat.eq_of_mul_eq_mul_right hdp ((hlength p hp).trans (hlength p' hp').symm)
      rw [runOf, runOf, fixedIterator, fixedIterator, hsame]
    · have hdvd' : globalBatchSize / parallel.dpSize ∣ p.length := by
        refine Nat.dvd_of_mul_dvd_mul_left hdp ?_
        rw [Nat.mul_comm _ p.length, hlength p hp]
        exact hsteps
      rw [hread p hp, Nat.mul_assoc, Nat.div_mul_cancel hbatches, Nat.div_mul_cancel hdvd',
        List.take_length]

theorem trainsInStep_iff (hn : 0 < totalLengths.length) :
    TrainsInStep args parallel globalBatchSize totalLengths ↔
      Fits args parallel globalBatchSize totalLengths := by
  cases hargs : args.microBatching with
  | fixed microBatchSize =>
    simp only [Fits, hargs]
    exact trainsInStep_fixed hargs hn
  | byTokens maxTokensPerGpu =>
    simp only [Fits, hargs]
    have hdp := parallel.dpSize_pos
    constructor
    · rintro ⟨partitions, runs, hsplit, hruns, hinstep⟩
      have hpart := isSplit_of_splitTrainDataByDp hdp hsplit
      have hg : 0 < globalBatchSize / parallel.dpSize := by
        refine Nat.pos_of_ne_zero fun hzero => ?_
        simp only [trainRollout, hsplit, getDataIterator, hargs, if_pos hzero] at hruns
        cases hruns
      refine ⟨fun hbalance => ?_, hg, fun partitions' hsplit' => ?_⟩
      · by_contra hfew
        rw [splitTrainDataByDp_of_few hbalance (Nat.lt_of_not_le hfew)] at hsplit
        cases hsplit
      · obtain rfl := Option.some.inj (hsplit.symm.trans hsplit')
        exact (trainsInStep_byTokens hg hargs hsplit hpart).mp
          ⟨partitions, runs, hsplit, hruns, hinstep⟩
    · rintro ⟨henough, hg, hagree⟩
      obtain ⟨partitions, hsplit, hpart⟩ := exists_splitTrainDataByDp args hdp henough
      exact (trainsInStep_byTokens hg hargs hsplit hpart).mpr (hagree partitions hsplit)

end Run

section Samples

variable {K : Type*} [Field K] [LinearOrder K]

/-- The lengths of the samples that are left of a rollout. -/
def survivorLengths (args : TrainArgs) (data : List (TrainSample K)) : List Nat :=
  (dropConstantRewardGroups args.reward data).map fun sample => sample.tokens.length

/-- The samples of a rollout that are left after the trim and the drop are trained in step. -/
def SharesSchedule (args : TrainArgs) (parallel : ParallelConfig)
    (samples : List (TrainSample K)) : Prop :=
  ∀ data dynamicGbs, getRolloutData args parallel.dpSize samples = some (data, dynamicGbs) →
    TrainsInStep args parallel (dynamicGbs.getD args.globalBatchSize) (survivorLengths args data)

end Samples

/-- Groups of two samples, without a dynamic global batch size. -/
def groupArgs (microBatching : MicroBatching) (globalBatchSize : Nat) : TrainArgs where
  reward := ⟨.grpo, true, true, false, 2, 2⟩
  globalBatchSize := globalBatchSize
  disableRolloutTrimSamples := false
  useDynamicGlobalBatchSize := false
  numStepsPerRollout := none
  balanceData := false
  microBatching := microBatching

def twoRanks : ParallelConfig := ⟨2, 1, none, by decide, fun _ h => absurd h (by simp)⟩

def sampleOf (group : Int) (reward : ℚ) (length : Nat) : TrainSample ℚ :=
  ⟨⟨some group, none, reward⟩, List.replicate length 0⟩

/-- One of two groups has one reward. -/
def oneConstantGroup : List (TrainSample ℚ) :=
  [sampleOf 0 1 3, sampleOf 0 1 3, sampleOf 1 0 3, sampleOf 1 1 3]

/-- The first rank's samples fit into two micro-batches, but are not balanced so. -/
def unevenSplit : List (TrainSample ℚ) :=
  [sampleOf 0 0 8, sampleOf 0 1 1, sampleOf 1 0 7, sampleOf 1 1 1, sampleOf 2 0 6, sampleOf 2 1 1,
    sampleOf 3 0 5, sampleOf 3 1 1, sampleOf 4 0 4, sampleOf 4 1 1]

end Belayer.Train
