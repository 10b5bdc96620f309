import Belayer.Train.DataIterator

namespace Belayer.Train

open Belayer.Framework

/-! ### Micro-batches by tokens -/

/-- A sample enters the first batch that has room for it. -/
def firstFit (maxTokensPerGpu : Nat) : List Nat → Nat → List Nat
  | [], length => [length]
  | batch :: batches, length =>
    if batch + length ≤ maxTokensPerGpu then (batch + length) :: batches
    else batch :: firstFit maxTokensPerGpu batches length

/-- `get_minimum_num_micro_batch_size`. -/
def getMinimumNumMicroBatchSize (totalLengths : List Nat) (maxTokensPerGpu : Nat) : Nat :=
  (totalLengths.foldl (firstFit maxTokensPerGpu) []).length

/-- The tensor with which a rank calls the all-reduce; a step without samples is left out. -/
def localNumMicrobatches (numLocalGbs maxTokens : Nat) (totalLengths : List Nat) : List Nat :=
  let numLocalSamples := totalLengths.length
  let dynamicNumSteps :=
    numLocalSamples / numLocalGbs + (if numLocalSamples % numLocalGbs ≠ 0 then 1 else 0)
  (List.range dynamicNumSteps).filterMap fun i =>
    let samples := segmentAt numLocalGbs totalLengths i
    if samples.isEmpty then none else some (getMinimumNumMicroBatchSize samples maxTokens)

/-- `dist.all_reduce` with the maximum, for tensors of one length. -/
def allReduceMax : List (List Nat) → Option (List Nat)
  | [] => some []
  | tensor :: tensors =>
    if ∀ other ∈ tensors, other.length = tensor.length then
      some (tensors.foldl (List.zipWith max) tensor)
    else none

/-- With virtual pipeline stages the number is brought down to whole groups. -/
def alignToGroups (microbatchGroupSize : Option Nat) (num : Nat) : Nat :=
  match microbatchGroupSize with
  | none => num
  | some group => max (num / group * group) 1

/-- The micro-batches of step `i`, clipped to its samples and balanced. -/
def balanceStep (numLocalGbs : Nat) (totalLengths : List Nat) (num i : Nat) :
    Option (Nat × List (List Nat)) :=
  let samples := segmentAt numLocalGbs totalLengths i
  if samples.isEmpty then some (num, [])
  else
    let num := min num samples.length
    (getSeqlenBalancedPartitions samples num false).map fun partitions =>
      (num, partitions.map fun partition => partition.map fun k => k + i * numLocalGbs)

/-- The loop of the safety split over the indices of a micro-batch. -/
def splitLoop (length : Nat → Nat) (maxAllowedTokens : Nat) :
    List Nat → List Nat → Nat → List (List Nat)
  | [], subBatch, _ => if subBatch.isEmpty then [] else [subBatch]
  | idx :: idxs, subBatch, subTokens =>
    if maxAllowedTokens < subTokens + length idx ∧ ¬subBatch.isEmpty then
      subBatch :: splitLoop length maxAllowedTokens idxs [idx] (length idx)
    else splitLoop length maxAllowedTokens idxs (subBatch ++ [idx]) (subTokens + length idx)

/-- The safety split of one micro-batch. -/
def safetySplit (length : Nat → Nat) (maxAllowedTokens : Nat) (idxs : List Nat) :
    List (List Nat) :=
  if maxAllowedTokens < (idxs.map length).sum ∧ 1 < idxs.length then
    splitLoop length maxAllowedTokens idxs [] 0
  else [idxs]

/-- What a rank makes of the reduced numbers. -/
def dynamicSchedule (numLocalGbs maxTokens : Nat) (totalLengths numMicrobatches : List Nat) :
    Option (List Nat × Batches) :=
  match numMicrobatches.zipIdx.mapM fun e => balanceStep numLocalGbs totalLengths e.1 e.2 with
  | none => none
  | some steps =>
    let numMicrobatches := steps.map Prod.fst
    let microBatchIndices := steps.flatMap Prod.snd
    let flatIndices := microBatchIndices.flatten
    if flatIndices.length = totalLengths.length ∧ flatIndices.Nodup then
      let fixed := (cutBy numMicrobatches microBatchIndices).map fun step =>
        step.flatMap (safetySplit (fun i => totalLengths.getD i 0) maxTokens)
      if fixed.flatten.length ≠ microBatchIndices.length then
        some (fixed.map List.length, .ofIndices fixed.flatten)
      else some (numMicrobatches, .ofIndices microBatchIndices)
    else none

/-- The schedule with micro-batches of one size. -/
def fixedSchedule (numLocalGbs microBatchSize numLocalSamples : Nat) :
    Option (List Nat × Batches) :=
  let numStepsPerRollout := numLocalSamples / numLocalGbs
  if numLocalGbs = 0 ∨ microBatchSize = 0 ∧ numStepsPerRollout ≠ 0 then none
  else
    some (List.replicate numStepsPerRollout (numLocalGbs / microBatchSize), .ofSize microBatchSize)

/-- The tensors of the ranks in the all-reduce, given the lengths of their samples. -/
def reducedTensors (args : TrainArgs) (parallel : ParallelConfig) (globalBatchSize : Nat)
    (localLengths : List (List Nat)) : List (List Nat) :=
  match args.microBatching with
  | .fixed _ => []
  | .byTokens maxTokensPerGpu =>
    localLengths.map (localNumMicrobatches (globalBatchSize / parallel.dpSize)
      (maxTokensPerGpu * parallel.cpSize))

/-- `get_data_iterator` on all ranks. -/
def getDataIterator (args : TrainArgs) (parallel : ParallelConfig) (globalBatchSize : Nat)
    (localLengths : List (List Nat)) : Option (List (List Nat × Batches)) :=
  let numLocalGbs := globalBatchSize / parallel.dpSize
  match args.microBatching with
  | .fixed microBatchSize =>
    localLengths.mapM fun totalLengths =>
      fixedSchedule numLocalGbs microBatchSize totalLengths.length
  | .byTokens maxTokensPerGpu =>
    if numLocalGbs = 0 then none
    else
      match allReduceMax (reducedTensors args parallel globalBatchSize localLengths) with
      | none => none
      | some reduced =>
        let numMicrobatches := reduced.map (alignToGroups parallel.microbatchGroupSize)
        localLengths.mapM fun totalLengths =>
          dynamicSchedule numLocalGbs (maxTokensPerGpu * parallel.cpSize) totalLengths
            numMicrobatches

/-! ### The numbers of micro-batches -/

section Numbers

variable {maxTokens numLocalGbs : Nat} {totalLengths : List Nat}

theorem firstFit_ne_nil (batches : List Nat) (length : Nat) :
    firstFit maxTokens batches length ≠ [] := by
  cases batches with
  | nil => exact List.cons_ne_nil _ _
  | cons batch batches =>
    rw [firstFit]
    split_ifs
    · exact List.cons_ne_nil _ _
    · exact List.cons_ne_nil _ _

theorem getMinimumNumMicroBatchSize_pos (h : totalLengths ≠ []) :
    0 < getMinimumNumMicroBatchSize totalLengths maxTokens := by
  obtain ⟨lengths, length, rfl⟩ := (List.eq_nil_or_concat totalLengths).resolve_left h
  rw [getMinimumNumMicroBatchSize, List.concat_eq_append, List.foldl_concat]
  exact List.length_pos_of_ne_nil (firstFit_ne_nil _ _)

/-- The tensor has a number for each step that is begun. -/
theorem localNumMicrobatches_eq (hg : 0 < numLocalGbs) :
    localNumMicrobatches numLocalGbs maxTokens totalLengths =
      (List.range (numSegments numLocalGbs totalLengths.length)).map fun i =>
        getMinimumNumMicroBatchSize (segmentAt numLocalGbs totalLengths i) maxTokens := by
  rw [← List.filterMap_eq_map]
  refine List.filterMap_congr fun i hi => ?_
  have hne := (segment_ne_nil_iff hg).mpr ((lt_numSegments_iff hg).mp (List.mem_range.mp hi))
  dsimp only
  rw [if_neg (fun hempty => hne (List.isEmpty_iff.mp hempty))]
  rfl

theorem length_localNumMicrobatches (hg : 0 < numLocalGbs) :
    (localNumMicrobatches numLocalGbs maxTokens totalLengths).length =
      numSegments numLocalGbs totalLengths.length := by
  rw [localNumMicrobatches_eq hg, List.length_map, List.length_range]

theorem localNumMicrobatches_pos (hg : 0 < numLocalGbs) :
    ∀ num ∈ localNumMicrobatches numLocalGbs maxTokens totalLengths, 0 < num := by
  intro num hnum
  rw [localNumMicrobatches_eq hg] at hnum
  obtain ⟨i, hi, rfl⟩ := List.mem_map.mp hnum
  exact getMinimumNumMicroBatchSize_pos
    ((segment_ne_nil_iff hg).mpr ((lt_numSegments_iff hg).mp (List.mem_range.mp hi)))

/-- The reduced tensor has the length of the tensors, and no smaller numbers. -/
theorem allReduceMax_spec {tensors : List (List Nat)} {reduced : List Nat}
    (h : allReduceMax tensors = some reduced) (hpos : ∀ t ∈ tensors, ∀ num ∈ t, 0 < num) :
    (∀ t ∈ tensors, t.length = reduced.length) ∧ ∀ num ∈ reduced, 0 < num := by
  cases tensors with
  | nil =>
    obtain rfl := Option.some.inj h
    exact ⟨fun _ ht => absurd ht List.not_mem_nil, fun _ hn => absurd hn List.not_mem_nil⟩
  | cons tensor tensors =>
    rw [allReduceMax] at h
    split_ifs at h with hlengths
    have hfold : ∀ (others : List (List Nat)) (t : List Nat),
        (∀ other ∈ others, other.length = t.length) → (∀ num ∈ t, 0 < num) →
          (others.foldl (List.zipWith max) t).length = t.length ∧
            ∀ num ∈ others.foldl (List.zipWith max) t, 0 < num := by
      intro others
      induction others with
      | nil => exact fun t _ ht => ⟨rfl, ht⟩
      | cons other others ih =>
        intro t hothers ht
        have hlength : (List.zipWith max t other).length = t.length := by
          rw [List.length_zipWith, hothers other List.mem_cons_self, Nat.min_self]
        have hnext := ih (List.zipWith max t other)
          (fun u hu => (hothers u (List.mem_cons_of_mem other hu)).trans hlength.symm) (by
            intro num hnum
            obtain ⟨i, hi⟩ := List.mem_iff_getElem?.mp hnum
            obtain ⟨a, b, ha, -, rfl⟩ := List.getElem?_zipWith_eq_some.mp hi
            exact lt_max_of_lt_left (ht a (List.mem_of_getElem? ha)))
        exact ⟨hnext.1.trans hlength, hnext.2⟩
    have hreduced := hfold tensors tensor hlengths (hpos tensor List.mem_cons_self)
    rw [← Option.some.inj h, hreduced.1]
    exact ⟨List.forall_mem_cons.mpr ⟨rfl, hlengths⟩, hreduced.2⟩

theorem allReduceMax_isSome_iff {tensors : List (List Nat)} :
    (allReduceMax tensors).isSome ↔ ∀ t ∈ tensors, ∀ u ∈ tensors, t.length = u.length := by
  cases tensors with
  | nil => exact iff_of_true rfl fun _ ht => absurd ht List.not_mem_nil
  | cons tensor tensors =>
    have hsome : (allReduceMax (tensor :: tensors)).isSome ↔
        ∀ other ∈ tensors, other.length = tensor.length := by
      rw [allReduceMax]
      split_ifs with hlengths
      · exact iff_of_true rfl hlengths
      · exact iff_of_false Bool.false_ne_true hlengths
    rw [hsome]
    constructor
    · intro h t ht u hu
      have hall : ∀ t ∈ tensor :: tensors, t.length = tensor.length :=
        List.forall_mem_cons.mpr ⟨rfl, h⟩
      exact (hall t ht).trans (hall u hu).symm
    · intro h other hother
      exact h other (List.mem_cons_of_mem tensor hother) tensor List.mem_cons_self

theorem alignToGroups_pos {group : Option Nat} {num : Nat} (h : 0 < num) :
    0 < alignToGroups group num := by
  cases group with
  | none => exact h
  | some n => exact Nat.lt_of_lt_of_le Nat.one_pos (le_max_right _ 1)

end Numbers

/-! ### The schedule of a rank -/

section Schedule

variable {length : Nat → Nat} {maxTokens numLocalGbs num i : Nat} {totalLengths : List Nat}

/-- The parts of step `i` before the safety split. -/
def stepParts (numLocalGbs : Nat) (totalLengths : List Nat) (num i : Nat) : List (List Nat) :=
  ((balanceStep numLocalGbs totalLengths num i).map Prod.snd).getD []

/-- The samples of a step are balanced over as many parts as they allow. -/
theorem exists_balanceStep (hg : 0 < numLocalGbs) (hnum : 0 < num)
    (hi : i < numSegments numLocalGbs totalLengths.length) :
    ∃ parts, balanceStep numLocalGbs totalLengths num i =
        some (min num (segmentAt numLocalGbs totalLengths i).length, parts) ∧
      parts.length = min num (segmentAt numLocalGbs totalLengths i).length ∧
      parts.flatten.Perm (segmentAt numLocalGbs (List.range totalLengths.length) i) := by
  have hne : segmentAt numLocalGbs totalLengths i ≠ [] :=
    (segment_ne_nil_iff hg).mpr ((lt_numSegments_iff hg).mp hi)
  have hpositive := List.length_pos_of_ne_nil hne
  obtain ⟨partitions, hpartitions, hpart⟩ := exists_getSeqlenBalancedPartitions
    (lt_min hnum hpositive) (Nat.min_le_right num (segmentAt numLocalGbs totalLengths i).length)
    (fun h : false = true => absurd h Bool.false_ne_true)
  refine ⟨partitions.map fun partition => partition.map fun k => k + i * numLocalGbs, ?_, ?_, ?_⟩
  · rw [balanceStep]
    dsimp only
    rw [if_neg (fun hempty => hne (List.isEmpty_iff.mp hempty)), hpartitions, Option.map_some]
  · rw [List.length_map, hpart.length]
  · have hlength : (segmentAt numLocalGbs (List.range totalLengths.length) i).length =
        (segmentAt numLocalGbs totalLengths i).length := by
      rw [length_segment, length_segment, List.length_range]
    rw [segment_range, hlength, ← List.map_flatten]
    exact hpart.perm.map _

/-- The parts of step `i` are as many as its balancing counts, and hold its samples. -/
theorem stepParts_spec (hg : 0 < numLocalGbs) (hnum : 0 < num)
    (hi : i < numSegments numLocalGbs totalLengths.length) :
    balanceStep numLocalGbs totalLengths num i =
        some ((stepParts numLocalGbs totalLengths num i).length,
          stepParts numLocalGbs totalLengths num i) ∧
      (stepParts numLocalGbs totalLengths num i).length =
        min num (segmentAt numLocalGbs totalLengths i).length ∧
      (stepParts numLocalGbs totalLengths num i).flatten.Perm
        (segmentAt numLocalGbs (List.range totalLengths.length) i) := by
  obtain ⟨parts, hparts, hlength, hperm⟩ := exists_balanceStep hg hnum hi
  have hstep : stepParts numLocalGbs totalLengths num i = parts := by
    rw [stepParts, hparts]
    rfl
  rw [hstep]
  exact ⟨by rw [hparts, hlength], hlength, hperm⟩

theorem flatten_splitLoop (length : Nat → Nat) (maxTokens : Nat) (idxs subBatch : List Nat) (subTokens : Nat) :
    (splitLoop length maxTokens idxs subBatch subTokens).flatten = subBatch ++ idxs := by
  induction idxs generalizing subBatch subTokens with
  | nil =>
    rw [splitLoop]
    split_ifs with hempty
    · rw [List.isEmpty_iff.mp hempty]
      rfl
    · simp
  | cons idx idxs ih =>
    rw [splitLoop]
    split_ifs with hover
    · rw [List.flatten_cons, ih, List.singleton_append]
    · rw [ih, List.append_assoc, List.singleton_append]

theorem flatten_safetySplit (length : Nat → Nat) (maxTokens : Nat) (idxs : List Nat) :
    (safetySplit length maxTokens idxs).flatten = idxs := by
  rw [safetySplit]
  split_ifs with hover
  · rw [flatten_splitLoop, List.nil_append]
  · exact List.flatten_singleton

theorem flatten_safetySplits (length : Nat → Nat) (maxTokens : Nat) (step : List (List Nat)) :
    (step.flatMap (safetySplit length maxTokens)).flatten = step.flatten := by
  induction step with
  | nil => rfl
  | cons idxs step ih =>
    rw [List.flatMap_cons, List.flatten_append, flatten_safetySplit, ih, List.flatten_cons]

theorem safetySplit_ne_nil (length : Nat → Nat) (maxTokens : Nat) (idxs : List Nat) :
    safetySplit length maxTokens idxs ≠ [] := by
  rw [safetySplit]
  split_ifs with hover
  · intro hnil
    have hflat := flatten_splitLoop length maxTokens idxs [] 0
    rw [hnil, List.flatten_nil, List.nil_append] at hflat
    rw [← hflat] at hover
    exact absurd hover.2 (by decide)
  · exact List.cons_ne_nil _ _

theorem length_safetySplits (length : Nat → Nat) (maxTokens : Nat) (step : List (List Nat)) :
    (step.flatMap (safetySplit length maxTokens)).length =
      step.length + (step.map fun idxs => (safetySplit length maxTokens idxs).length - 1).sum := by
  induction step with
  | nil => rfl
  | cons idxs step ih =>
    have hpos := List.length_pos_of_ne_nil (safetySplit_ne_nil length maxTokens idxs)
    rw [List.flatMap_cons, List.length_append, ih, List.map_cons, List.sum_cons, List.length_cons]
    omega

/-- A split that does not split leaves the micro-batch. -/
theorem safetySplit_of_length_eq_one {idxs : List Nat}
    (h : (safetySplit length maxTokens idxs).length = 1) :
    safetySplit length maxTokens idxs = [idxs] := by
  obtain ⟨batch, hbatch⟩ := List.length_eq_one_iff.mp h
  have hflat := flatten_safetySplit length maxTokens idxs
  rw [hbatch, List.flatten_singleton] at hflat
  rw [hbatch, hflat]

/-- Steps that are not split anywhere come out of the safety split as they are. -/
theorem safetySplit_of_length_eq {steps : List (List (List Nat))}
    (h : (steps.map fun step => step.flatMap (safetySplit length maxTokens)).flatten.length =
      steps.flatten.length) :
    (steps.map fun step => step.flatMap (safetySplit length maxTokens)) = steps := by
  have hflat : (steps.map fun step => step.flatMap (safetySplit length maxTokens)).flatten =
      steps.flatten.flatMap (safetySplit length maxTokens) := by
    rw [← List.flatMap_def, ← List.flatMap_id (L := steps), List.flatMap_assoc]
    rfl
  rw [hflat] at h
  have hone := length_eq_one_of_flatMap (fun idxs _ => safetySplit_ne_nil length maxTokens idxs) h
  conv_rhs => rw [← List.map_id steps]
  refine List.map_congr_left fun step hstep => ?_
  have hsame : ∀ idxs ∈ step, safetySplit length maxTokens idxs = [idxs] := fun idxs hidxs =>
    safetySplit_of_length_eq_one (hone idxs (List.mem_flatten.mpr ⟨step, hstep, hidxs⟩))
  rw [List.flatMap_congr hsame, List.flatMap_singleton']
  rfl

/-- How many micro-batches the safety split adds to step `i`. -/
def addedBySplit (numLocalGbs maxTokens : Nat) (totalLengths : List Nat) (num i : Nat) : Nat :=
  ((stepParts numLocalGbs totalLengths num i).map fun idxs =>
    (safetySplit (fun k => totalLengths.getD k 0) maxTokens idxs).length - 1).sum

/-- How many micro-batches of step `i` are clipped. -/
def clippedAway (numLocalGbs : Nat) (totalLengths : List Nat) (num i : Nat) : Nat :=
  num - (segmentAt numLocalGbs totalLengths i).length

/-- The micro-batches of step `i` in the end. -/
def stepBatches (numLocalGbs maxTokens : Nat) (totalLengths : List Nat) (num i : Nat) :
    List (List Nat) :=
  (stepParts numLocalGbs totalLengths num i).flatMap
    (safetySplit (fun k => totalLengths.getD k 0) maxTokens)

theorem length_stepBatches (maxTokens : Nat) (hg : 0 < numLocalGbs) (hnum : 0 < num)
    (hi : i < numSegments numLocalGbs totalLengths.length) :
    (stepBatches numLocalGbs maxTokens totalLengths num i).length +
        clippedAway numLocalGbs totalLengths num i =
      num + addedBySplit numLocalGbs maxTokens totalLengths num i := by
  have hlength := (stepParts_spec hg hnum hi).2.1
  rw [stepBatches, addedBySplit, clippedAway, length_safetySplits, hlength]
  omega

/-- The parts of the steps hold each sample of the rank once. -/
theorem stepParts_places {numMicrobatches : List Nat} (hg : 0 < numLocalGbs)
    (hlength : numMicrobatches.length = numSegments numLocalGbs totalLengths.length)
    (hparts : ∀ e ∈ numMicrobatches.zipIdx,
      (stepParts numLocalGbs totalLengths e.1 e.2).flatten.Perm
        (segmentAt numLocalGbs (List.range totalLengths.length) e.2)) :
    (numMicrobatches.zipIdx.map fun e =>
      stepParts numLocalGbs totalLengths e.1 e.2).flatten.flatten.Perm
        (List.range totalLengths.length) := by
  have hplace : numMicrobatches.zipIdx.map Prod.snd =
      List.range (numSegments numLocalGbs totalLengths.length) := by
    rw [List.zipIdx_map_snd, hlength, List.range_eq_range']
  have hcover : (List.range totalLengths.length).length ≤
      numSegments numLocalGbs totalLengths.length * numLocalGbs := by
    rw [List.length_range]
    exact le_numSegments_mul hg
  -- the segments of the steps, one after the other, are all the places
  have hsegments := flatMap_segment hcover
  rw [← hplace, List.flatMap_map] at hsegments
  rw [List.flatten_flatten, List.map_map, ← List.flatMap_def]
  exact (List.Perm.flatMap_left _ hparts).trans (List.Perm.of_eq hsegments)

/-- A rank has each of its samples in one of the micro-batches of its steps. -/
theorem exists_dynamicSchedule {numMicrobatches : List Nat} (maxTokens : Nat) (hg : 0 < numLocalGbs)
    (hlength : numMicrobatches.length = numSegments numLocalGbs totalLengths.length)
    (hpos : ∀ num ∈ numMicrobatches, 0 < num) :
    ∃ indices, dynamicSchedule numLocalGbs maxTokens totalLengths numMicrobatches =
        some (numMicrobatches.zipIdx.map fun e =>
          (stepBatches numLocalGbs maxTokens totalLengths e.1 e.2).length, .ofIndices indices) ∧
      indices = numMicrobatches.zipIdx.flatMap (fun e =>
        stepBatches numLocalGbs maxTokens totalLengths e.1 e.2) ∧
      indices.flatten.Perm (List.range totalLengths.length) := by
  have hbalance : ∀ e ∈ numMicrobatches.zipIdx,
      balanceStep numLocalGbs totalLengths e.1 e.2 =
          some ((stepParts numLocalGbs totalLengths e.1 e.2).length,
            stepParts numLocalGbs totalLengths e.1 e.2) ∧
        (stepParts numLocalGbs totalLengths e.1 e.2).flatten.Perm
          (segmentAt numLocalGbs (List.range totalLengths.length) e.2) := by
    intro e he
    obtain ⟨-, hlt, hget⟩ := List.mem_zipIdx he
    rw [Nat.zero_add, hlength] at hlt
    have hnum : 0 < e.1 := by
      rw [hget]
      exact hpos _ (List.getElem_mem _)
    obtain ⟨hstep, -, hperm⟩ := stepParts_spec hg hnum hlt
    exact ⟨hstep, hperm⟩
  have hplaces := stepParts_places hg hlength fun e he => (hbalance e he).2
  set steps := numMicrobatches.zipIdx.map fun e =>
    stepParts numLocalGbs totalLengths e.1 e.2 with hsteps
  have hmap : (numMicrobatches.zipIdx.mapM fun e =>
      balanceStep numLocalGbs totalLengths e.1 e.2) =
        some (steps.map fun parts => (parts.length, parts)) := by
    rw [mapM_eq_some_iff, hsteps, List.map_map, List.map_map]
    exact List.map_congr_left fun e he => (hbalance e he).1
  set final := steps.map fun step =>
    step.flatMap (safetySplit (fun k => totalLengths.getD k 0) maxTokens) with hfinal
  have hbatches : final = numMicrobatches.zipIdx.map fun e =>
      stepBatches numLocalGbs maxTokens totalLengths e.1 e.2 := by
    rw [hfinal, hsteps, List.map_map]
    rfl
  refine ⟨final.flatten, ?_, ?_, ?_⟩
  · have hcounts : (steps.map fun parts => (parts.length, parts)).map Prod.fst =
        steps.map List.length := by
      rw [List.map_map]
      rfl
    have hindices : (steps.map fun parts => (parts.length, parts)).flatMap Prod.snd =
        steps.flatten := by
      rw [List.flatMap_map, List.flatMap_id']
    have hnums : (numMicrobatches.zipIdx.map fun e =>
        (stepBatches numLocalGbs maxTokens totalLengths e.1 e.2).length) =
          final.map List.length := by
      rw [hbatches, List.map_map]
      rfl
    have hdistinct : steps.flatten.flatten.length = totalLengths.length ∧
        steps.flatten.flatten.Nodup := by
      refine ⟨?_, hplaces.nodup_iff.mpr List.nodup_range⟩
      rw [hplaces.length_eq, List.length_range]
    rw [dynamicSchedule, hmap, hnums]
    dsimp only
    rw [hcounts, hindices, if_pos hdistinct, cutBy_flatten, ← hfinal]
    split_ifs with hsame
    · rfl
    · -- nothing is split
      have hnone : final = steps := safetySplit_of_length_eq (not_not.mp hsame)
      rw [hnone]
  · rw [hbatches, List.flatMap_def]
  · have hflat : final.flatten.flatten = steps.flatten.flatten := by
      rw [List.flatten_flatten, List.flatten_flatten, hfinal, List.map_map]
      exact congrArg List.flatten (List.map_congr_left fun step _ => flatten_safetySplits _ _ step)
    rw [hflat]
    exact hplaces

end Schedule

end Belayer.Train
