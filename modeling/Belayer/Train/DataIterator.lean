import Belayer.Framework.Traverse
import Belayer.Train.TrainData

namespace Belayer.Train

open Belayer.Framework

/-! ### Micro-batches that are read one by one -/

/-- What a `DataIterator` is built with: a size, or the indices of each micro-batch. -/
inductive Batches where
  | ofSize (microBatchSize : Nat)
  | ofIndices (microBatchIndices : List (List Nat))

structure DataIterator where
  batches : Batches
  offset : Nat

namespace DataIterator

/-- `get_next` for one key of the rollout data. -/
def getNext (it : DataIterator) (vals : List Nat) : Option (List Nat × DataIterator) :=
  match it.batches with
  | .ofIndices microBatchIndices =>
    match microBatchIndices[it.offset]? with
    | none => none
    | some indices =>
      (indices.mapM fun i => vals[i]?).map fun batch =>
        (batch, { it with offset := it.offset + 1 })
  | .ofSize microBatchSize =>
    if it.offset + microBatchSize ≤ vals.length then
      some ((vals.drop it.offset).take microBatchSize,
        { it with offset := it.offset + microBatchSize })
    else none

/-- The micro-batches of one training step. -/
def takeStep (vals : List Nat) : Nat → DataIterator → Option (List (List Nat) × DataIterator)
  | 0, it => some ([], it)
  | n + 1, it =>
    match it.getNext vals with
    | none => none
    | some (batch, it) =>
      (takeStep vals n it).map fun rest => (batch :: rest.1, rest.2)

/-- The training goes through the steps of `num_microbatches`. -/
def trainSteps (vals : List Nat) : List Nat → DataIterator → Option (List (List (List Nat)))
  | [], _ => some []
  | num :: numMicrobatches, it =>
    match takeStep vals num it with
    | none => none
    | some (step, it) => (trainSteps vals numMicrobatches it).map fun steps => step :: steps

variable {vals numMicrobatches : List Nat} {size offset n : Nat} {indices : List (List Nat)}

theorem exists_takeStep_ofSize (h : offset + n * size ≤ vals.length) :
    ∃ step, takeStep vals n ⟨.ofSize size, offset⟩ =
        some (step, ⟨.ofSize size, offset + n * size⟩) ∧
      step.flatten = (vals.drop offset).take (n * size) := by
  induction n generalizing offset with
  | zero => exact ⟨[], by rw [Nat.zero_mul]; rfl, by rw [Nat.zero_mul, List.take_zero]; rfl⟩
  | succ n ih =>
    rw [Nat.succ_mul] at h
    obtain ⟨rest, hrest, hflat⟩ := ih (by omega : offset + size + n * size ≤ vals.length)
    have hsum : offset + size + n * size = offset + (n + 1) * size := by
      rw [Nat.succ_mul]
      omega
    refine ⟨(vals.drop offset).take size :: rest, ?_, ?_⟩
    · rw [takeStep, getNext]
      dsimp only
      rw [if_pos (by omega)]
      dsimp only
      rw [hrest, Option.map_some, hsum]
    · rw [List.flatten_cons, hflat, Nat.succ_mul, Nat.add_comm (n * size), List.take_add,
        List.drop_drop]

theorem exists_trainSteps_ofSize (h : offset + numMicrobatches.sum * size ≤ vals.length) :
    ∃ steps, trainSteps vals numMicrobatches ⟨.ofSize size, offset⟩ = some steps ∧
      steps.flatten.flatten = (vals.drop offset).take (numMicrobatches.sum * size) := by
  induction numMicrobatches generalizing offset with
  | nil => exact ⟨[], rfl, by rw [List.sum_nil, Nat.zero_mul, List.take_zero]; rfl⟩
  | cons num numMicrobatches ih =>
    rw [List.sum_cons, Nat.add_mul] at h
    obtain ⟨step, hstep, hflat⟩ :=
      exists_takeStep_ofSize (by omega : offset + num * size ≤ vals.length)
    obtain ⟨steps, hsteps, hrest⟩ := ih
      (by omega : offset + num * size + numMicrobatches.sum * size ≤ vals.length)
    refine ⟨step :: steps, ?_, ?_⟩
    · rw [trainSteps, hstep]
      dsimp only
      rw [hsteps, Option.map_some]
    · rw [List.flatten_cons, List.flatten_append, hflat, hrest, List.sum_cons, Nat.add_mul,
        List.take_add, List.drop_drop]

theorem mapM_getElem? {l : List Nat} (hl : ∀ i ∈ l, i < vals.length) :
    (l.mapM fun i => vals[i]?) = some (l.map fun i => vals.getD i 0) := by
  rw [mapM_eq_some_iff, List.map_map]
  refine List.map_congr_left fun i hi => ?_
  rw [Function.comp_apply, List.getD_eq_getElem?_getD, List.getElem?_eq_getElem (hl i hi),
    Option.getD_some]

theorem takeStep_ofIndices (hindices : ∀ l ∈ indices, ∀ i ∈ l, i < vals.length)
    (h : offset + n ≤ indices.length) :
    takeStep vals n ⟨.ofIndices indices, offset⟩ =
      some (((indices.drop offset).take n).map fun l => l.map fun i => vals.getD i 0,
        ⟨.ofIndices indices, offset + n⟩) := by
  induction n generalizing offset with
  | zero => rfl
  | succ n ih =>
    have hlt : offset < indices.length := by omega
    have hget := mapM_getElem? (hindices _ (List.getElem_mem hlt))
    rw [takeStep, getNext]
    dsimp only
    rw [List.getElem?_eq_getElem hlt]
    dsimp only
    rw [hget, Option.map_some]
    dsimp only
    rw [ih (by omega), Option.map_some, List.drop_eq_getElem_cons hlt, List.take_succ_cons,
      List.map_cons, Nat.add_right_comm, Nat.add_assoc]

theorem trainSteps_ofIndices (hindices : ∀ l ∈ indices, ∀ i ∈ l, i < vals.length)
    (h : offset + numMicrobatches.sum ≤ indices.length) :
    trainSteps vals numMicrobatches ⟨.ofIndices indices, offset⟩ =
      some ((cutBy numMicrobatches (indices.drop offset)).map fun step =>
        step.map fun l => l.map fun i => vals.getD i 0) := by
  induction numMicrobatches generalizing offset with
  | nil => rfl
  | cons num numMicrobatches ih =>
    rw [List.sum_cons] at h
    rw [trainSteps, takeStep_ofIndices hindices (by omega)]
    dsimp only
    rw [ih (by omega), Option.map_some, cutBy, List.map_cons, List.drop_drop]

/-- A schedule that has each place once reads each value once. -/
theorem exists_trainSteps_ofIndices (hsum : numMicrobatches.sum = indices.length)
    (hperm : indices.flatten.Perm (List.range vals.length)) :
    ∃ steps, trainSteps vals numMicrobatches ⟨.ofIndices indices, 0⟩ = some steps ∧
      steps.flatten.flatten.Perm vals := by
  have hindices : ∀ l ∈ indices, ∀ i ∈ l, i < vals.length := fun l hl i hi =>
    List.mem_range.mp (hperm.subset (List.mem_flatten.mpr ⟨l, hl, hi⟩))
  refine ⟨_, trainSteps_ofIndices hindices (by omega), ?_⟩
  have hflat : (cutBy numMicrobatches indices).flatten = indices := flatten_cutBy hsum.ge
  have hvals : (List.range vals.length).map (fun i => vals.getD i 0) = vals := by
    apply List.ext_getElem?
    intro i
    by_cases hi : i < vals.length
    · rw [List.getElem?_map, List.getElem?_range hi, Option.map_some,
        List.getD_eq_getElem?_getD, List.getElem?_eq_getElem hi, Option.getD_some]
    · rw [List.getElem?_eq_none (by simpa using hi), List.getElem?_eq_none (by omega)]
  rw [List.drop_zero, ← List.map_flatten, hflat, ← List.map_flatten]
  exact (hperm.map _).trans (List.Perm.of_eq hvals)

end DataIterator

end Belayer.Train
