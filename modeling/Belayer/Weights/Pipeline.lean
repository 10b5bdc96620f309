import Belayer.Weights.PersistentPs
import Mathlib.Algebra.Order.Group.Int
import Mathlib.Order.Monotone.Basic
import Mathlib.Tactic.Linarith
import Mathlib.Tactic.Ring

namespace Belayer.Weights

open Belayer.Framework

/-- `get_pp_indices` of the inference engine, with the partition that the environment sets;
`none` where it raises. -/
def getPpIndices (layerPartition : Option (List Int)) (numHiddenLayers : Int)
    (ppRank ppSize : Nat) : Option (Int × Int) :=
  match layerPartition with
  | some partitions =>
    if partitions.length ≠ ppSize then none
    else if partitions.sum ≠ numHiddenLayers then none
    else
      let startLayer := (partitions.take ppRank).sum
      partitions[ppRank]?.map fun layers => (startLayer, startLayer + layers)
  | none =>
    let baseLayers := numHiddenLayers / ppSize
    let remainder := numHiddenLayers % ppSize
    if (ppRank : Int) ≥ ppSize - remainder then
      let partitionsWithoutExtraLayer := ppSize - remainder
      let startLayer := ppRank * (baseLayers + 1) - partitionsWithoutExtraLayer
      some (startLayer, startLayer + (baseLayers + 1))
    else
      let startLayer := ppRank * baseLayers
      some (startLayer, startLayer + baseLayers)

/-- The ranges of a sequence of rising bounds have each index between its ends once. -/
theorem existsUnique_between {bound : Nat → Int} (hbound : ∀ {r s}, r ≤ s → bound r ≤ bound s)
    {k : Nat} {i : Int}
    (hfirst : bound 0 ≤ i) (hlast : i < bound k) :
    ∃! r, r < k ∧ bound r ≤ i ∧ i < bound (r + 1) := by
  have hexists : ∃ r, r < k ∧ bound r ≤ i ∧ i < bound (r + 1) := by
    induction k with
    | zero => exact absurd (hfirst.trans_lt hlast) (lt_irrefl _)
    | succ k ih =>
      rcases lt_or_ge i (bound k) with h | h
      · obtain ⟨r, hr, hin⟩ := ih h
        exact ⟨r, hr.trans (Nat.lt_succ_self k), hin⟩
      · exact ⟨k, Nat.lt_succ_self k, h, hlast⟩
  obtain ⟨r, hr, hstart, hstop⟩ := hexists
  refine ⟨r, ⟨hr, hstart, hstop⟩, ?_⟩
  rintro m ⟨-, hmstart, hmstop⟩
  rcases lt_trichotomy m r with h | h | h
  · exact absurd ((hmstop.trans_le (hbound h)).trans_le hstart) (lt_irrefl _)
  · exact h
  · exact absurd ((hstop.trans_le (hbound h)).trans_le hmstart) (lt_irrefl _)

/-- The pipeline of the weight server is that of the engine: every rank has the engine's
range, every layer is in one rank's range, and its tensors go to this rank only. -/
structure PipelineAgrees (numLayers ppSize : Nat) : Prop where
  agrees : ∀ rank < ppSize,
    (computePpBoundaries numLayers ppSize)[rank]? = getPpIndices none numLayers rank ppSize
  partition : ∀ layer < numLayers, ∃! rank, rank < ppSize ∧
    ∃ range ∈ getPpIndices none numLayers rank ppSize,
      range.1 ≤ (layer : Int) ∧ (layer : Int) < range.2
  assigned : ∀ name layer, getLayerId name = some layer → layer < numLayers →
    ∃ rank, targetPpRanks (computePpBoundaries numLayers ppSize) name = [rank] ∧
      ∃ range ∈ getPpIndices none numLayers rank ppSize,
        range.1 ≤ (layer : Int) ∧ (layer : Int) < range.2

variable {numLayers ppSize : Nat}

/-- Where a rank's layers start at the weight server; the bound after the last one is the end. -/
def ppStart (numLayers ppSize rank : Nat) : Int :=
  if rank < ppSize then rank * (numLayers / ppSize : Nat) else numLayers

theorem ppStart_mono (numLayers ppSize : Nat) {r s : Nat} (hrs : r ≤ s) :
    ppStart numLayers ppSize r ≤ ppStart numLayers ppSize s := by
  refine monotone_nat_of_le_succ (fun rank => ?_) hrs
  unfold ppStart
  split_ifs with h h'
  · have hstep : rank * (numLayers / ppSize) ≤ (rank + 1) * (numLayers / ppSize) :=
      Nat.mul_le_mul_right _ (Nat.le_succ rank)
    exact_mod_cast hstep
  · have hrank : rank * (numLayers / ppSize) ≤ ppSize * (numLayers / ppSize) :=
      Nat.mul_le_mul_right _ (Nat.le_of_lt h)
    exact_mod_cast hrank.trans (Nat.mul_div_le numLayers ppSize)
  · omega
  · exact le_refl _

/-- One rank has a layer at the weight server. -/
theorem existsUnique_rank (hpp : 0 < ppSize) {layer : Nat} (hlayer : layer < numLayers) :
    ∃! rank, rank < ppSize ∧ ppStart numLayers ppSize rank ≤ (layer : Int) ∧
      (layer : Int) < ppStart numLayers ppSize (rank + 1) := by
  have hfirst : ppStart numLayers ppSize 0 = 0 := by simp [ppStart, hpp]
  have hlast : ppStart numLayers ppSize ppSize = numLayers := by simp [ppStart]
  refine existsUnique_between (ppStart_mono numLayers ppSize) ?_ ?_
  · rw [hfirst]
    exact Int.natCast_nonneg layer
  · rw [hlast]
    exact_mod_cast hlayer

/-- The range of each rank at the weight server. -/
theorem computePpBoundaries_rank {rank : Nat} (h : rank < ppSize) :
    (computePpBoundaries numLayers ppSize)[rank]? =
      some (ppStart numLayers ppSize rank, ppStart numLayers ppSize (rank + 1)) := by
  unfold computePpBoundaries
  split_ifs with hspecial
  · rw [List.getElem?_replicate_of_lt h]
    rcases hspecial with rfl | hzero
    · obtain rfl : rank = 0 := by omega
      simp [ppStart]
    · obtain rfl : numLayers = 0 := by exact_mod_cast hzero
      simp [ppStart]
  · rw [List.getElem?_map, List.getElem?_range h]
    simp only [Option.map_some, ppStart, if_pos h]
    split_ifs with hnext hlast hlast
    · norm_cast
    · omega
    · omega
    · norm_cast

theorem length_computePpBoundaries (numLayers : Int) (ppSize : Nat) :
    (computePpBoundaries numLayers ppSize).length = ppSize := by
  unfold computePpBoundaries
  split_ifs <;> simp

/-- The tensors of a layer go to the rank that has it in its range. -/
theorem targetPpRanks_of_layer {name : String} {layer rank : Nat}
    (hname : getLayerId name = some layer) (hrank : rank < ppSize)
    (hstart : ppStart numLayers ppSize rank ≤ (layer : Int))
    (hstop : (layer : Int) < ppStart numLayers ppSize (rank + 1)) :
    targetPpRanks (computePpBoundaries numLayers ppSize) name = [rank] := by
  have hlength : rank < (computePpBoundaries numLayers ppSize).length := by
    rwa [length_computePpBoundaries]
  have hfirst : (computePpBoundaries numLayers ppSize).findIdx?
      (fun b => b.1 ≤ (layer : Int) ∧ (layer : Int) < b.2) = some rank := by
    rw [List.findIdx?_eq_some_iff_getElem]
    refine ⟨hlength, ?_, ?_⟩
    · have hget : (computePpBoundaries numLayers ppSize)[rank]? = _ :=
        computePpBoundaries_rank hrank
      rw [List.getElem?_eq_getElem hlength, Option.some.injEq] at hget
      rw [hget]
      exact decide_eq_true ⟨hstart, hstop⟩
    · intro k hk
      have hget : (computePpBoundaries numLayers ppSize)[k]? = _ :=
        computePpBoundaries_rank (hk.trans hrank)
      rw [List.getElem?_eq_getElem (hk.trans hlength), Option.some.injEq] at hget
      rw [hget]
      have hle := ppStart_mono numLayers ppSize (Nat.succ_le_of_lt hk)
      simp only [decide_eq_true_eq, not_and, not_lt]
      exact fun _ => hle.trans hstart
  rw [targetPpRanks, hname]
  simp only [hfirst, Option.toList_some]

/-- A rank that the tensors of a layer go to has the layer in its range. -/
theorem layer_of_targetPpRanks {name : String} {layer rank : Nat}
    (hname : getLayerId name = some layer)
    (h : rank ∈ targetPpRanks (computePpBoundaries numLayers ppSize) name) (hrank : rank < ppSize) :
    ppStart numLayers ppSize rank ≤ (layer : Int) ∧
      (layer : Int) < ppStart numLayers ppSize (rank + 1) := by
  rw [targetPpRanks, hname] at h
  obtain ⟨hlength, hin, -⟩ := List.findIdx?_eq_some_iff_getElem.mp (Option.mem_toList.mp h)
  have hget : (computePpBoundaries numLayers ppSize)[rank]? = _ :=
        computePpBoundaries_rank hrank
  rw [List.getElem?_eq_getElem hlength, Option.some.injEq] at hget
  rw [hget] at hin
  exact of_decide_eq_true hin

/-- With at most one layer left over, which goes to the last rank, the engine has these
ranges too. -/
theorem getPpIndices_rank {rank : Nat} (h : rank < ppSize) (hrest : numLayers % ppSize ≤ 1) :
    getPpIndices none numLayers rank ppSize =
      some (ppStart numLayers ppSize rank, ppStart numLayers ppSize (rank + 1)) := by
  have hn : ppSize * (numLayers / ppSize) + numLayers % ppSize = numLayers :=
    Nat.div_add_mod numLayers ppSize
  have hbase : ((numLayers : Int) / ppSize) = (numLayers / ppSize : Nat) := by norm_cast
  have hrem : ((numLayers : Int) % ppSize) = (numLayers % ppSize : Nat) := by norm_cast
  unfold getPpIndices ppStart
  simp only [hbase, hrem, if_pos h]
  generalize numLayers / ppSize = base at hn
  generalize numLayers % ppSize = rest at hn hrest
  split_ifs with hextra hnext hnext
  · omega
  · obtain rfl : ppSize = rank + 1 := by omega
    obtain rfl : rest = 1 := by omega
    subst hn
    push_cast
    congr 2 <;> ring
  · push_cast
    congr 2
    ring
  · obtain rfl : ppSize = rank + 1 := by omega
    obtain rfl : rest = 0 := by omega
    subst hn
    push_cast
    congr 2
    ring

/-- After the first rank the engine's layers start behind those of an even share. -/
theorem le_of_getPpIndices {rank : Nat} (hrank : 0 < rank)
    {range : Int × Int} (h : range ∈ getPpIndices none numLayers rank ppSize) :
    ((numLayers / ppSize : Nat) : Int) ≤ range.1 := by
  have hbase : ((numLayers : Int) / ppSize) = (numLayers / ppSize : Nat) := by norm_cast
  have hrem : ((numLayers : Int) % ppSize) = (numLayers % ppSize : Nat) := by norm_cast
  have hone : numLayers / ppSize ≤ rank * (numLayers / ppSize) := Nat.le_mul_of_pos_left _ hrank
  unfold getPpIndices at h
  simp only [hbase, hrem] at h
  generalize numLayers / ppSize = base at h hone ⊢
  generalize numLayers % ppSize = rest at h
  split_ifs at h with hextra
  · cases h
    have hle : (base : Int) ≤ rank * base := by exact_mod_cast hone
    linarith [mul_add (rank : Int) base 1]
  · cases h
    change (base : Int) ≤ rank * base
    exact_mod_cast hone

/-- With more than one layer left over, the last rank but one of the engine has one of them. -/
theorem getPpIndices_ne (hrest : 1 < numLayers % ppSize) (hlt : numLayers % ppSize < ppSize) :
    getPpIndices none numLayers (ppSize - 2) ppSize ≠
      some (ppStart numLayers ppSize (ppSize - 2), ppStart numLayers ppSize (ppSize - 1)) := by
  have hbase : ((numLayers : Int) / ppSize) = (numLayers / ppSize : Nat) := by norm_cast
  have hrem : ((numLayers : Int) % ppSize) = (numLayers % ppSize : Nat) := by norm_cast
  obtain ⟨k, rfl⟩ : ∃ k, ppSize = k + 2 := ⟨ppSize - 2, by omega⟩
  intro h
  unfold getPpIndices ppStart at h
  simp only [hbase, hrem] at h
  generalize numLayers / (k + 2) = base at h
  generalize numLayers % (k + 2) = rest at h hrest hlt
  rw [if_pos (by omega), if_pos (by omega), if_pos (by omega)] at h
  obtain ⟨hstart, hstop⟩ := Prod.mk.inj (Option.some.inj h)
  have hk : k + 2 - 2 = k := rfl
  have hk' : k + 2 - 1 = k + 1 := rfl
  rw [hk] at hstart hstop
  rw [hk'] at hstop
  push_cast at hstart hstop
  have hrest_eq : (rest : Int) = 2 := by linarith [hstart, mul_add (k : Int) base 1]
  have hstop_eq : (rest : Int) = 1 := by
    linarith [hstop, mul_add (k : Int) base 1, add_mul (k : Int) 1 base]
  omega

/-- The pipeline shards are the engine's exactly when the ranks share the layers evenly but
for at most one layer. -/
theorem pipelineAgrees_iff (hpp : 0 < ppSize) :
    PipelineAgrees numLayers ppSize ↔ numLayers % ppSize ≤ 1 := by
  constructor
  · intro h
    by_contra hrest
    have hlt := Nat.mod_lt numLayers hpp
    have hrank : ppSize - 2 < ppSize := by omega
    have hagrees := h.agrees (ppSize - 2) hrank
    rw [computePpBoundaries_rank hrank] at hagrees
    have hnext : ppSize - 2 + 1 = ppSize - 1 := by omega
    rw [hnext] at hagrees
    exact getPpIndices_ne (Nat.lt_of_not_le hrest) hlt hagrees.symm
  · intro hrest
    refine ⟨?_, ?_, ?_⟩
    · intro rank hrank
      rw [computePpBoundaries_rank hrank, getPpIndices_rank hrank hrest]
    · intro layer hlayer
      obtain ⟨rank, ⟨hrank, hin⟩, hunique⟩ := existsUnique_rank hpp hlayer
      refine ⟨rank, ⟨hrank, _, getPpIndices_rank hrank hrest, hin⟩, ?_⟩
      rintro m ⟨hm, range, hrange, hmin⟩
      rw [getPpIndices_rank hm hrest] at hrange
      cases hrange
      exact hunique m ⟨hm, hmin⟩
    · intro name layer hname hlayer
      obtain ⟨rank, ⟨hrank, hin⟩, -⟩ := existsUnique_rank hpp hlayer
      exact ⟨rank, targetPpRanks_of_layer hname hrank hin.1 hin.2, _,
        getPpIndices_rank hrank hrest, hin⟩

theorem pipelineAgrees_iff_eight : PipelineAgrees 8 4 ↔ 8 % 4 ≤ 1 :=
  pipelineAgrees_iff (by decide)

/-- Six layers on four ranks: the weight server's third rank has layer 2, the engine's has
layers 2 and 3. -/
theorem not_pipelineAgrees_six : ¬PipelineAgrees 6 4 := by
  intro h
  have hthird := h.agrees 2 (by decide)
  revert hthird
  decide

end Belayer.Weights
