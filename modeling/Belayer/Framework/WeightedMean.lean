import Mathlib.Algebra.Order.BigOperators.Group.List
import Mathlib.Algebra.Order.Field.Basic
import Mathlib.Tactic.Linarith

namespace Belayer.Framework

/-! The greatest value of a list, and the mean of weighted values -/

section Greatest

variable {α : Type*} [LinearOrder α] [Zero α] {l : List α} {a b : α}

/-- The greatest value; 0 of none. -/
def greatest (l : List α) : α := l.foldr max 0

theorem le_greatest (h : a ∈ l) : a ≤ greatest l := by
  induction l with
  | nil => cases h
  | cons c l ih =>
    rcases List.mem_cons.mp h with rfl | h
    · exact le_max_left a (greatest l)
    · exact (ih h).trans (le_max_right c (greatest l))

theorem greatest_nonneg (l : List α) : 0 ≤ greatest l := by
  induction l with
  | nil => exact le_rfl
  | cons c l ih => exact ih.trans (le_max_right c (greatest l))

theorem greatest_append_singleton (l : List α) (a : α) :
    greatest (l ++ [a]) = max (greatest l) a := by
  induction l with
  | nil => exact max_comm a 0
  | cons c l ih =>
    have hcons : ∀ m : List α, greatest (c :: m) = max c (greatest m) := fun _ => rfl
    rw [List.cons_append, hcons, ih, hcons, max_assoc]

end Greatest

section WeightedMean

variable {K : Type*} [Field K] {l : List (K × K)}

def totalWeight (l : List (K × K)) : K := (l.map Prod.fst).sum

/-- The sum of the values by their weights. -/
def weightedSum (l : List (K × K)) : K := (l.map fun p => p.2 * p.1).sum

/-- The mean of values with weights; 0 of none. -/
def weightedMean (l : List (K × K)) : K := weightedSum l / totalWeight l

theorem totalWeight_append_singleton (l : List (K × K)) (p : K × K) :
    totalWeight (l ++ [p]) = totalWeight l + p.1 := by
  simp [totalWeight]

theorem weightedSum_append_singleton (l : List (K × K)) (p : K × K) :
    weightedSum (l ++ [p]) = weightedSum l + p.2 * p.1 := by
  simp [weightedSum]

@[simp] theorem totalWeight_nil : totalWeight ([] : List (K × K)) = 0 := rfl

@[simp] theorem weightedSum_nil : weightedSum ([] : List (K × K)) = 0 := rfl

@[simp] theorem weightedMean_nil : weightedMean ([] : List (K × K)) = 0 := by
  rw [weightedMean, totalWeight_nil, div_zero]

theorem weightedMean_singleton {p : K × K} (hp : p.1 ≠ 0) : weightedMean [p] = p.2 := by
  have hsum : weightedSum [p] = p.2 * p.1 := by simp [weightedSum]
  have htotal : totalWeight [p] = p.1 := by simp [totalWeight]
  rw [weightedMean, hsum, htotal, mul_div_cancel_right₀ p.2 hp]

variable [LinearOrder K] [IsStrictOrderedRing K]

theorem totalWeight_nonneg (hw : ∀ p ∈ l, 0 < p.1) : 0 ≤ totalWeight l := by
  refine List.sum_nonneg ?_
  intro w hmem
  obtain ⟨p, hp, rfl⟩ := List.mem_map.mp hmem
  exact (hw p hp).le

theorem totalWeight_pos (hne : l ≠ []) (hw : ∀ p ∈ l, 0 < p.1) : 0 < totalWeight l := by
  cases l with
  | nil => exact absurd rfl hne
  | cons p l =>
    obtain ⟨hp, hrest⟩ := List.forall_mem_cons.mp hw
    have hcons : totalWeight (p :: l) = p.1 + totalWeight l := by simp [totalWeight]
    rw [hcons]
    exact add_pos_of_pos_of_nonneg hp (totalWeight_nonneg hrest)

theorem weightedMean_eq_ite (hw : ∀ p ∈ l, 0 < p.1) :
    weightedMean l = if 0 < totalWeight l then weightedSum l / totalWeight l else 0 := by
  split_ifs with htotal
  · rfl
  · have hzero : totalWeight l = 0 := le_antisymm (not_lt.mp htotal) (totalWeight_nonneg hw)
    rw [weightedMean, hzero, div_zero]

theorem weightedSum_le {b : K} (hw : ∀ p ∈ l, 0 < p.1) (hb : ∀ p ∈ l, p.2 ≤ b) :
    weightedSum l ≤ b * totalWeight l := by
  induction l with
  | nil => simp [weightedSum, totalWeight]
  | cons p l ih =>
    obtain ⟨hp, hrest⟩ := List.forall_mem_cons.mp hw
    obtain ⟨hle, hbelow⟩ := List.forall_mem_cons.mp hb
    have hsum : weightedSum (p :: l) = p.2 * p.1 + weightedSum l := by simp [weightedSum]
    have htotal : totalWeight (p :: l) = p.1 + totalWeight l := by simp [totalWeight]
    have hfirst : p.2 * p.1 ≤ b * p.1 := mul_le_mul_of_nonneg_right hle hp.le
    have hothers := ih hrest hbelow
    rw [hsum, htotal, mul_add]
    linarith

/-- A mean is no greater than the values are. -/
theorem weightedMean_le {b : K} (hw : ∀ p ∈ l, 0 < p.1) (hb : ∀ p ∈ l, p.2 ≤ b) (hzero : 0 ≤ b) :
    weightedMean l ≤ b := by
  rcases (totalWeight_nonneg hw).eq_or_lt with htotal | htotal
  · rw [weightedMean, ← htotal, div_zero]
    exact hzero
  · rw [weightedMean, div_le_iff₀ htotal]
    exact weightedSum_le hw hb

end WeightedMean

end Belayer.Framework
