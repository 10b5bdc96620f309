import Mathlib.Algebra.BigOperators.Ring.List
import Mathlib.Algebra.Field.Basic
import Mathlib.Tactic.Ring

namespace Belayer.Framework

/-! Mean and variance of a list in exact arithmetic -/

variable {K : Type*} [Field K]

def mean (l : List K) : K := l.sum / l.length

/-- The unbiased variance. -/
def sampleVariance (l : List K) : K :=
  (l.map fun x => (x - mean l) ^ 2).sum / (l.length - 1)

variable {l l' : List K}

theorem mean_perm (h : l.Perm l') : mean l = mean l' := by
  rw [mean, mean, h.sum_eq, h.length_eq]

theorem sampleVariance_perm (h : l.Perm l') : sampleVariance l = sampleVariance l' := by
  rw [sampleVariance, sampleVariance, mean_perm h, h.length_eq,
    (h.map fun x => (x - mean l') ^ 2).sum_eq]

theorem sum_map_sub_const (l : List K) (c : K) :
    (l.map fun x => x - c).sum = l.sum - l.length * c := by
  induction l with
  | nil => simp
  | cons x l ih =>
    rw [List.map_cons, List.sum_cons, List.sum_cons, ih, List.length_cons]
    push_cast
    ring

/-- The deviations from the mean cancel. -/
theorem sum_map_sub_mean [CharZero K] (l : List K) : (l.map fun x => x - mean l).sum = 0 := by
  rw [sum_map_sub_const]
  cases l with
  | nil => simp
  | cons x l =>
    have hlength : (((x :: l).length : Nat) : K) ≠ 0 := Nat.cast_ne_zero.mpr (Nat.succ_ne_zero _)
    rw [mean, mul_div_cancel₀ _ hlength, sub_self]

theorem sum_map_sub_mean_div [CharZero K] (l : List K) (c : K) :
    (l.map fun x => (x - mean l) / c).sum = 0 := by
  have hmul : (l.map fun x => (x - mean l) / c) = l.map fun x => (x - mean l) * c⁻¹ :=
    List.map_congr_left fun x _ => div_eq_mul_inv _ _
  rw [hmul, List.sum_map_mul_right, sum_map_sub_mean, zero_mul]

end Belayer.Framework
