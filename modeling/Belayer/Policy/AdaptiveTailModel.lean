import Belayer.Framework.Bisect
import Belayer.Framework.Centered
import Mathlib.Algebra.Order.BigOperators.Group.List
import Mathlib.Algebra.Order.Field.Rat
import Mathlib.Tactic.FieldSimp
import Mathlib.Tactic.Linarith
import Mathlib.Tactic.Positivity

namespace Belayer.Policy

open Belayer.Framework

/-- The recorded waits, sorted, with the sums of the shortest ones. -/
structure AdaptiveTailModel (K : Type*) [Field K] [LinearOrder K] where
  sortedWaits : List K
  prefixSums : List K
  budgetSec : K
  sorted : sortedWaits.Pairwise (· ≤ ·)
  prefixSums_eq : prefixSums = Framework.prefixSums sortedWaits

variable {K : Type*} [Field K] [LinearOrder K]

namespace AdaptiveTailModel

/-- `from_waits`. -/
def fromWaits (waits : List K) (budgetSec : K) : AdaptiveTailModel K where
  sortedWaits := (waits.filter (0 < ·)).insertionSort (· ≤ ·)
  prefixSums := Framework.prefixSums ((waits.filter (0 < ·)).insertionSort (· ≤ ·))
  budgetSec := budgetSec
  sorted := List.pairwise_insertionSort (· ≤ ·) _
  prefixSums_eq := rfl

@[simp] theorem fromWaits_budgetSec (waits : List K) (budgetSec : K) :
    (fromWaits waits budgetSec).budgetSec = budgetSec := rfl

variable (model : AdaptiveTailModel K)

/-- `conditional_tail_probability`; without a horizon it is the budget. -/
def conditionalTailProbability (waitedSec : K) (horizonSec : Option K) : K :=
  if model.sortedWaits.isEmpty then 0
  else
    let horizon := horizonSec.getD model.budgetSec
    let lo := bisectRight model.sortedWaits waitedSec
    let survivors := model.sortedWaits.length - lo
    if survivors = 0 then 0
    else
      let hi := bisectRight model.sortedWaits (waitedSec + horizon)
      let tailCount := model.sortedWaits.length - hi
      (tailCount : K) / survivors

/-- `expected_exposed_overhead`. -/
def expectedExposedOverhead (waitedSec : K) : K :=
  if model.sortedWaits.isEmpty then model.budgetSec
  else
    let lo := bisectRight model.sortedWaits waitedSec
    let survivors := model.sortedWaits.length - lo
    if survivors = 0 then model.budgetSec
    else
      let hi := bisectRight model.sortedWaits (waitedSec + model.budgetSec)
      let partialCount := hi - lo
      if partialCount = 0 then 0
      else
        let partialSum := model.prefixSums.getD hi 0 - model.prefixSums.getD lo 0
        let exposedTotal := (partialCount : K) * (waitedSec + model.budgetSec) - partialSum
        max 0 (exposedTotal / survivors)

end AdaptiveTailModel

/-- The positive recorded waits that are longer than what was waited. -/
def survivors (waits : List K) (waited : K) : List K := waits.filter fun x => 0 < x ∧ waited < x

/-- What the model is to answer: the expected overhead and the probability of the tail. -/
structure TailAnswers (waits : List K) (waited budget overhead tail : K) : Prop where
  overhead_eq : overhead =
    if survivors waits waited = [] then budget
    else mean ((survivors waits waited).map fun x => max 0 (waited + budget - x))
  tail_eq : tail =
    if survivors waits waited = [] then 0
    else (((survivors waits waited).filter (waited + budget < ·)).length : K) /
      (survivors waits waited).length
  overhead_nonneg : 0 ≤ overhead
  overhead_le : overhead ≤ budget
  overhead_le_mul : survivors waits waited ≠ [] → overhead ≤ budget * (1 - tail)

/-! The sorted list and the recorded one -/

variable {waits : List K} {waited budget : K}

theorem filter_sortedWaits_perm (waits : List K) (budget waited : K) :
    ((AdaptiveTailModel.fromWaits waits budget).sortedWaits.filter (waited < ·)).Perm
      (survivors waits waited) := by
  have hsame : survivors waits waited = (waits.filter (0 < ·)).filter (waited < ·) := by
    rw [survivors, List.filter_filter]
    refine List.filter_congr fun x _ => ?_
    rw [Bool.decide_and, Bool.and_comm]
  rw [hsame]
  exact (List.perm_insertionSort (· ≤ ·) _).filter _

/-- What the two sums leave. -/
theorem prefixSums_sub {a : List K} {w c : K} (hsorted : a.Pairwise (· ≤ ·)) (hwc : w ≤ c) :
    (prefixSums a).getD (bisectRight a c) 0 - (prefixSums a).getD (bisectRight a w) 0 =
      ((a.filter (w < ·)).filter (· ≤ c)).sum := by
  rw [getD_prefixSums (bisectRight_le_length hsorted c),
    getD_prefixSums (bisectRight_le_length hsorted w), take_bisectRight hsorted,
    take_bisectRight hsorted, filter_le_split hsorted hwc, List.sum_append]
  ring

variable [IsStrictOrderedRing K] (model : AdaptiveTailModel K)

namespace AdaptiveTailModel

/-- The tail probability, read off the waits that are longer than what was waited. -/
theorem conditionalTailProbability_eq (waited : K) (hbudget : 0 ≤ model.budgetSec) :
    model.conditionalTailProbability waited none =
      if model.sortedWaits.filter (waited < ·) = [] then 0
      else (((model.sortedWaits.filter (waited < ·)).filter
          (waited + model.budgetSec < ·)).length : K) /
        (model.sortedWaits.filter (waited < ·)).length := by
  have hcount := length_sub_bisectRight model.sorted waited
  have htail : model.sortedWaits.length - bisectRight model.sortedWaits (waited + model.budgetSec) =
      ((model.sortedWaits.filter (waited < ·)).filter (waited + model.budgetSec < ·)).length := by
    rw [length_sub_bisectRight model.sorted, List.filter_filter]
    congr 1
    refine List.filter_congr fun x _ => ?_
    by_cases hx : waited + model.budgetSec < x
    · have hwaited : waited < x := by linarith
      simp [hx, hwaited]
    · simp [hx]
  unfold conditionalTailProbability
  simp only [Option.getD_none, hcount, htail, List.length_eq_zero_iff]
  by_cases hempty : model.sortedWaits = []
  · simp [hempty]
  · rw [if_neg (by simpa using hempty)]

/-- The expected overhead, read off the waits that are longer than what was waited. -/
theorem expectedExposedOverhead_eq (waited : K) (hbudget : 0 ≤ model.budgetSec) :
    model.expectedExposedOverhead waited =
      if model.sortedWaits.filter (waited < ·) = [] then model.budgetSec
      else mean ((model.sortedWaits.filter (waited < ·)).map fun x =>
        max 0 (waited + model.budgetSec - x)) := by
  have hcount := length_sub_bisectRight model.sorted waited
  have hle : waited ≤ waited + model.budgetSec := by linarith
  have hpartial := bisectRight_sub model.sorted hle
  have hsum := prefixSums_sub model.sorted hle
  unfold expectedExposedOverhead
  simp only [model.prefixSums_eq, hcount, hpartial, hsum, List.length_eq_zero_iff]
  by_cases hempty : model.sortedWaits = []
  · simp [hempty]
  · rw [if_neg (by simpa using hempty)]
    by_cases hnone : model.sortedWaits.filter (waited < ·) = []
    · rw [if_pos hnone, if_pos hnone]
    · rw [if_neg hnone, if_neg hnone, mean, sum_map_max_sub, List.length_map]
      split_ifs with hzero
      · rw [hzero]
        simp
      · refine max_eq_right (div_nonneg ?_ (Nat.cast_nonneg _))
        rw [← sum_map_max_sub]
        refine List.sum_nonneg fun y hy => ?_
        obtain ⟨x, -, rfl⟩ := List.mem_map.mp hy
        exact le_max_left _ _

end AdaptiveTailModel

/-! Bounds -/

/-- Each survivor is above what was waited, so that its overhead is at most the budget, and there
is none for those in the tail. -/
theorem sum_overhead_le (hbudget : 0 ≤ budget) {l : List K} (hl : ∀ x ∈ l, waited < x) :
    (l.map fun x => max 0 (waited + budget - x)).sum ≤
      budget * (l.length - (l.filter (waited + budget < ·)).length) := by
  induction l with
  | nil => simp
  | cons x l ih =>
    obtain ⟨hx, hrest⟩ := List.forall_mem_cons.mp hl
    have hsum := ih hrest
    rw [List.map_cons, List.sum_cons, List.length_cons]
    by_cases htail : waited + budget < x
    · rw [List.filter_cons_of_pos (by simpa using htail), List.length_cons,
        max_eq_left (by linarith)]
      push_cast
      linarith
    · have hfirst : max 0 (waited + budget - x) ≤ budget := max_le hbudget (by linarith)
      rw [List.filter_cons_of_neg (by simpa using htail)]
      push_cast
      linarith

theorem mean_overhead_le (hbudget : 0 ≤ budget) {l : List K} (hne : l ≠ [])
    (hl : ∀ x ∈ l, waited < x) :
    mean (l.map fun x => max 0 (waited + budget - x)) ≤
      budget * (1 - ((l.filter (waited + budget < ·)).length : K) / l.length) := by
  have hlength : (0 : K) < l.length := Nat.cast_pos.mpr (List.length_pos_iff.mpr hne)
  rw [mean, List.length_map, div_le_iff₀ hlength]
  calc (l.map fun x => max 0 (waited + budget - x)).sum
      ≤ budget * (l.length - (l.filter (waited + budget < ·)).length) := sum_overhead_le hbudget hl
    _ = budget * (1 - ((l.filter (waited + budget < ·)).length : K) / l.length) * l.length := by
      field_simp

theorem mean_overhead_nonneg (l : List K) :
    0 ≤ mean (l.map fun x => max 0 (waited + budget - x)) := by
  refine div_nonneg (List.sum_nonneg fun y hy => ?_) (Nat.cast_nonneg _)
  obtain ⟨x, -, rfl⟩ := List.mem_map.mp hy
  exact le_max_left _ _

/-- The model answers with the mean over the survivors and with the fraction of them in the tail. -/
theorem fromWaits_tailAnswers (waits : List K) (waited : K) (hbudget : 0 ≤ budget) :
    TailAnswers waits waited budget
      ((AdaptiveTailModel.fromWaits waits budget).expectedExposedOverhead waited)
      ((AdaptiveTailModel.fromWaits waits budget).conditionalTailProbability waited none) := by
  have hperm := filter_sortedWaits_perm waits budget waited
  have hnil : (AdaptiveTailModel.fromWaits waits budget).sortedWaits.filter (waited < ·) = [] ↔
      survivors waits waited = [] := by
    rw [← List.length_eq_zero_iff, hperm.length_eq, List.length_eq_zero_iff]
  have hoverhead := (AdaptiveTailModel.fromWaits waits budget).expectedExposedOverhead_eq waited
    hbudget
  have htail := (AdaptiveTailModel.fromWaits waits budget).conditionalTailProbability_eq waited
    hbudget
  simp only [hnil, mean_perm (hperm.map _), AdaptiveTailModel.fromWaits_budgetSec] at hoverhead
  simp only [hnil, (hperm.filter _).length_eq, hperm.length_eq,
    AdaptiveTailModel.fromWaits_budgetSec] at htail
  have hsurvive : ∀ x ∈ survivors waits waited, waited < x := fun x hx =>
    (of_decide_eq_true (List.mem_filter.mp hx).2).2
  have hone : ∀ n m : Nat, (1 : K) - (n : K) / m ≤ 1 := fun n m =>
    sub_le_self 1 (div_nonneg (Nat.cast_nonneg n) (Nat.cast_nonneg m))
  rw [hoverhead, htail]
  by_cases hnone : survivors waits waited = []
  · simp only [if_pos hnone]
    exact ⟨by rw [if_pos hnone], by rw [if_pos hnone], hbudget, le_refl _, fun h => absurd hnone h⟩
  · have hmean := mean_overhead_le hbudget hnone hsurvive
    simp only [if_neg hnone]
    refine ⟨by rw [if_neg hnone], by rw [if_neg hnone]; rfl, mean_overhead_nonneg _, ?_,
      fun _ => hmean⟩
    exact hmean.trans (mul_le_of_le_one_right hbudget (hone _ _))

theorem fromWaits_tailAnswers_ties :
    TailAnswers [5, 8, 12, 8, (0 : ℚ)] 5 3
      ((AdaptiveTailModel.fromWaits [5, 8, 12, 8, 0] 3).expectedExposedOverhead 5)
      ((AdaptiveTailModel.fromWaits [5, 8, 12, 8, 0] 3).conditionalTailProbability 5 none) :=
  fromWaits_tailAnswers _ _ (by norm_num)

end Belayer.Policy
