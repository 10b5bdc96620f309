import Mathlib.Algebra.BigOperators.Group.List.Basic
import Mathlib.Algebra.Field.Basic
import Mathlib.Algebra.Order.Group.Unbundled.Basic
import Mathlib.Data.List.Induction
import Mathlib.Data.List.Sort
import Mathlib.Order.Lattice
import Mathlib.Tactic.Ring

namespace Belayer.Framework

section Search

variable {α : Type*} [LinearOrder α]

/-- The loop of `bisect.bisect_right`, which has `fuel` rounds left. -/
def bisectLoop (a : List α) (x : α) : Nat → Nat → Nat → Nat
  | 0, lo, _ => lo
  | fuel + 1, lo, hi =>
    if lo < hi then
      let mid := (lo + hi) / 2
      match a[mid]? with
      | none => lo
      | some y => if x < y then bisectLoop a x fuel lo mid else bisectLoop a x fuel (mid + 1) hi
    else lo

/-- `bisect.bisect_right(a, x)`. -/
def bisectRight (a : List α) (x : α) : Nat := bisectLoop a x a.length 0 a.length

/-- The place where the elements up to `x` end. -/
def SplitsAt (a : List α) (x : α) (i : Nat) : Prop :=
  i ≤ a.length ∧ (∀ j y, j < i → a[j]? = some y → y ≤ x) ∧ ∀ j y, i ≤ j → a[j]? = some y → x < y

variable {a : List α} {x : α}

theorem getElem?_le_of_sorted (hsorted : a.Pairwise (· ≤ ·)) {i j : Nat} {y z : α} (hij : i ≤ j)
    (hi : a[i]? = some y) (hj : a[j]? = some z) : y ≤ z := by
  obtain ⟨hilt, rfl⟩ := List.getElem?_eq_some_iff.mp hi
  obtain ⟨hjlt, rfl⟩ := List.getElem?_eq_some_iff.mp hj
  rcases Nat.eq_or_lt_of_le hij with rfl | hlt
  · exact le_refl _
  · exact List.pairwise_iff_getElem.mp hsorted i j hilt hjlt hlt

/-- What is before `lo` is at most `x`, and what is behind `hi` above it. -/
theorem splitsAt_bisectLoop (hsorted : a.Pairwise (· ≤ ·)) {fuel lo hi : Nat}
    (hfuel : hi - lo ≤ fuel) (hle : lo ≤ hi) (hhi : hi ≤ a.length)
    (hbelow : ∀ j y, j < lo → a[j]? = some y → y ≤ x)
    (habove : ∀ j y, hi ≤ j → a[j]? = some y → x < y) :
    SplitsAt a x (bisectLoop a x fuel lo hi) := by
  induction fuel generalizing lo hi with
  | zero =>
    obtain rfl : lo = hi := by omega
    exact ⟨hhi, hbelow, habove⟩
  | succ fuel ih =>
    unfold bisectLoop
    by_cases hlt : lo < hi
    · have hmid : (lo + hi) / 2 < a.length := by omega
      have hget : a[(lo + hi) / 2]? = some (a[(lo + hi) / 2]) := List.getElem?_eq_getElem hmid
      rw [if_pos hlt]
      simp only [hget]
      by_cases hx : x < a[(lo + hi) / 2]
      · rw [if_pos hx]
        refine ih (by omega) (by omega) (by omega) hbelow fun j y hj hy => ?_
        exact lt_of_lt_of_le hx (getElem?_le_of_sorted hsorted hj hget hy)
      · rw [if_neg hx]
        refine ih (by omega) (by omega) hhi (fun j y hj hy => ?_) habove
        exact le_trans (getElem?_le_of_sorted hsorted (Nat.le_of_lt_succ hj) hy hget) (le_of_not_gt hx)
    · rw [if_neg hlt]
      obtain rfl : lo = hi := by omega
      exact ⟨hhi, hbelow, habove⟩

theorem splitsAt_bisectRight (hsorted : a.Pairwise (· ≤ ·)) (x : α) :
    SplitsAt a x (bisectRight a x) := by
  refine splitsAt_bisectLoop hsorted (by omega) (Nat.zero_le _) (Nat.le_refl _) ?_ ?_
  · intro j y hj
    omega
  · intro j y hj hy
    rw [List.getElem?_eq_none hj] at hy
    cases hy

/-- The elements before the place that the search finds. -/
theorem take_bisectRight (hsorted : a.Pairwise (· ≤ ·)) (x : α) :
    a.take (bisectRight a x) = a.filter (· ≤ x) := by
  obtain ⟨-, hbelow, habove⟩ := splitsAt_bisectRight hsorted x
  have hfilter : a.filter (· ≤ x) = (a.take (bisectRight a x)).filter (· ≤ x) ++
      (a.drop (bisectRight a x)).filter (· ≤ x) := by
    rw [← List.filter_append, List.take_append_drop]
  have hfirst : (a.take (bisectRight a x)).filter (· ≤ x) = a.take (bisectRight a x) := by
    refine List.filter_eq_self.mpr fun y hy => decide_eq_true ?_
    obtain ⟨j, hj, hget⟩ := List.mem_take_iff_getElem.mp hy
    exact hbelow j y (by omega) (List.getElem?_eq_some_iff.mpr ⟨by omega, hget⟩)
  have hrest : (a.drop (bisectRight a x)).filter (· ≤ x) = [] := by
    refine List.filter_eq_nil_iff.mpr fun y hy => ?_
    obtain ⟨j, hj, hget⟩ := List.mem_drop_iff_getElem.mp hy
    have hlt := habove (bisectRight a x + j) y (Nat.le_add_right _ _)
      (List.getElem?_eq_some_iff.mpr ⟨by omega, hget⟩)
    exact fun h => absurd (of_decide_eq_true h) (not_le_of_gt hlt)
  rw [hfilter, hfirst, hrest, List.append_nil]

theorem bisectRight_eq_length (hsorted : a.Pairwise (· ≤ ·)) (x : α) :
    bisectRight a x = (a.filter (· ≤ x)).length := by
  rw [← take_bisectRight hsorted, List.length_take,
    Nat.min_eq_left (splitsAt_bisectRight hsorted x).1]

theorem bisectRight_le_length (hsorted : a.Pairwise (· ≤ ·)) (x : α) :
    bisectRight a x ≤ a.length :=
  (splitsAt_bisectRight hsorted x).1

/-- The elements behind the place that the search finds. -/
theorem drop_bisectRight (hsorted : a.Pairwise (· ≤ ·)) (x : α) :
    a.drop (bisectRight a x) = a.filter (x < ·) := by
  have hlow : (a.take (bisectRight a x)).filter (x < ·) = [] := by
    rw [take_bisectRight hsorted, List.filter_filter]
    refine List.filter_eq_nil_iff.mpr fun y _ => ?_
    simp
  have hhigh : (a.drop (bisectRight a x)).filter (x < ·) = a.drop (bisectRight a x) := by
    refine List.filter_eq_self.mpr fun y hy => decide_eq_true ?_
    obtain ⟨j, hj, hget⟩ := List.mem_drop_iff_getElem.mp hy
    exact (splitsAt_bisectRight hsorted x).2.2 _ y (Nat.le_add_right _ j)
      (List.getElem?_eq_some_iff.mpr ⟨by omega, hget⟩)
  have hsplit := congrArg (List.filter (x < ·)) (List.take_append_drop (bisectRight a x) a)
  rw [List.filter_append, hlow, List.nil_append, hhigh] at hsplit
  exact hsplit

theorem length_sub_bisectRight (hsorted : a.Pairwise (· ≤ ·)) (x : α) :
    a.length - bisectRight a x = (a.filter (x < ·)).length := by
  rw [← drop_bisectRight hsorted, List.length_drop]

/-- The elements up to a bound are those up to a lower one and those in between. -/
theorem filter_le_split (hsorted : a.Pairwise (· ≤ ·)) {c : α} (hc : x ≤ c) :
    a.filter (· ≤ c) = a.filter (· ≤ x) ++ (a.filter (x < ·)).filter (· ≤ c) := by
  have hbelow : (a.take (bisectRight a x)).filter (· ≤ c) = a.filter (· ≤ x) := by
    rw [take_bisectRight hsorted, List.filter_filter]
    refine List.filter_congr fun y _ => ?_
    by_cases hy : y ≤ x
    · simp [hy, hy.trans hc]
    · simp [hy]
  have hsplit := congrArg (List.filter (· ≤ c)) (List.take_append_drop (bisectRight a x) a)
  rw [List.filter_append, hbelow, drop_bisectRight hsorted] at hsplit
  exact hsplit.symm

/-- What the two searches count. -/
theorem bisectRight_sub (hsorted : a.Pairwise (· ≤ ·)) {c : α} (hc : x ≤ c) :
    bisectRight a c - bisectRight a x = ((a.filter (x < ·)).filter (· ≤ c)).length := by
  rw [bisectRight_eq_length hsorted, bisectRight_eq_length hsorted, filter_le_split hsorted hc,
    List.length_append]
  omega

end Search

section PrefixSums

variable {M : Type*} [AddMonoid M]

/-- The sums of the first elements of a list, none and all of them included. -/
def prefixSums (l : List M) : List M := l.foldl (fun sums x => sums ++ [sums.getLastD 0 + x]) [0]

theorem prefixSums_append_singleton (l : List M) (x : M) :
    prefixSums (l ++ [x]) = prefixSums l ++ [(prefixSums l).getLastD 0 + x] := by
  simp [prefixSums]

theorem prefixSums_eq (l : List M) :
    prefixSums l = (List.range (l.length + 1)).map fun i => (l.take i).sum := by
  induction l using List.reverseRecOn with
  | nil => simp [prefixSums]
  | append_singleton l x ih =>
    have hlast : (prefixSums l).getLastD 0 = l.sum := by
      rw [ih, List.range_succ, List.map_append, List.map_singleton, List.getLastD_concat,
        List.take_length]
    rw [prefixSums_append_singleton, hlast, ih, List.length_append, List.length_singleton,
      List.range_succ (n := l.length + 1), List.map_append, List.map_singleton]
    congr 1
    · refine List.map_congr_left fun i hi => ?_
      have hle : i ≤ l.length := Nat.le_of_lt_succ (List.mem_range.mp hi)
      rw [List.take_append_of_le_length hle]
    · rw [List.take_of_length_le (by simp), List.sum_append, List.sum_singleton]

theorem getD_prefixSums {l : List M} {i : Nat} (h : i ≤ l.length) :
    (prefixSums l).getD i 0 = (l.take i).sum := by
  rw [prefixSums_eq, List.getD_eq_getElem?_getD, List.getElem?_map,
    List.getElem?_range (Nat.lt_succ_of_le h), Option.map_some, Option.getD_some]

end PrefixSums

section Excess

variable {K : Type*} [Field K] [LinearOrder K]

/-- How far a bound is above the elements, added up from the number and the sum of those below. -/
theorem sum_map_max_sub [IsOrderedAddMonoid K] (l : List K) (c : K) :
    (l.map fun x => max 0 (c - x)).sum =
      (l.filter (· ≤ c)).length * c - (l.filter (· ≤ c)).sum := by
  induction l with
  | nil => simp
  | cons x l ih =>
    rw [List.map_cons, List.sum_cons, ih]
    by_cases hx : x ≤ c
    · rw [List.filter_cons_of_pos (by simpa using hx), max_eq_right (sub_nonneg.mpr hx),
        List.length_cons, List.sum_cons]
      push_cast
      ring
    · rw [List.filter_cons_of_neg (by simpa using hx),
        max_eq_left (sub_nonpos.mpr (le_of_not_ge hx)), zero_add]

end Excess

end Belayer.Framework
