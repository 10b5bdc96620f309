import Mathlib.Algebra.GroupWithZero.Nat
import Mathlib.Algebra.Order.BigOperators.Group.List
import Mathlib.Algebra.Order.Group.Nat
import Mathlib.Data.List.Basic

namespace Belayer.Framework

/-! A list in segments of one size, and in pieces of given lengths -/

variable {α β : Type*}

/-- The `i`-th segment of `size` elements; the last one may be shorter. -/
def segmentAt (size : Nat) (l : List α) (i : Nat) : List α := (l.drop (i * size)).take size

/-- The pieces of the given lengths, one behind the other. -/
def cutBy : List Nat → List α → List (List α)
  | [], _ => []
  | n :: lengths, l => l.take n :: cutBy lengths (l.drop n)

/-- How many segments `n` elements begin. -/
def numSegments (size n : Nat) : Nat := n / size + (if n % size ≠ 0 then 1 else 0)

variable {size : Nat} {l : List α} {i n : Nat}

theorem length_segment : (segmentAt size l i).length = min size (l.length - i * size) := by
  rw [segmentAt, List.length_take, List.length_drop]

theorem segment_ne_nil_iff (hsize : 0 < size) : segmentAt size l i ≠ [] ↔ i * size < l.length := by
  rw [← List.length_pos_iff, length_segment]
  omega

theorem flatMap_segment (h : l.length ≤ n * size) :
    (List.range n).flatMap (segmentAt size l) = l := by
  induction n generalizing l with
  | zero =>
    rw [List.eq_nil_of_length_eq_zero (by omega : l.length = 0)]
    rfl
  | succ n ih =>
    have hrest : (l.drop size).length ≤ n * size := by
      rw [List.length_drop]
      rw [Nat.succ_mul] at h
      omega
    have hnext : ∀ i, segmentAt size l (i + 1) = segmentAt size (l.drop size) i := by
      intro i
      rw [segmentAt, segmentAt, List.drop_drop, Nat.succ_mul, Nat.add_comm]
    rw [List.range_succ_eq_map, List.flatMap_cons, List.flatMap_map]
    simp only [Nat.succ_eq_add_one, hnext]
    rw [ih hrest, segmentAt, Nat.zero_mul, List.drop_zero, List.take_append_drop]

/-- The places of a segment are those up to its length, moved behind the segments before it. -/
theorem segment_range : segmentAt size (List.range n) i =
    (List.range (segmentAt size (List.range n) i).length).map (· + i * size) := by
  apply List.ext_getElem?
  intro j
  rw [length_segment, List.length_range, segmentAt, List.getElem?_take, List.getElem?_drop,
    List.getElem?_map]
  by_cases hj : j < min size (n - i * size)
  · rw [if_pos (by omega), List.getElem?_range (by omega), List.getElem?_range hj, Option.map_some,
      Nat.add_comm]
  · have hout : (List.range (min size (n - i * size)))[j]? = none :=
      List.getElem?_eq_none (by rw [List.length_range]; omega)
    rw [hout, Option.map_none]
    split_ifs
    · exact List.getElem?_eq_none (by rw [List.length_range]; omega)
    · rfl

theorem lt_numSegments_iff (hsize : 0 < size) : i < numSegments size n ↔ i * size < n := by
  rw [numSegments]
  have hdiv := Nat.div_add_mod n size
  have hmod := Nat.mod_lt n hsize
  constructor
  · intro h
    split_ifs at h with hrest
    · have hle : i * size ≤ n / size * size := Nat.mul_le_mul_right _ (Nat.le_of_lt_succ h)
      rw [Nat.mul_comm] at hdiv
      omega
    · have hle : (i + 1) * size ≤ n / size * size := Nat.mul_le_mul_right _ h
      rw [Nat.succ_mul] at hle
      rw [Nat.mul_comm] at hdiv
      omega
  · intro h
    by_contra hge
    split_ifs at hge with hrest
    · have hle : (n / size + 1) * size ≤ i * size := Nat.mul_le_mul_right _ (Nat.le_of_not_lt hge)
      rw [Nat.succ_mul] at hle
      rw [Nat.mul_comm] at hdiv
      omega
    · have hle : n / size * size ≤ i * size :=
        Nat.mul_le_mul_right _ (Nat.le_of_not_lt hge)
      rw [Nat.mul_comm] at hdiv
      omega

theorem le_numSegments_mul (hsize : 0 < size) : n ≤ numSegments size n * size :=
  Nat.le_of_not_lt fun h => Nat.lt_irrefl _ ((lt_numSegments_iff hsize).mpr h)

theorem flatten_cutBy {lengths : List Nat} (h : l.length ≤ lengths.sum) :
    (cutBy lengths l).flatten = l := by
  induction lengths generalizing l with
  | nil =>
    rw [List.sum_nil, Nat.le_zero] at h
    rw [List.eq_nil_of_length_eq_zero h]
    rfl
  | cons n lengths ih =>
    rw [List.sum_cons] at h
    rw [cutBy, List.flatten_cons, ih (by rw [List.length_drop]; omega), List.take_append_drop]

theorem cutBy_flatten (ls : List (List α)) : cutBy (ls.map List.length) ls.flatten = ls := by
  induction ls with
  | nil => rfl
  | cons a ls ih =>
    rw [List.map_cons, cutBy, List.flatten_cons, List.take_left, List.drop_left, ih]

theorem length_cutBy (lengths : List Nat) (l : List α) :
    (cutBy lengths l).length = lengths.length := by
  induction lengths generalizing l with
  | nil => rfl
  | cons n lengths ih => rw [cutBy, List.length_cons, ih, List.length_cons]

theorem map_length_cutBy {lengths : List Nat} (h : lengths.sum ≤ l.length) :
    (cutBy lengths l).map List.length = lengths := by
  induction lengths generalizing l with
  | nil => rfl
  | cons n lengths ih =>
    rw [List.sum_cons] at h
    rw [cutBy, List.map_cons, ih (by rw [List.length_drop]; omega), List.length_take,
      Nat.min_eq_left (by omega)]

/-- What lies behind the pieces does not matter. -/
theorem cutBy_take (lengths : List Nat) (l : List α) :
    cutBy lengths (l.take lengths.sum) = cutBy lengths l := by
  induction lengths generalizing l with
  | nil => rfl
  | cons n lengths ih =>
    rw [List.sum_cons, cutBy, cutBy, List.take_take, Nat.min_eq_left (Nat.le_add_right ..),
      List.drop_take, Nat.add_sub_cancel_left, ih]

theorem eq_of_sum_map_eq {f g : α → Nat} (hle : ∀ a ∈ l, f a ≤ g a)
    (h : (l.map f).sum = (l.map g).sum) : ∀ a ∈ l, f a = g a := by
  have hsum : ∀ l : List α, (∀ a ∈ l, f a ≤ g a) → (l.map f).sum ≤ (l.map g).sum :=
    fun l hl => List.sum_le_sum hl
  induction l with
  | nil => exact fun _ ha => absurd ha List.not_mem_nil
  | cons a l ih =>
    have hfirst := hle a List.mem_cons_self
    have htail : ∀ b ∈ l, f b ≤ g b := fun b hb => hle b (List.mem_cons_of_mem a hb)
    have hrest := hsum l htail
    rw [List.map_cons, List.map_cons, List.sum_cons, List.sum_cons] at h
    exact List.forall_mem_cons.mpr ⟨by omega, ih htail (by omega)⟩

/-- Where each element gives at least one, and all of them give no more than they are, each gives
one. -/
theorem length_eq_one_of_flatMap {f : α → List β} (hf : ∀ a ∈ l, f a ≠ [])
    (h : (l.flatMap f).length = l.length) : ∀ a ∈ l, (f a).length = 1 := by
  have hle : ∀ l : List α, (∀ a ∈ l, f a ≠ []) → l.length ≤ (l.flatMap f).length := by
    intro l hl
    induction l with
    | nil => exact Nat.zero_le _
    | cons a l ih =>
      have hrest := ih fun b hb => hl b (List.mem_cons_of_mem a hb)
      have hfirst := List.length_pos_of_ne_nil (hl a List.mem_cons_self)
      rw [List.flatMap_cons, List.length_append, List.length_cons]
      omega
  induction l with
  | nil => exact fun _ ha => absurd ha List.not_mem_nil
  | cons a l ih =>
    have htail : ∀ b ∈ l, f b ≠ [] := fun b hb => hf b (List.mem_cons_of_mem a hb)
    have hrest := hle l htail
    have hfirst := List.length_pos_of_ne_nil (hf a List.mem_cons_self)
    rw [List.flatMap_cons, List.length_append, List.length_cons] at h
    refine List.forall_mem_cons.mpr ⟨by omega, ih htail (by omega)⟩

end Belayer.Framework
