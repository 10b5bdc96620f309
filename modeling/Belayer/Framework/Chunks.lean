import Mathlib.Algebra.BigOperators.Intervals
import Mathlib.Algebra.GroupWithZero.Nat
import Mathlib.Algebra.Order.Group.Nat
import Mathlib.Data.List.Basic
import Mathlib.Data.List.GetD

namespace Belayer.Framework

/-! A list in chunks of one size that are dealt to the ranks of a group from both its ends -/

variable {α β γ : Type*}

/-- An index of a slice, as Python reads it for a list of length `n`. -/
def sliceBound (n : Nat) (i : Int) : Nat := if i < 0 then (i + n).toNat else i.toNat

/-- The elements at the places from `a` to `b`. -/
def window (l : List α) (a b : Nat) : List α := (l.take b).drop a

/-- `l[a:b]`. -/
def pySlice (l : List α) (a b : Int) : List α :=
  window l (sliceBound l.length a) (sliceBound l.length b)

section Window

variable {l : List α} {a b : Nat}

@[simp] theorem window_map (f : α → β) (l : List α) (a b : Nat) :
    window (l.map f) a b = (window l a b).map f := by
  simp [window]

@[simp] theorem window_zipWith (f : α → β → γ) (l : List α) (m : List β) (a b : Nat) :
    window (List.zipWith f l m) a b = List.zipWith f (window l a b) (window m a b) := by
  simp [window, List.take_zipWith, List.drop_zipWith]

@[simp] theorem length_window (l : List α) (a b : Nat) :
    (window l a b).length = min b l.length - a := by
  simp [window]

theorem getElem?_window (l : List α) (a b i : Nat) :
    (window l a b)[i]? = if a + i < b then l[a + i]? else none := by
  simp [window, List.getElem?_take]

theorem window_eq_nil (h : b ≤ a ∨ l.length ≤ a) : window l a b = [] := by
  apply List.eq_nil_of_length_eq_zero
  rw [length_window]
  omega

theorem pySlice_self (l : List α) (i : Int) : pySlice l i i = [] := window_eq_nil (Or.inl le_rfl)

theorem pySlice_eq_window {i j : Int} (hi : 0 ≤ i) (hj : 0 ≤ j) :
    pySlice l i j = window l i.toNat j.toNat := by
  have hi' : ¬i < 0 := by omega
  have hj' : ¬j < 0 := by omega
  simp [pySlice, sliceBound, hi', hj']

theorem pySlice_natCast (l : List α) (a b : Nat) : pySlice l a b = window l a b := by
  rw [pySlice_eq_window (Int.natCast_nonneg a) (Int.natCast_nonneg b), Int.toNat_natCast,
    Int.toNat_natCast]

/-- Windows with the same places in the list are the same. -/
theorem window_congr {a' b' : Nat}
    (h : ∀ i < l.length, (a ≤ i ∧ i < b ↔ a' ≤ i ∧ i < b')) : window l a b = window l a' b' := by
  by_cases hempty : l.length ≤ a ∨ b ≤ a
  · have hempty' : b' ≤ a' ∨ l.length ≤ a' := by
      by_contra hne
      have := (h a' (by omega)).mpr (by omega)
      omega
    rw [window_eq_nil hempty.symm, window_eq_nil hempty']
  · have ha := (h a (by omega)).mp (by omega)
    have ha' := (h a' (by omega)).mpr (by omega)
    obtain rfl : a = a' := by omega
    have hb : min b l.length = min b' l.length := by
      have hlast := (h (min b l.length - 1) (by omega)).mp (by omega)
      by_cases hlt : min b l.length < l.length
      · have hnext := h (min b l.length) hlt
        omega
      · omega
    rw [window, window, List.take_eq_take_min, hb, ← List.take_eq_take_min]

theorem window_append_window (l : List α) {a b c : Nat} (hab : a ≤ b) (hbc : b ≤ c) :
    window l a b ++ window l b c = window l a c := by
  apply List.ext_getElem?
  intro i
  rw [List.getElem?_append, length_window, getElem?_window, getElem?_window, getElem?_window]
  by_cases hi : i < min b l.length - a
  · rw [if_pos hi, if_pos (by omega), if_pos (by omega)]
  · rw [if_neg hi]
    by_cases hlt : a + i < c
    · by_cases hlen : a + i < l.length
      · rw [if_pos (by omega), if_pos hlt]
        congr 1
        omega
      · have hout : l[a + i]? = none := List.getElem?_eq_none (by omega)
        have hout' : l[b + (i - (min b l.length - a))]? = none := List.getElem?_eq_none (by omega)
        rw [hout, hout']
        simp
    · by_cases hlen : b + (i - (min b l.length - a)) < l.length
      · rw [if_neg (by omega), if_neg hlt]
      · have hout' : l[b + (i - (min b l.length - a))]? = none := List.getElem?_eq_none (by omega)
        rw [hout', if_neg hlt]
        simp

end Window

/-- The part of a list that lies in the `i`-th chunk of `c` places, where the list begins at
place `s`. -/
def chunkAt (c s i : Nat) (l : List α) : List α := window l (i * c - s) ((i + 1) * c - s)

/-- What rank `r` of `n` has of a list: a chunk from either end. -/
def zigzag (n c s r : Nat) (l : List α) : List α :=
  chunkAt c s r l ++ chunkAt c s (2 * n - 1 - r) l

section Chunks

variable {l : List α} {n c s m r : Nat}

@[simp] theorem zigzag_map (f : α → β) (l : List α) :
    zigzag n c s r (l.map f) = (zigzag n c s r l).map f := by
  simp [zigzag, chunkAt]

theorem zigzag_zipWith (f : α → β → γ) {l : List α} {m : List β} (h : l.length = m.length) :
    zigzag n c s r (List.zipWith f l m) =
      List.zipWith f (zigzag n c s r l) (zigzag n c s r m) := by
  have hlen : (chunkAt c s r l).length = (chunkAt c s r m).length := by simp [chunkAt, h]
  simp only [zigzag, chunkAt, window_zipWith]
  exact (List.zipWith_append hlen).symm

theorem length_zigzag_eq {l : List α} {m : List β} (h : l.length = m.length) :
    (zigzag n c s r l).length = (zigzag n c s r m).length := by
  simp [zigzag, chunkAt, h]

theorem flatMap_chunkAt_take (l : List α) (c s m : Nat) :
    (List.range m).flatMap (chunkAt c s · l) = l.take (m * c - s) := by
  induction m with
  | zero => simp
  | succ m ih =>
    have hle : m * c - s ≤ (m + 1) * c - s := Nat.sub_le_sub_right (Nat.mul_le_mul_right c m.le_succ) s
    have htake : ∀ k, l.take k = window l 0 k := fun k => by simp [window]
    rw [List.range_succ, List.flatMap_append, ih, List.flatMap_singleton, chunkAt, htake, htake]
    exact window_append_window l (Nat.zero_le _) hle

/-- The chunks make up the list. -/
theorem flatMap_chunkAt (h : s + l.length ≤ m * c) :
    (List.range m).flatMap (chunkAt c s · l) = l := by
  rw [flatMap_chunkAt_take]
  exact List.take_of_length_le (by omega)

variable {M : Type*} [AddCommMonoid M]

/-- Every chunk is dealt to one rank. -/
theorem sum_zigzag_chunks (n : Nat) (f : Nat → M) :
    ∑ r ∈ Finset.range n, (f r + f (2 * n - 1 - r)) = ∑ i ∈ Finset.range (2 * n), f i := by
  have hback : ∑ r ∈ Finset.range n, f (2 * n - 1 - r) = ∑ i ∈ Finset.range n, f (n + i) := by
    rw [← Finset.sum_range_reflect]
    apply Finset.sum_congr rfl
    intro r hr
    have hr := Finset.mem_range.mp hr
    congr 1
    omega
  rw [Finset.sum_add_distrib, hback, two_mul, Finset.sum_range_add]

theorem sum_flatMap_range (f : Nat → List M) (m : Nat) :
    ((List.range m).flatMap f).sum = ∑ i ∈ Finset.range m, (f i).sum := by
  induction m with
  | zero => simp
  | succ m ih => simp [List.range_succ, List.flatMap_append, ih, Finset.sum_range_succ]

/-- What the ranks have adds up to the whole. -/
theorem sum_sum_zigzag {l : List M} (h : s + l.length ≤ 2 * n * c) :
    ∑ r ∈ Finset.range n, (zigzag n c s r l).sum = l.sum := by
  have hchunks := sum_zigzag_chunks n fun i => (chunkAt c s i l).sum
  simp only [zigzag, List.sum_append]
  rw [hchunks, ← sum_flatMap_range, flatMap_chunkAt h]

end Chunks

end Belayer.Framework
