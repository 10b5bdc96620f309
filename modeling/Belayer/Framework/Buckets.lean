import Mathlib.Algebra.GroupWithZero.Nat
import Mathlib.Algebra.BigOperators.Group.List.Basic
import Mathlib.Algebra.Order.Group.Nat
import Mathlib.Data.List.Perm.Basic

namespace Belayer.Framework

/-! Elements go one by one into the last bucket, and open a new one where that is full for them. -/

variable {α β : Type*}

/-- The buckets that are closed and the one that elements still go into. -/
structure Bucketing (α : Type*) where
  closed : List (List α)
  last : List α

namespace Bucketing

def empty : Bucketing α := ⟨[], []⟩

def buckets (b : Bucketing α) : List (List α) := b.closed ++ [b.last]

def add (full : List α → α → Bool) (b : Bucketing α) (a : α) : Bucketing α :=
  if full b.last a then ⟨b.closed ++ [b.last], [a]⟩ else ⟨b.closed, b.last ++ [a]⟩

def addAll (full : List α → α → Bool) (b : Bucketing α) (l : List α) : Bucketing α :=
  l.foldl (add full) b

variable {full : List α → α → Bool} {b : Bucketing α}

theorem flatten_add (b : Bucketing α) (a : α) :
    (add full b a).buckets.flatten = b.buckets.flatten ++ [a] := by
  unfold add buckets
  split_ifs <;> simp

/-- The buckets hold the elements in their order. -/
theorem flatten_addAll (b : Bucketing α) (l : List α) :
    (addAll full b l).buckets.flatten = b.buckets.flatten ++ l := by
  induction l generalizing b with
  | nil => exact (List.append_nil _).symm
  | cons a l ih => rw [addAll, List.foldl_cons, ← addAll, ih, flatten_add, List.append_assoc,
      List.singleton_append]

/-- What an element alone has, and a bucket keeps that an element goes into, all buckets have. -/
theorem forall_addAll {P : List α → Prop} (hb : ∀ bucket ∈ b.buckets, P bucket) {l : List α}
    (hone : ∀ a ∈ l, P [a])
    (hadd : ∀ bucket, ∀ a ∈ l, P bucket → full bucket a = false → P (bucket ++ [a])) :
    ∀ bucket ∈ (addAll full b l).buckets, P bucket := by
  induction l generalizing b with
  | nil => exact hb
  | cons a l ih =>
    obtain ⟨ha, hones⟩ := List.forall_mem_cons.mp hone
    have hrest : ∀ bucket, ∀ a ∈ l, P bucket → full bucket a = false → P (bucket ++ [a]) :=
      fun bucket a' ha' => hadd bucket a' (List.mem_cons_of_mem a ha')
    refine ih ?_ hones hrest
    intro bucket hbucket
    have hold : ∀ bucket ∈ b.closed, P bucket :=
      fun bucket h => hb bucket (List.mem_append_left _ h)
    have hlast : P b.last := hb b.last (List.mem_append_right _ (List.mem_singleton_self _))
    unfold add buckets at hbucket
    split_ifs at hbucket with hfull
    · rcases List.mem_append.mp hbucket with h | h
      · rcases List.mem_append.mp h with h | h
        · exact hold bucket h
        · exact List.mem_singleton.mp h ▸ hlast
      · exact List.mem_singleton.mp h ▸ ha
    · rcases List.mem_append.mp hbucket with h | h
      · exact hold bucket h
      · rw [List.mem_singleton.mp h]
        exact hadd b.last a List.mem_cons_self hlast (Bool.eq_false_iff.mpr hfull)

end Bucketing

/-- No bucket may get larger than `cap`. -/
def exceeds (size : α → Nat) (cap : Nat) (bucket : List α) (a : α) : Bool :=
  cap < (bucket.map size).sum + size a

/-- Where every element fits into a bucket, no bucket is larger than it may be. -/
theorem sum_le_of_exceeds {size : α → Nat} {cap : Nat} {l : List α} (hl : ∀ a ∈ l, size a ≤ cap) :
    ∀ bucket ∈ (Bucketing.addAll (exceeds size cap) .empty l).buckets,
      (bucket.map size).sum ≤ cap := by
  refine Bucketing.forall_addAll ?_ ?_ ?_
  · intro bucket hbucket
    rw [List.mem_singleton.mp hbucket]
    exact Nat.zero_le cap
  · intro a ha
    simpa using hl a ha
  · intro bucket a _ _ hfull
    have hle := of_decide_eq_false hfull
    rw [List.map_append, List.sum_append, List.map_singleton, List.sum_singleton]
    exact Nat.le_of_not_lt hle

/-! The columns of rows of different lengths -/

/-- The entries of one column, from the first row to the last. -/
def column (rows : List (List α)) (i : Nat) : List α := rows.filterMap (·[i]?)

/-- The entries of the first columns, column by column. -/
def byColumns (n : Nat) (rows : List (List α)) : List α := (List.range n).flatMap (column rows)

theorem column_cons (row : List α) (rows : List (List α)) (i : Nat) :
    column (row :: rows) i = row[i]?.toList ++ column rows i := by
  cases h : row[i]? <;> simp [column, h]

theorem flatMap_getElem? {row : List α} {n : Nat} (hn : row.length ≤ n) :
    ((List.range n).flatMap fun i => row[i]?.toList) = row := by
  induction row generalizing n with
  | nil => simp
  | cons a row ih =>
    obtain ⟨n, rfl⟩ := Nat.exists_eq_succ_of_ne_zero (by
      have : 0 < n := Nat.lt_of_lt_of_le (Nat.succ_pos _) hn
      omega : n ≠ 0)
    rw [List.length_cons] at hn
    simp [List.range_succ_eq_map, List.flatMap_map, ih (Nat.le_of_succ_le_succ hn)]

/-- Column by column one meets the entries of all rows. -/
theorem byColumns_perm {rows : List (List α)} {n : Nat} (hn : ∀ row ∈ rows, row.length ≤ n) :
    (byColumns n rows).Perm rows.flatten := by
  induction rows with
  | nil => simp [byColumns, column]
  | cons row rows ih =>
    obtain ⟨hrow, hrows⟩ := List.forall_mem_cons.mp hn
    have hsplit : byColumns n (row :: rows) =
        (List.range n).flatMap fun i => row[i]?.toList ++ column rows i := by
      unfold byColumns
      exact List.flatMap_congr fun i _ => column_cons row rows i
    rw [hsplit, List.flatten_cons]
    refine (List.flatMap_append_perm (List.range n) _ _).symm.trans ?_
    rw [flatMap_getElem? hrow]
    exact (ih hrows).append_left row

end Belayer.Framework
