import Mathlib.Algebra.GroupWithZero.Nat
import Mathlib.Algebra.Order.Group.Nat
import Mathlib.Algebra.Order.BigOperators.Group.List

namespace Belayer.Framework

variable {α : Type*}

/-- The sum of `f` over the members of a list. -/
def tally (f : α → Nat) (l : List α) : Nat := (l.map f).sum

@[simp] theorem tally_nil (f : α → Nat) : tally f [] = 0 := rfl

@[simp] theorem tally_cons (f : α → Nat) (a : α) (l : List α) :
    tally f (a :: l) = f a + tally f l := by
  simp [tally]

@[simp] theorem tally_append (f : α → Nat) (l m : List α) :
    tally f (l ++ m) = tally f l + tally f m := by
  simp [tally]

theorem le_tally (f : α → Nat) {a : α} {l : List α} (h : a ∈ l) : f a ≤ tally f l :=
  List.le_sum_of_mem (List.mem_map_of_mem h)

theorem tally_eq_zero {f : α → Nat} {l : List α} (h : ∀ a ∈ l, f a = 0) : tally f l = 0 := by
  induction l with
  | nil => rfl
  | cons a l ih =>
    rw [tally_cons, h a (List.mem_cons_self ..), ih fun b hb => h b (List.mem_cons_of_mem _ hb)]

theorem exists_of_tally_pos {f : α → Nat} {l : List α} (h : 0 < tally f l) :
    ∃ a ∈ l, 0 < f a := by
  induction l with
  | nil => simp at h
  | cons b l ih =>
    by_cases hb : 0 < f b
    · exact ⟨b, List.mem_cons_self .., hb⟩
    · have hl : 0 < tally f l := by simp at h hb; omega
      obtain ⟨a, ha, hf⟩ := ih hl
      exact ⟨a, List.mem_cons_of_mem _ ha, hf⟩

/-- One member is replaced: the sum changes by what that member counts for. -/
theorem tally_set (f : α → Nat) {l : List α} {i : Nat} {a : α} (h : l[i]? = some a) (b : α) :
    tally f (l.set i b) + f a = tally f l + f b := by
  induction l generalizing i with
  | nil => simp at h
  | cons c l ih =>
    cases i with
    | zero =>
      obtain rfl : c = a := by simpa using h
      simp only [List.set_cons_zero, tally_cons]
      omega
    | succ i =>
      have hi := ih (i := i) (by simpa using h)
      simp only [List.set_cons_succ, tally_cons]
      omega

theorem tally_map (f : α → Nat) {g : α → α} (h : ∀ a, f (g a) = f a) (l : List α) :
    tally f (l.map g) = tally f l := by
  induction l with
  | nil => rfl
  | cons a l ih => simp [h, ih]

theorem tally_mono {f g : α → Nat} (h : ∀ a, f a ≤ g a) (l : List α) :
    tally f l ≤ tally g l := by
  induction l with
  | nil => simp
  | cons a l ih =>
    have ha := h a
    simp only [tally_cons]
    omega

/-- No deadlock: when whoever is blocked waits for someone that is not blocked or has
a smaller rank, someone is not blocked. -/
theorem exists_unblocked {unfinished blocked : α → Prop} {rank : α → Nat}
    (hwait : ∀ p, unfinished p → blocked p →
      ∃ q, unfinished q ∧ (blocked q → rank q < rank p))
    {p : α} (hp : unfinished p) : ∃ q, unfinished q ∧ ¬blocked q := by
  induction h : rank p using Nat.strong_induction_on generalizing p with
  | _ n ih =>
    by_cases hb : blocked p
    · obtain ⟨q, hq, hlt⟩ := hwait p hp hb
      by_cases hbq : blocked q
      · exact ih (rank q) (h ▸ hlt hbq) hq rfl
      · exact ⟨q, hq, hbq⟩
    · exact ⟨p, hp, hb⟩

end Belayer.Framework
