import Mathlib.Algebra.BigOperators.Intervals
import Mathlib.Algebra.BigOperators.Ring.Finset
import Mathlib.Data.List.GetD
import Mathlib.Tactic.Ring

namespace Belayer.Framework

/-! Linear recurrences of the first order: `s i = a i + w * s (i - 1)` -/

variable {R : Type*} [CommSemiring R]

/-- The state after the terms of a list. -/
def runRecurrence (w s : R) (l : List R) : R := l.foldl (fun s a => a + w * s) s

/-- The states after each term of a list. -/
def recurrence (w : R) : R → List R → List R
  | _, [] => []
  | s, a :: l => (a + w * s) :: recurrence w (a + w * s) l

variable {w s : R} {l m : List R}

@[simp] theorem recurrence_nil : recurrence w s [] = [] := rfl

@[simp] theorem length_recurrence (w s : R) (l : List R) : (recurrence w s l).length = l.length := by
  induction l generalizing s with
  | nil => rfl
  | cons a l ih => simp [recurrence, ih]

theorem recurrence_append (w s : R) (l m : List R) :
    recurrence w s (l ++ m) = recurrence w s l ++ recurrence w (runRecurrence w s l) m := by
  induction l generalizing s with
  | nil => rfl
  | cons a l ih => simp [recurrence, runRecurrence, ih]

theorem take_recurrence (w s : R) (l : List R) (n : Nat) :
    (recurrence w s l).take n = recurrence w s (l.take n) := by
  induction l generalizing s n with
  | nil => simp
  | cons a l ih =>
    cases n with
    | zero => rfl
    | succ n => simp [recurrence, ih]

theorem runRecurrence_append (w s : R) (l m : List R) :
    runRecurrence w s (l ++ m) = runRecurrence w (runRecurrence w s l) m := by
  simp [runRecurrence]

theorem getLastD_recurrence (hl : l ≠ []) (d : R) :
    (recurrence w s l).getLastD d = runRecurrence w s l := by
  induction l generalizing s d with
  | nil => exact absurd rfl hl
  | cons a l ih =>
    cases l with
    | nil => rfl
    | cons b l => exact ih (List.cons_ne_nil b l) (a + w * s)

/-- From zeros on nothing happens. -/
theorem recurrence_replicate_zero (w : R) (n : Nat) :
    recurrence w 0 (List.replicate n 0) = List.replicate n 0 := by
  induction n with
  | zero => rfl
  | succ n ih => simp [List.replicate_succ, recurrence, ih]

theorem runRecurrence_replicate_zero (w : R) (n : Nat) :
    runRecurrence w 0 (List.replicate n 0) = 0 := by
  induction n with
  | zero => rfl
  | succ n ih => simpa [List.replicate_succ, runRecurrence] using ih

/-- A state in closed form: what each term before it has left. -/
theorem getD_recurrence {t : Nat} (ht : t < l.length) :
    (recurrence w s l).getD t 0 =
      ∑ k ∈ Finset.range (t + 1), w ^ (t - k) * l.getD k 0 + w ^ (t + 1) * s := by
  induction l generalizing s t with
  | nil => exact absurd ht (Nat.not_lt_zero t)
  | cons a l ih =>
    cases t with
    | zero => simp [recurrence]
    | succ t =>
      have ht : t < l.length := Nat.lt_of_succ_lt_succ ht
      rw [recurrence, List.getD_cons_succ, ih ht, Finset.sum_range_succ' _ (t + 1)]
      simp only [Nat.add_sub_add_right, List.getD_cons_succ, List.getD_cons_zero, Nat.sub_zero]
      ring

/-- A state from which a recurrence goes on adds its powers. -/
theorem recurrence_eq_add (w s : R) (l : List R) :
    recurrence w s l =
      List.zipWith (· + ·) (recurrence w 0 l) ((List.range l.length).map fun t => s * w ^ (t + 1)) := by
  apply List.ext_getElem
  · simp
  · intro t ht ht'
    have hlt : t < l.length := by simpa using ht
    have hs := getD_recurrence (w := w) (s := s) hlt
    have h0 := getD_recurrence (w := w) (s := 0) hlt
    rw [List.getD_eq_getElem _ _ (by simpa using hlt)] at hs h0
    rw [List.getElem_zipWith, hs, h0]
    simp only [List.getElem_map, List.getElem_range]
    ring

/-- A loop that collects the states. -/
theorem foldl_recurrence {α : Type*} (f : α → R) (xs : List α) (acc : List R) :
    xs.foldl (fun (p : R × List R) x => (f x + w * p.1, p.2 ++ [f x + w * p.1])) (s, acc) =
      (runRecurrence w s (xs.map f), acc ++ recurrence w s (xs.map f)) := by
  induction xs generalizing s acc with
  | nil => simp [runRecurrence]
  | cons x xs ih => simp [ih, runRecurrence, recurrence]

end Belayer.Framework
