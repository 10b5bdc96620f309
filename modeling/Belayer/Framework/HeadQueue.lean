import Mathlib.Data.List.InsertIdx
import Mathlib.Logic.Function.Iterate

namespace Belayer.Framework.HeadQueue

variable {α : Type*} (stops : α → Bool) (change : α → α) (offset : Nat)

/-- The place where a head steps back to. -/
def place (offset : Nat) (queue : List α) : Nat := min offset (queue.length - 1)

/-- Look at the head until one stops or stands alone; a head that does not stop is changed and
steps back. `none` when the fuel does not suffice. -/
def visit : Nat → List α → Option (List α)
  | 0, _ => none
  | _ + 1, [] => some []
  | fuel + 1, head :: rest =>
    if stops head ∨ rest = [] then some (head :: rest)
    else visit fuel (rest.insertIdx (min offset rest.length) (change head))

variable {stops change offset} {queue rest : List α} {head x : α} {fuel i k : Nat}

theorem place_cons : place offset (head :: rest) = min offset rest.length := rfl

/-- A step back keeps the length, and with it the place. -/
theorem place_insertIdx :
    place offset (rest.insertIdx (min offset rest.length) x) = min offset rest.length := by
  rw [place, List.length_insertIdx_of_le_length (Nat.min_le_right ..), Nat.add_sub_cancel]

theorem visit_isSome_of_stops (h : stops head ∨ rest = []) :
    (visit stops change offset (fuel + 1) (head :: rest)).isSome := by
  rw [visit, if_pos h]
  rfl

theorem visit_isSome_of_length_le_one (h : queue.length ≤ 1) :
    (visit stops change offset (fuel + 1) queue).isSome := by
  cases queue with
  | nil => rfl
  | cons head rest =>
    refine visit_isSome_of_stops (.inr (List.length_eq_zero_iff.mp ?_))
    rw [List.length_cons] at h
    omega

/-- A member of the front part that stops after some changes ends the visits. Each visit brings it
one place closer to the head, or, from there, one change further. -/
theorem visit_isSome (hi : i ≤ place offset queue) (hx : queue[i]? = some x)
    (hstops : stops (change^[k] x)) (hfuel : k * (place offset queue + 1) + i ≤ fuel) :
    (visit stops change offset (fuel + 1) queue).isSome := by
  induction fuel generalizing queue i k x with
  | zero =>
    have hzero : i = 0 := by omega
    have hk : k = 0 := by
      have hmul : k * (place offset queue + 1) = 0 := by omega
      exact (Nat.mul_eq_zero.mp hmul).resolve_right (Nat.succ_ne_zero _)
    subst hzero hk
    cases queue with
    | nil => rfl
    | cons head rest =>
      have hhead : head = x := by simpa using hx
      exact visit_isSome_of_stops (.inl (hhead ▸ hstops))
  | succ fuel ih =>
    cases queue with
    | nil => rfl
    | cons head rest =>
      by_cases hstop : stops head ∨ rest = []
      · exact visit_isSome_of_stops hstop
      · rw [visit, if_neg hstop]
        rw [place_cons] at hi hfuel
        cases i with
        | zero =>
          have hhead : head = x := by simpa using hx
          cases k with
          | zero => exact absurd (.inl (hhead ▸ hstops)) hstop
          | succ k =>
            -- the head steps back to the end of the front part
            have hback : (rest.insertIdx (min offset rest.length) (change head))[
                min offset rest.length]? = some (change x) := by
              rw [List.getElem?_insertIdx_self, if_pos (Nat.min_le_right ..), hhead]
            refine ih (k := k) (i := min offset rest.length) ?_ hback hstops ?_
            · exact Nat.le_of_eq place_insertIdx.symm
            · rw [place_insertIdx]
              rw [Nat.succ_mul] at hfuel
              omega
        | succ i =>
          have hcloser : (rest.insertIdx (min offset rest.length) (change head))[i]? = some x := by
            rw [List.getElem?_insertIdx_of_lt (Nat.lt_of_succ_le hi)]
            exact hx
          refine ih (k := k) (i := i) ?_ hcloser hstops ?_
          · rw [place_insertIdx]
            omega
          · rw [place_insertIdx]
            omega

theorem exists_place_of_mem_take {n : Nat} (h : x ∈ queue.take (n + 1)) :
    ∃ i ≤ n, queue[i]? = some x := by
  obtain ⟨i, hi⟩ := List.mem_iff_getElem?.mp h
  rw [List.getElem?_take] at hi
  split_ifs at hi with hlt
  exact ⟨i, Nat.le_of_lt_succ hlt, hi⟩

/-- No member of the front part ever stops. -/
def Stuck (stops : α → Bool) (change : α → α) (offset : Nat) (queue : List α) : Prop :=
  ∀ x ∈ queue.take (place offset queue + 1), ∀ k, ¬stops (change^[k] x)

/-- A step back leaves the front part to its members. -/
theorem Stuck.step (h : Stuck stops change offset (head :: rest)) :
    Stuck stops change offset (rest.insertIdx (min offset rest.length) (change head)) := by
  intro x hx k
  rw [place_insertIdx] at hx
  rw [Stuck, place_cons, List.take_succ_cons] at h
  obtain ⟨i, hi, hplace⟩ := exists_place_of_mem_take hx
  rcases Nat.lt_or_eq_of_le hi with hlt | heq
  · rw [List.getElem?_insertIdx_of_lt hlt, ← List.getElem?_take_of_lt hlt] at hplace
    exact h x (List.mem_cons_of_mem _ (List.mem_of_getElem? hplace)) k
  · rw [heq, List.getElem?_insertIdx_self, if_pos (Nat.min_le_right ..)] at hplace
    rw [← Option.some.inj hplace]
    exact h head List.mem_cons_self (k + 1)

theorem visit_eq_none_of_stuck (hlength : 1 < queue.length)
    (h : Stuck stops change offset queue) (fuel : Nat) :
    visit stops change offset fuel queue = none := by
  induction fuel generalizing queue with
  | zero => rfl
  | succ fuel ih =>
    cases queue with
    | nil => exact absurd hlength (by simp)
    | cons head rest =>
      have hrest : rest ≠ [] := by
        rintro rfl
        exact absurd hlength (by simp)
      have hhead : ¬stops head := h head List.mem_cons_self 0
      rw [visit, if_neg (not_or.mpr ⟨hhead, hrest⟩)]
      refine ih ?_ h.step
      rw [List.length_insertIdx_of_le_length (Nat.min_le_right ..)]
      exact hlength

/-- The visits end iff the head stands alone or a member of the front part stops after some
changes. -/
theorem exists_visit_isSome_iff : (∃ fuel, (visit stops change offset fuel queue).isSome) ↔
    queue.length ≤ 1 ∨ ∃ x ∈ queue.take (place offset queue + 1), ∃ k, stops (change^[k] x) := by
  constructor
  · rintro ⟨fuel, hfuel⟩
    by_contra hstuck
    rw [not_or, Nat.not_le] at hstuck
    obtain ⟨hlength, hstuck⟩ := hstuck
    have hnone := visit_eq_none_of_stuck hlength
      (fun x hx k hk => hstuck ⟨x, hx, k, hk⟩ : Stuck stops change offset queue) fuel
    rw [hnone] at hfuel
    exact absurd hfuel (by simp)
  · rintro (hlength | ⟨x, hx, k, hk⟩)
    · exact ⟨1, visit_isSome_of_length_le_one hlength⟩
    · obtain ⟨i, hi, hplace⟩ := exists_place_of_mem_take hx
      exact ⟨_, visit_isSome hi hplace hk (Nat.le_refl _)⟩

end Belayer.Framework.HeadQueue
