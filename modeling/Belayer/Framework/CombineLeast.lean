import Mathlib.Data.List.Perm.Basic

namespace Belayer.Framework

/-! The two least elements of a collection are combined until one is left, as with a heap. -/

variable {σ : Type*}

/-- An element that no other one comes before, and the others. -/
def popLeast (before : σ → σ → Bool) : List σ → Option (σ × List σ)
  | [] => none
  | a :: l =>
    match popLeast before l with
    | none => some (a, l)
    | some (b, rest) => if before b a then some (b, a :: rest) else some (a, l)

/-- `n` times the two least elements are combined. -/
def combineLeast (before : σ → σ → Bool) (merge : σ → σ → σ) : Nat → List σ → List σ
  | 0, l => l
  | n + 1, l =>
    match popLeast before l with
    | none => l
    | some (a, rest) =>
      match popLeast before rest with
      | none => l
      | some (b, rest) => combineLeast before merge n (merge a b :: rest)

variable {before : σ → σ → Bool} {merge : σ → σ → σ} {l : List σ}

theorem exists_popLeast (before : σ → σ → Bool) (hl : l ≠ []) :
    ∃ a rest, popLeast before l = some (a, rest) ∧ (a :: rest).Perm l := by
  induction l with
  | nil => exact absurd rfl hl
  | cons x l ih =>
    cases l with
    | nil => exact ⟨x, [], rfl, .refl _⟩
    | cons y l =>
      obtain ⟨b, rest, hpop, hperm⟩ := ih (List.cons_ne_nil _ _)
      rw [popLeast, hpop]
      by_cases hb : before b x
      · refine ⟨b, x :: rest, if_pos hb, ?_⟩
        exact (List.Perm.swap x b rest).trans (hperm.cons x)
      · exact ⟨x, y :: l, if_neg hb, .refl _⟩

/-- What all elements have and a combination keeps, the last element has; what adds up in a
combination, adds up to the whole in the last element. -/
theorem exists_combineLeast {ι : Type*} (P : σ → Prop) (parts : σ → List ι)
    (before : σ → σ → Bool) (merge : σ → σ → σ) (hP : ∀ a b, P a → P b → P (merge a b))
    (hparts : ∀ a b, P a → P b → (parts (merge a b)).Perm (parts a ++ parts b)) {n : Nat}
    (hn : l.length = n + 1) (hl : ∀ a ∈ l, P a) :
    ∃ a, combineLeast before merge n l = [a] ∧ P a ∧ (parts a).Perm (l.flatMap parts) := by
  induction n generalizing l with
  | zero =>
    obtain ⟨a, rfl⟩ := List.length_eq_one_iff.mp hn
    refine ⟨a, rfl, hl a List.mem_cons_self, ?_⟩
    rw [List.flatMap_singleton]
  | succ n ih =>
    have hne : l ≠ [] := by
      rintro rfl
      cases hn
    obtain ⟨a, rest, hpop, hperm⟩ := exists_popLeast before hne
    have hlength : rest.length = n + 1 := by
      have := hperm.length_eq
      rw [List.length_cons, hn] at this
      omega
    have hrest : rest ≠ [] := by
      rintro rfl
      cases hlength
    obtain ⟨b, others, hpop', hperm'⟩ := exists_popLeast before hrest
    have hlength' : others.length = n := by
      have := hperm'.length_eq
      rw [List.length_cons, hlength] at this
      omega
    have hall : (a :: b :: others).Perm l := (hperm'.cons a).trans hperm
    have ha := hl a (hall.subset List.mem_cons_self)
    have hb := hl b (hall.subset (List.mem_cons_of_mem a List.mem_cons_self))
    have hmerged : ∀ c ∈ merge a b :: others, P c := by
      intro c hc
      rcases List.mem_cons.mp hc with rfl | hc
      · exact hP a b ha hb
      · exact hl c (hall.subset (List.mem_cons_of_mem a (List.mem_cons_of_mem b hc)))
    obtain ⟨c, hcombine, hc, hwhole⟩ :=
      ih (by rw [List.length_cons, hlength']) hmerged
    refine ⟨c, ?_, hc, hwhole.trans ?_⟩
    · rw [combineLeast, hpop]
      dsimp only
      rw [hpop']
      exact hcombine
    · have hflat := hall.flatMap_right parts
      rw [List.flatMap_cons, List.flatMap_cons, ← List.append_assoc] at hflat
      rw [List.flatMap_cons]
      exact ((hparts a b ha hb).append_right _).trans hflat

end Belayer.Framework
