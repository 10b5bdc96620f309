import Mathlib.Tactic.SplitIfs
import Mathlib.Logic.Basic

namespace Belayer.Framework

variable {α β : Type*} {f f' : β → Option α} {has has' : α → β → Prop} {a : α} {b : β}

/-- The map takes each element to the one that has it. -/
def IsInverse (f : β → Option α) (has : α → β → Prop) : Prop :=
  ∀ a b, f b = some a ↔ has a b

theorem IsInverse.unique (h : IsInverse f has) {c : α} (ha : has a b) (hc : has c b) : a = c := by
  have hsome : some a = some c := ((h a b).mpr ha).symm.trans ((h c b).mpr hc)
  exact Option.some.inj hsome

theorem isInverse_congr (hf : ∀ b, f' b = f b) (hhas : ∀ a b, has' a b ↔ has a b) :
    IsInverse f' has' ↔ IsInverse f has := by
  constructor
  · intro h a b
    rw [← hf b, ← hhas a b]
    exact h a b
  · intro h a b
    rw [hf b, hhas a b]
    exact h a b

/-- One more pair is kept if the element was no other one's. -/
theorem isInverse_attach_iff [DecidableEq β] (h : IsInverse f has) (a : α) (b : β) :
    IsInverse (fun c => if c = b then some a else f c) (fun d c => has d c ∨ d = a ∧ c = b) ↔
      ∀ d, f b = some d → d = a := by
  constructor
  · intro hafter d hd
    have hsome : (if b = b then some a else f b) = some d :=
      (hafter d b).mpr (.inl ((h d b).mp hd))
    rw [if_pos rfl] at hsome
    exact (Option.some.inj hsome).symm
  · intro hown d c
    dsimp only
    split_ifs with hc
    · subst hc
      constructor
      · intro hd
        exact .inr ⟨(Option.some.inj hd).symm, rfl⟩
      · rintro (hd | ⟨rfl, -⟩)
        · rw [hown d ((h d c).mpr hd)]
        · rfl
    · rw [h d c]
      constructor
      · exact .inl
      · rintro (hd | ⟨-, hcb⟩)
        · exact hd
        · exact absurd hcb hc

/-- A pair less; the element must not have been another one's. -/
theorem isInverse_detach_iff [DecidableEq β] (h : IsInverse f has) (a : α) (b : β) :
    IsInverse (fun c => if c = b then none else f c) (fun d c => has d c ∧ ¬(d = a ∧ c = b)) ↔
      ∀ d, f b = some d → d = a := by
  constructor
  · intro hafter d hd
    refine Classical.byContradiction fun hne => ?_
    have hnone : (if b = b then none else f b) = some d :=
      (hafter d b).mpr ⟨(h d b).mp hd, fun hboth => hne hboth.1⟩
    rw [if_pos rfl] at hnone
    cases hnone
  · intro hown d c
    dsimp only
    split_ifs with hc
    · subst hc
      constructor
      · intro hd
        cases hd
      · rintro ⟨hd, hne⟩
        exact absurd ⟨hown d ((h d c).mpr hd), rfl⟩ hne
    · rw [h d c]
      constructor
      · intro hd
        exact ⟨hd, fun hboth => hc hboth.2⟩
      · exact fun hd => hd.1

/-- One loses all it has, and the map does not notice. -/
theorem isInverse_clear_iff (h : IsInverse f has) (a : α) :
    IsInverse f (fun d c => has d c ∧ d ≠ a) ↔ ∀ c, ¬has a c := by
  constructor
  · intro hafter c hc
    exact ((hafter a c).mp ((h a c).mpr hc)).2 rfl
  · intro hempty d c
    rw [h d c]
    constructor
    · intro hd
      refine ⟨hd, ?_⟩
      rintro rfl
      exact hempty c hd
    · exact fun hd => hd.1

/-- One loses all it has, and the map forgets it. -/
theorem IsInverse.release (h : IsInverse f has) (a : α) [DecidablePred (has a)] :
    IsInverse (fun c => if has a c then none else f c) (fun d c => has d c ∧ d ≠ a) := by
  intro d c
  dsimp only
  split_ifs with hc
  · constructor
    · intro hd
      cases hd
    · rintro ⟨hd, hne⟩
      exact absurd (h.unique hd hc) hne
  · rw [h d c]
    constructor
    · intro hd
      refine ⟨hd, ?_⟩
      rintro rfl
      exact hc hd
    · exact fun hd => hd.1

end Belayer.Framework
