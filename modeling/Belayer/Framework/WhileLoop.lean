import Mathlib.Logic.Basic

namespace Belayer.Framework

variable {σ : Type*}

/-- `while cond: body`: the states at the top of its rounds, and the state after it; `none` when
the fuel or a round fails. -/
def whileLoop (cond : σ → Prop) [DecidablePred cond] (body : σ → Option σ) :
    Nat → σ → Option (List σ × σ)
  | 0, _ => none
  | fuel + 1, s =>
    if cond s then
      (body s).bind fun s' => (whileLoop cond body fuel s').map fun done => (s :: done.1, done.2)
    else some ([], s)

variable {cond : σ → Prop} [DecidablePred cond] {body : σ → Option σ}

theorem whileLoop_of_not {s : σ} (h : ¬cond s) (fuel : Nat) :
    whileLoop cond body (fuel + 1) s = some ([], s) :=
  if_neg h

theorem whileLoop_of_body {s s' : σ} (h : cond s) (hbody : body s = some s') (fuel : Nat) :
    whileLoop cond body (fuel + 1) s =
      (whileLoop cond body fuel s').map fun done => (s :: done.1, done.2) := by
  rw [whileLoop, if_pos h, hbody]
  rfl

/-- A loop whose rounds succeed, keep an invariant and decrease a measure comes to its end: the
invariant holds at the top of every round and after the last one. -/
theorem whileLoop_total (I : σ → Prop) (measure : σ → Nat)
    (hbody : ∀ s, I s → cond s → ∃ s', body s = some s' ∧ I s' ∧ measure s' < measure s)
    {s : σ} (hs : I s) {fuel : Nat} (hfuel : measure s < fuel) :
    ∃ tops t, whileLoop cond body fuel s = some (tops, t) ∧ (∀ top ∈ tops, I top) ∧ I t ∧
      ¬cond t := by
  induction fuel generalizing s with
  | zero => exact absurd hfuel (Nat.not_lt_zero _)
  | succ fuel ih =>
    by_cases hc : cond s
    · obtain ⟨s', hs', hi, hless⟩ := hbody s hs hc
      obtain ⟨tops, t, hloop, htops, ht, hend⟩ := ih hi (by omega)
      refine ⟨s :: tops, t, ?_, ?_, ht, hend⟩
      · rw [whileLoop_of_body hc hs', hloop]
        rfl
      · intro top htop
        rcases List.mem_cons.mp htop with rfl | htop
        · exact hs
        · exact htops top htop
    · exact ⟨[], s, whileLoop_of_not hc fuel, fun _ htop => absurd htop List.not_mem_nil, hs, hc⟩

/-- What holds at the start and is kept by the rounds that succeed, holds at the end of a loop. -/
theorem whileLoop_invariant (I : σ → Prop) (hbody : ∀ s s', I s → cond s → body s = some s' → I s')
    {s t : σ} {tops : List σ} {fuel : Nat} (h : whileLoop cond body fuel s = some (tops, t))
    (hs : I s) : I t ∧ ¬cond t := by
  induction fuel generalizing s tops with
  | zero => cases h
  | succ fuel ih =>
    by_cases hc : cond s
    · rw [whileLoop, if_pos hc] at h
      obtain ⟨s', hs', h⟩ := Option.bind_eq_some_iff.mp h
      obtain ⟨rest, hrest, he⟩ := Option.map_eq_some_iff.mp h
      obtain ⟨-, rfl⟩ := Prod.mk.inj he
      exact ih hrest (hbody s s' hs hc hs')
    · rw [whileLoop, if_neg hc] at h
      cases h
      exact ⟨hs, hc⟩

/-- A loop whose rounds keep the state as it is does not end. -/
theorem whileLoop_of_stuck {s : σ} (hc : cond s) (hbody : body s = some s) (fuel : Nat) :
    whileLoop cond body fuel s = none := by
  induction fuel with
  | zero => rfl
  | succ fuel ih => rw [whileLoop_of_body hc hbody, ih, Option.map_none]

/-- More fuel does not change what a loop comes to. -/
theorem whileLoop_of_le {s : σ} {fuel fuel' : Nat} {done : List σ × σ}
    (h : whileLoop cond body fuel s = some done) (hle : fuel ≤ fuel') :
    whileLoop cond body fuel' s = some done := by
  induction fuel generalizing s fuel' done with
  | zero => cases h
  | succ fuel ih =>
    obtain ⟨fuel', rfl⟩ := Nat.exists_eq_add_of_lt hle
    by_cases hc : cond s
    · rw [whileLoop, if_pos hc] at h ⊢
      obtain ⟨s', hs', h⟩ := Option.bind_eq_some_iff.mp h
      obtain ⟨rest, hrest, rfl⟩ := Option.map_eq_some_iff.mp h
      rw [hs', Option.bind_some, ih hrest (by omega), Option.map_some]
    · rw [whileLoop, if_neg hc] at h ⊢
      exact h

end Belayer.Framework
