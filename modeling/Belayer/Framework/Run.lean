import Mathlib.Logic.Basic

namespace Belayer.Framework

variable {σ α : Type*}

/-- Perform the actions in order; `none` as soon as one of them is not enabled. -/
def exec (next : σ → α → Option σ) : σ → List α → Option σ
  | s, [] => some s
  | s, a :: as => (next s a).bind (exec next · as)

/-- Some run leads from the state to one with `P`. -/
def Reaches (next : σ → α → Option σ) (P : σ → Prop) (s : σ) : Prop :=
  ∃ run t, exec next s run = some t ∧ P t

/-- Every action that the run performs meets `G` in the state before it. -/
def Meets (next : σ → α → Option σ) (G : σ → α → Prop) : σ → List α → Prop
  | _, [] => True
  | s, a :: as =>
    match next s a with
    | none => True
    | some s' => G s a ∧ Meets next G s' as

/-- Every state that the run visits satisfies `P`, the first one included. -/
def Along (next : σ → α → Option σ) (P : σ → Prop) : σ → List α → Prop
  | s, [] => P s
  | s, a :: as =>
    P s ∧
      match next s a with
      | none => True
      | some s' => Along next P s' as

variable {next : σ → α → Option σ} {G : σ → α → Prop} {P I : σ → Prop}

theorem exec_cons_some {s s' : σ} {a : α} (h : next s a = some s') (as : List α) :
    exec next s (a :: as) = exec next s' as := by
  simp [exec, h]

/-- A run that gets through took its first action and ran the rest from there. -/
theorem exec_cons_eq_some {s t : σ} {a : α} {as : List α} (h : exec next s (a :: as) = some t) :
    ∃ s', next s a = some s' ∧ exec next s' as = some t := by
  simpa only [exec, Option.bind_eq_some_iff] using h

theorem exec_append {s t : σ} {as : List α} (h : exec next s as = some t) (bs : List α) :
    exec next s (as ++ bs) = exec next t bs := by
  induction as generalizing s with
  | nil =>
    have hs : s = t := Option.some.inj h
    rw [hs]
    rfl
  | cons a as ih =>
    obtain ⟨s', hs, ht⟩ := exec_cons_eq_some h
    rw [List.cons_append, exec_cons_some hs]
    exact ih ht

theorem Reaches.here {s : σ} (h : P s) : Reaches next P s :=
  ⟨[], s, rfl, h⟩

theorem Reaches.step {s s' : σ} {a : α} (hn : next s a = some s') (h : Reaches next P s') :
    Reaches next P s := by
  obtain ⟨run, t, ht, hp⟩ := h
  exact ⟨a :: run, t, (exec_cons_some hn run).trans ht, hp⟩

theorem meets_cons_some {s s' : σ} {a : α} {as : List α} (h : next s a = some s') :
    Meets next G s (a :: as) ↔ G s a ∧ Meets next G s' as := by
  simp [Meets, h]

instance decidableMeets [∀ s a, Decidable (G s a)] :
    ∀ (s : σ) (as : List α), Decidable (Meets next G s as)
  | _, [] => .isTrue trivial
  | s, a :: as =>
    match hn : next s a with
    | none => .isTrue (by simp [Meets, hn])
    | some s' =>
      have := decidableMeets s' as
      decidable_of_iff (G s a ∧ Meets next G s' as) (meets_cons_some hn).symm

theorem along_cons_some {s s' : σ} {a : α} {as : List α} (h : next s a = some s') :
    Along next P s (a :: as) ↔ P s ∧ Along next P s' as := by
  simp [Along, h]

theorem Along.head {s : σ} {as : List α} (h : Along next P s as) : P s := by
  cases as with
  | nil => exact h
  | cons a as => exact h.1

instance decidableAlong [∀ s, Decidable (P s)] :
    ∀ (s : σ) (as : List α), Decidable (Along next P s as)
  | s, [] => inferInstanceAs (Decidable (P s))
  | s, a :: as =>
    match hn : next s a with
    | none => decidable_of_iff (P s) (by simp [Along, hn])
    | some s' =>
      have := decidableAlong s' as
      decidable_of_iff (P s ∧ Along next P s' as) (along_cons_some hn).symm

/-- What holds all along a run holds of the state it ends in. -/
theorem Along.last {s t : σ} {as : List α} (h : Along next P s as)
    (he : exec next s as = some t) : P t := by
  induction as generalizing s with
  | nil =>
    have hs : s = t := Option.some.inj he
    exact hs ▸ h
  | cons a as ih =>
    obtain ⟨s', hs, ht⟩ := exec_cons_eq_some he
    exact ih ((along_cons_some hs).mp h).2 ht

theorem Along.mono {Q : σ → Prop} (hpq : ∀ s, P s → Q s) {s : σ} {as : List α}
    (h : Along next P s as) : Along next Q s as := by
  induction as generalizing s with
  | nil => exact hpq s h
  | cons a as ih =>
    cases hs : next s a with
    | none => exact ⟨hpq s h.1, by simp [hs]⟩
    | some s' =>
      have hc := (along_cons_some hs).mp h
      exact (along_cons_some hs).mpr ⟨hpq s hc.1, ih hc.2⟩

/-- The invariant rule: what the steps meeting `G` preserve holds all along a
run whose steps all meet `G`. -/
theorem along_of_meets (hstep : ∀ s a s', I s → G s a → next s a = some s' → I s')
    {s : σ} {as : List α} (hs : I s) (h : Meets next G s as) : Along next I s as := by
  induction as generalizing s with
  | nil => exact hs
  | cons a as ih =>
    cases hn : next s a with
    | none => exact ⟨hs, by simp [hn]⟩
    | some s' =>
      have hg := (meets_cons_some hn).mp h
      exact (along_cons_some hn).mpr ⟨hs, ih (hstep s a s' hs hg.1 hn) hg.2⟩

/-- The invariant rule for steps without a condition, read at the end of a run. -/
theorem exec_invariant (hstep : ∀ s a s', I s → next s a = some s' → I s')
    {s t : σ} {as : List α} (hs : I s) (h : exec next s as = some t) : I t := by
  induction as generalizing s with
  | nil =>
    have he : s = t := Option.some.inj h
    exact he ▸ hs
  | cons a as ih =>
    obtain ⟨s', hn, ht⟩ := exec_cons_eq_some h
    exact ih (hstep s a s' hs hn) ht

/-- Let all steps of a run meet `H`. When, under the invariant `I` of such steps,
exactly those that also meet `G` keep `P`, the run keeps `P` throughout iff all
its steps meet `G`. -/
theorem along_iff_meets {H : σ → α → Prop}
    (hI : ∀ s a s', I s → H s a → next s a = some s' → I s')
    (hkeep : ∀ s a s', I s → P s → H s a → next s a = some s' → (P s' ↔ G s a))
    {s : σ} {as : List α} (hi : I s) (hp : P s) (hH : Meets next H s as) :
    Along next P s as ↔ Meets next G s as := by
  induction as generalizing s with
  | nil => simp [Along, Meets, hp]
  | cons a as ih =>
    cases hn : next s a with
    | none => simp [Along, Meets, hn, hp]
    | some s' =>
      obtain ⟨ha, hm⟩ := (meets_cons_some hn).mp hH
      rw [along_cons_some hn, meets_cons_some hn]
      have hk := hkeep s a s' hi hp ha hn
      have hi' := hI s a s' hi ha hn
      constructor
      · intro hx
        obtain ⟨-, ht⟩ := hx
        exact ⟨hk.mp ht.head, (ih hi' ht.head hm).mp ht⟩
      · intro hx
        obtain ⟨hg, ht⟩ := hx
        exact ⟨hp, (ih hi' (hk.mpr hg) hm).mpr ht⟩

/-- When a step that violates `G` dooms the run and, under `H`, nothing saves a
doomed run, a run that violates `G` somewhere ends doomed. -/
theorem exec_doomed {H : σ → α → Prop} {D : σ → Prop}
    (hI : ∀ s a s', I s → next s a = some s' → I s')
    (hdoom : ∀ s a s', I s → ¬G s a → next s a = some s' → D s')
    (hkeep : ∀ s a s', I s → D s → H s a → next s a = some s' → D s')
    {s t : σ} {as : List α} (hi : I s) (hd : D s ∨ ¬Meets next G s as)
    (hH : Meets next H s as) (h : exec next s as = some t) : D t := by
  induction as generalizing s with
  | nil =>
    have he : s = t := Option.some.inj h
    exact he ▸ hd.resolve_right (not_not_intro trivial)
  | cons a as ih =>
    obtain ⟨s', hn, ht⟩ := exec_cons_eq_some h
    obtain ⟨ha, hm⟩ := (meets_cons_some hn).mp hH
    refine ih (hI s a s' hi hn) ?_ hm ht
    rcases hd with hd | hv
    · exact .inl (hkeep s a s' hi hd ha hn)
    · rw [meets_cons_some hn, Classical.not_and_iff_not_or_not] at hv
      exact hv.imp_left (fun hg => hdoom s a s' hi hg hn)

/-- What the invariant of a run and the condition on its steps imply of each step, the run meets. -/
theorem Meets.of_invariant {H : σ → α → Prop}
    (hstep : ∀ s a s', I s → G s a → next s a = some s' → I s')
    (hH : ∀ s a, I s → G s a → H s a) {s : σ} {as : List α} (hs : I s) (h : Meets next G s as) :
    Meets next H s as := by
  induction as generalizing s with
  | nil => trivial
  | cons a as ih =>
    cases hn : next s a with
    | none => simp [Meets, hn]
    | some s' =>
      have hg := (meets_cons_some hn).mp h
      exact (meets_cons_some hn).mpr ⟨hH s a hs hg.1, ih (hstep s a s' hs hg.1 hn) hg.2⟩

/-- Where, under the invariant of a run, two conditions agree on the steps that are taken, the run
meets both or none. -/
theorem meets_iff_of_invariant {H K : σ → α → Prop}
    (hstep : ∀ s a s', I s → G s a → next s a = some s' → I s')
    (hHK : ∀ s a s', I s → next s a = some s' → (H s a ↔ K s a)) {s : σ} {as : List α}
    (hs : I s) (h : Meets next G s as) : Meets next H s as ↔ Meets next K s as := by
  induction as generalizing s with
  | nil => exact Iff.rfl
  | cons a as ih =>
    cases hn : next s a with
    | none => simp [Meets, hn]
    | some s' =>
      obtain ⟨ha, hm⟩ := (meets_cons_some hn).mp h
      rw [meets_cons_some hn, meets_cons_some hn, hHK s a s' hs hn, ih (hstep s a s' hs ha hn) hm]

/-- A run that meets `G` and goes on meeting it. -/
theorem Meets.append {s t : σ} {as bs : List α} (has : Meets next G s as)
    (he : exec next s as = some t) (hbs : Meets next G t bs) : Meets next G s (as ++ bs) := by
  induction as generalizing s with
  | nil =>
    have hs : s = t := Option.some.inj he
    exact hs ▸ hbs
  | cons a as ih =>
    obtain ⟨s', hs, ht⟩ := exec_cons_eq_some he
    obtain ⟨ha, hm⟩ := (meets_cons_some hs).mp has
    exact (meets_cons_some hs).mpr ⟨ha, ih hm ht⟩

/-- A step that is taken after the first ones of a run. -/
theorem Meets.mid {s t u : σ} {a : α} {as bs : List α} (h : Meets next G s (as ++ a :: bs))
    (he : exec next s as = some t) (hn : next t a = some u) : G t a := by
  induction as generalizing s with
  | nil =>
    have hs : s = t := Option.some.inj he
    subst hs
    exact ((meets_cons_some hn).mp h).1
  | cons b as ih =>
    obtain ⟨s', hs, ht⟩ := exec_cons_eq_some he
    exact ih ((meets_cons_some hs).mp h).2 ht

/-- A system that takes the same steps, and meets `H` where the first meets `G`. -/
theorem Meets.of_simulation {τ : Type*} {next' : τ → α → Option τ} {H : τ → α → Prop}
    {R : σ → τ → Prop} (hnone : ∀ s t a, R s t → next s a = none → next' t a = none)
    (hsome : ∀ s t a s', R s t → G s a → next s a = some s' →
      ∃ t', next' t a = some t' ∧ H t a ∧ R s' t')
    {s : σ} {t : τ} {as : List α} (hR : R s t) (h : Meets next G s as) : Meets next' H t as := by
  induction as generalizing s t with
  | nil => trivial
  | cons a as ih =>
    cases hn : next s a with
    | none => simp [Meets, hnone s t a hR hn]
    | some s' =>
      obtain ⟨hg, hgs⟩ := (meets_cons_some hn).mp h
      obtain ⟨t', hn', hh, hR'⟩ := hsome s t a s' hR hg hn
      exact (meets_cons_some hn').mpr ⟨hh, ih hR' hgs⟩

theorem Meets.and {H : σ → α → Prop} {s : σ} {as : List α} (hG : Meets next G s as)
    (hH : Meets next H s as) : Meets next (fun s a => G s a ∧ H s a) s as := by
  induction as generalizing s with
  | nil => trivial
  | cons a as ih =>
    cases hn : next s a with
    | none => simp [Meets, hn]
    | some s' =>
      obtain ⟨hg, hgs⟩ := (meets_cons_some hn).mp hG
      obtain ⟨hh, hhs⟩ := (meets_cons_some hn).mp hH
      exact (meets_cons_some hn).mpr ⟨⟨hg, hh⟩, ih hgs hhs⟩

theorem meets_of_forall (h : ∀ s a, G s a) (s : σ) (as : List α) : Meets next G s as := by
  induction as generalizing s with
  | nil => trivial
  | cons a as ih =>
    cases hn : next s a with
    | none => simp [Meets, hn]
    | some s' => exact (meets_cons_some hn).mpr ⟨h s a, ih s'⟩

end Belayer.Framework
