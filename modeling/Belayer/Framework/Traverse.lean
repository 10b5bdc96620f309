import Mathlib.Data.List.Basic
import Mathlib.Data.List.Forall2

namespace Belayer.Framework

/-! Loops that may stop: `mapM` and `foldlM` over a list with an optional result. -/

variable {α β σ : Type*}

theorem mapM_eq_some_iff {f : α → Option β} {l : List α} {r : List β} :
    l.mapM f = some r ↔ l.map f = r.map some := by
  induction l generalizing r with
  | nil => cases r <;> simp
  | cons a l ih =>
    rw [List.mapM_cons, List.map_cons]
    cases ha : f a with
    | none => cases r <;> simp
    | some b =>
      cases r with
      | nil => simp [Option.bind_eq_some_iff]
      | cons c r =>
        simp only [Option.bind_eq_bind, Option.bind_some, List.map_cons, List.cons.injEq,
          Option.some.injEq, ← ih, Option.bind_eq_some_iff, Option.pure_def]
        constructor
        · rintro ⟨r', hr', rfl, rfl⟩
          exact ⟨rfl, hr'⟩
        · rintro ⟨rfl, hr⟩
          exact ⟨r, hr, rfl, rfl⟩

theorem mapM_triple_eq_some_iff {f : α → Option β} {a₁ a₂ a₃ : α} {r : List β} :
    [a₁, a₂, a₃].mapM f = some r ↔
      ∃ b₁ b₂ b₃, f a₁ = some b₁ ∧ f a₂ = some b₂ ∧ f a₃ = some b₃ ∧ r = [b₁, b₂, b₃] := by
  rw [mapM_eq_some_iff]
  constructor
  · intro h
    have hlength := congrArg List.length h
    rw [List.length_map, List.length_map] at hlength
    obtain ⟨b₁, b₂, b₃, rfl⟩ := List.length_eq_three.mp hlength.symm
    simp only [List.map_cons, List.map_nil, List.cons.injEq, and_true] at h
    exact ⟨b₁, b₂, b₃, h.1, h.2.1, h.2.2, rfl⟩
  · rintro ⟨b₁, b₂, b₃, h₁, h₂, h₃, rfl⟩
    simp [h₁, h₂, h₃]

theorem isSome_of_mapM {f : α → Option β} {l : List α} {r : List β} (h : l.mapM f = some r) {a : α}
    (ha : a ∈ l) : (f a).isSome := by
  have hmem : f a ∈ r.map some := mapM_eq_some_iff.mp h ▸ List.mem_map_of_mem ha
  obtain ⟨b, -, hb⟩ := List.mem_map.mp hmem
  rw [← hb]
  rfl

/-- What holds at the start and after each turn of a loop holds at its end. -/
theorem foldlM_induction {f : σ → α → Option σ} {l : List α} {s s' : σ} (P : σ → Prop)
    (h : l.foldlM f s = some s') (hs : P s) (hstep : ∀ a ∈ l, ∀ s s', P s → f s a = some s' → P s') :
    P s' := by
  induction l generalizing s with
  | nil =>
    cases h
    exact hs
  | cons a l ih =>
    rw [List.foldlM_cons] at h
    obtain ⟨next, hnext, hrest⟩ := Option.bind_eq_some_iff.mp h
    exact ih hrest (hstep a (List.mem_cons_self ..) s next hs hnext)
      fun b hb => hstep b (List.mem_cons_of_mem _ hb)

/-- A loop around one of its turns. -/
theorem foldlM_split {f : σ → α → Option σ} {l m : List α} {a : α} {s s' : σ}
    (h : (l ++ a :: m).foldlM f s = some s') :
    ∃ t u, l.foldlM f s = some t ∧ f t a = some u ∧ m.foldlM f u = some s' := by
  rw [List.foldlM_append] at h
  obtain ⟨t, ht, h⟩ := Option.bind_eq_some_iff.mp h
  rw [List.foldlM_cons] at h
  obtain ⟨u, hu, h⟩ := Option.bind_eq_some_iff.mp h
  exact ⟨t, u, ht, hu, h⟩

/-- A loop of which no turn stops does not stop. -/
theorem exists_foldlM {f : σ → α → Option σ} {l : List α} (h : ∀ a ∈ l, ∀ s, ∃ s', f s a = some s')
    (s : σ) : ∃ s', l.foldlM f s = some s' := by
  induction l generalizing s with
  | nil => exact ⟨s, rfl⟩
  | cons a l ih =>
    obtain ⟨ha, hl⟩ := List.forall_mem_cons.mp h
    obtain ⟨t, ht⟩ := ha s
    obtain ⟨s', hs'⟩ := ih hl t
    exact ⟨s', by rw [List.foldlM_cons, ht]; exact hs'⟩

theorem exists_mapM {f : α → Option β} {l : List α} (h : ∀ a ∈ l, (f a).isSome) :
    ∃ r, l.mapM f = some r := by
  induction l with
  | nil => exact ⟨[], rfl⟩
  | cons a l ih =>
    obtain ⟨ha, hl⟩ := List.forall_mem_cons.mp h
    obtain ⟨b, hb⟩ := Option.isSome_iff_exists.mp ha
    obtain ⟨r, hr⟩ := ih hl
    exact ⟨b :: r, by rw [List.mapM_cons, hb, hr]; rfl⟩

/-- Each result of the loop is that of the step there. -/
theorem getElem?_of_mapM {f : α → Option β} {l : List α} {r : List β} (h : l.mapM f = some r)
    (i : Nat) : r[i]? = l[i]?.bind f := by
  have hmap := congrArg (fun xs => xs[i]?) (mapM_eq_some_iff.mp h)
  simp only [List.getElem?_map] at hmap
  cases hl : l[i]? with
  | none =>
    rw [hl, Option.map_none] at hmap
    exact Option.map_eq_none_iff.mp hmap.symm
  | some a =>
    rw [hl, Option.map_some] at hmap
    obtain ⟨b, hb, hfa⟩ := Option.map_eq_some_iff.mp hmap.symm
    rw [hb, Option.bind_some, hfa]

theorem eq_map_of_mapM {f : α → Option β} {g : α → β} {l : List α} {r : List β}
    (h : l.mapM f = some r) (hf : ∀ a ∈ l, ∀ b, f a = some b → b = g a) : r = l.map g := by
  have hmap := mapM_eq_some_iff.mp h
  apply List.map_injective_iff.mpr fun _ _ => Option.some.inj
  rw [← hmap, List.map_map]
  refine List.map_congr_left fun a ha => ?_
  have hmem : f a ∈ r.map some := hmap ▸ List.mem_map_of_mem ha
  obtain ⟨b, -, hb⟩ := List.mem_map.mp hmem
  rw [Function.comp_apply, ← hb, hf a ha b hb.symm]

theorem mapM_cons_eq_some_iff {f : α → Option β} {a : α} {l : List α} {r : List β} :
    (a :: l).mapM f = some r ↔ ∃ b bs, f a = some b ∧ l.mapM f = some bs ∧ b :: bs = r := by
  simp only [mapM_eq_some_iff, List.map_cons]
  constructor
  · intro h
    cases r with
    | nil => cases h
    | cons b bs =>
      obtain ⟨hb, hbs⟩ := List.cons.inj h
      exact ⟨b, bs, hb, hbs, rfl⟩
  · rintro ⟨b, bs, hb, hbs, rfl⟩
    rw [hb, hbs, List.map_cons]

theorem mapM_append_eq_some_iff {f : α → Option β} {l m : List α} {r : List β} :
    (l ++ m).mapM f = some r ↔
      ∃ rl rm, l.mapM f = some rl ∧ m.mapM f = some rm ∧ rl ++ rm = r := by
  simp only [mapM_eq_some_iff, List.map_append]
  constructor
  · intro h
    obtain ⟨rl, rm, rfl, hl, hm⟩ := List.map_eq_append_iff.mp h.symm
    exact ⟨rl, rm, hl.symm, hm.symm, rfl⟩
  · rintro ⟨rl, rm, hl, hm, rfl⟩
    rw [hl, hm, List.map_append]

/-- A loop over parts of a list, one part after the other. -/
theorem mapM_flatten_eq_some_iff {f : α → Option β} {ls : List (List α)} {r : List β} :
    ls.flatten.mapM f = some r ↔ ∃ rs, ls.mapM (List.mapM f) = some rs ∧ rs.flatten = r := by
  induction ls generalizing r with
  | nil =>
    rw [List.flatten_nil, mapM_eq_some_iff]
    constructor
    · intro h
      have hr : r = [] := List.map_eq_nil_iff.mp h.symm
      exact ⟨[], rfl, hr.symm⟩
    · rintro ⟨rs, hrs, rfl⟩
      cases hrs
      rfl
  | cons l ls ih =>
    rw [List.flatten_cons, mapM_append_eq_some_iff]
    constructor
    · rintro ⟨rl, rm, hl, hm, rfl⟩
      obtain ⟨rs, hrs, rfl⟩ := ih.mp hm
      exact ⟨rl :: rs, by rw [List.mapM_cons, hl, hrs]; rfl, rfl⟩
    · rintro ⟨rs, hrs, rfl⟩
      rw [List.mapM_cons] at hrs
      obtain ⟨rl, hl, hrs⟩ := Option.bind_eq_some_iff.mp hrs
      obtain ⟨rest, hrest, he⟩ := Option.bind_eq_some_iff.mp hrs
      cases he
      exact ⟨rl, rest.flatten, hl, ih.mpr ⟨rest, hrest, rfl⟩, rfl⟩

theorem exists_of_mem_forall₂ {γ : Type*} {R : γ → α → Prop} {l : List γ} {m : List α}
    (h : List.Forall₂ R l m) {c : γ} (hc : c ∈ l) : ∃ a ∈ m, R c a := by
  induction h with
  | nil => exact absurd hc List.not_mem_nil
  | cons hR hrest ih =>
    rcases List.mem_cons.mp hc with rfl | hc
    · exact ⟨_, List.mem_cons_self, hR⟩
    · obtain ⟨a, ha, hRa⟩ := ih hc
      exact ⟨a, List.mem_cons_of_mem _ ha, hRa⟩

theorem forall₂_trans {γ : Type*} {R : γ → α → Prop} {S : α → β → Prop} {T : γ → β → Prop}
    {l : List γ} {m : List α} {r : List β} (h : List.Forall₂ R l m) (hr : List.Forall₂ S m r)
    (hT : ∀ c, ∀ a ∈ m, ∀ b, R c a → S a b → T c b) : List.Forall₂ T l r := by
  induction h generalizing r with
  | nil =>
    cases hr
    exact .nil
  | cons hR _ ih =>
    cases hr with
    | cons hS hrest =>
      exact .cons (hT _ _ List.mem_cons_self _ hR hS)
        (ih hrest fun c a ha => hT c a (List.mem_cons_of_mem _ ha))

theorem forall₂_mapM {f : α → Option β} {l : List α} {r : List β} (h : l.mapM f = some r) :
    List.Forall₂ (fun a b => f a = some b) l r := by
  have hmap := mapM_eq_some_iff.mp h
  rw [← List.forall₂_map_left_iff (f := f) (R := fun c b => c = some b),
    ← List.forall₂_map_right_iff (f := some) (R := fun c d => c = d), List.forall₂_eq_eq_eq]
  exact hmap

theorem forall₂_imp_of_mem {γ : Type*} {R S : γ → α → Prop} {l : List γ} {m : List α}
    (h : List.Forall₂ R l m) (hS : ∀ c ∈ l, ∀ a, R c a → S c a) : List.Forall₂ S l m := by
  induction h with
  | nil => exact .nil
  | cons hR _ ih =>
    obtain ⟨hc, hl⟩ := List.forall_mem_cons.mp hS
    exact .cons (hc _ hR) (ih hl)

theorem forall₂_flatMap {γ ι : Type*} {R : γ → α → Prop} {f : ι → List γ} {g : ι → List α}
    {l : List ι} (h : ∀ i ∈ l, List.Forall₂ R (f i) (g i)) :
    List.Forall₂ R (l.flatMap f) (l.flatMap g) := by
  induction l with
  | nil => exact .nil
  | cons i l ih =>
    obtain ⟨hi, hl⟩ := List.forall_mem_cons.mp h
    rw [List.flatMap_cons, List.flatMap_cons]
    exact List.rel_append hi (ih hl)

theorem mapM_eq_ok {ε : Type*} {f : α → Except ε β} {g : α → β} {l : List α}
    (h : ∀ a ∈ l, f a = .ok (g a)) : l.mapM f = .ok (l.map g) := by
  induction l with
  | nil => rfl
  | cons a l ih =>
    obtain ⟨ha, hl⟩ := List.forall_mem_cons.mp h
    rw [List.mapM_cons, ha, ih hl]
    rfl

/-- Two lists made of as long parts are equal where the parts are. -/
theorem flatMap_eq_flatMap_iff {f g : α → List β} {l : List α}
    (h : ∀ a ∈ l, (f a).length = (g a).length) :
    l.flatMap f = l.flatMap g ↔ ∀ a ∈ l, f a = g a := by
  induction l with
  | nil => simp
  | cons a l ih =>
    obtain ⟨ha, hl⟩ := List.forall_mem_cons.mp h
    rw [List.flatMap_cons, List.flatMap_cons, List.forall_mem_cons, ← ih hl]
    constructor
    · exact fun heq => List.append_inj heq ha
    · rintro ⟨hfirst, hrest⟩
      rw [hfirst, hrest]

theorem exists_bind_error {α β : Type} {x : Except ε α} (h : ∃ error, x = .error error)
    (g : α → Except ε β) :
    ∃ error, x >>= g = .error error := by
  obtain ⟨error, rfl⟩ := h
  exact ⟨error, rfl⟩

/-- A step that always fails on an element makes the loop over the list fail. -/
theorem exists_foldlM_error {f : β → α → Except ε β} {a : α}
    (hf : ∀ b, ∃ error, f b a = .error error) :
    ∀ (l : List α) (b : β), a ∈ l → ∃ error, l.foldlM f b = .error error := by
  intro l
  induction l with
  | nil => exact fun b hmem => absurd hmem List.not_mem_nil
  | cons first l ih =>
    intro b hmem
    rw [List.foldlM_cons]
    cases hfirst : f b first with
    | error error => exact ⟨error, rfl⟩
    | ok next =>
      rcases List.mem_cons.mp hmem with rfl | hmem
      · obtain ⟨error, herror⟩ := hf b
        rw [hfirst] at herror
        cases herror
      · exact ih next hmem

end Belayer.Framework
