import Mathlib.Data.List.Basic

namespace Belayer.Framework

variable {α : Type*} [DecidableEq α]

/-- Mark the parent of what is on the stack, and its parent, until the stack is empty. -/
def mark (parent : α → Option α) : Nat → List α → List α → List α
  | 0, _, marked => marked
  | _ + 1, [], marked => marked
  | fuel + 1, a :: stack, marked =>
    match parent a with
    | none => mark parent fuel stack marked
    | some p =>
      if p ∈ marked then mark parent fuel stack marked
      else mark parent fuel (p :: stack) (p :: marked)

variable {parent : α → Option α} {stack marked all : List α} {fuel : Nat}

theorem mark_of_none {a : α} (h : parent a = none) :
    mark parent (fuel + 1) (a :: stack) marked = mark parent fuel stack marked := by
  simp only [mark, h]

theorem mark_of_some {a p : α} (h : parent a = some p) :
    mark parent (fuel + 1) (a :: stack) marked =
      if p ∈ marked then mark parent fuel stack marked
      else mark parent fuel (p :: stack) (p :: marked) := by
  simp only [mark, h]

theorem mem_mark_of_mem {a : α} (h : a ∈ marked) : a ∈ mark parent fuel stack marked := by
  induction fuel generalizing stack marked with
  | zero => exact h
  | succ fuel ih =>
    cases stack with
    | nil => exact h
    | cons b stack =>
      cases hparent : parent b with
      | none =>
        rw [mark_of_none hparent]
        exact ih h
      | some p =>
        rw [mark_of_some hparent]
        split_ifs
        · exact ih h
        · exact ih (List.mem_cons_of_mem _ h)

/-- What is marked lies in every set that has the first marks and is closed under parents. -/
theorem mem_of_mem_mark {S : α → Prop} (hclosed : ∀ a p, S a → parent a = some p → S p)
    (hmarked : ∀ a ∈ marked, S a) (hstack : ∀ a ∈ stack, S a) :
    ∀ a ∈ mark parent fuel stack marked, S a := by
  induction fuel generalizing stack marked with
  | zero => exact hmarked
  | succ fuel ih =>
    cases stack with
    | nil => exact hmarked
    | cons b stack =>
      obtain ⟨hb, hrest⟩ := List.forall_mem_cons.mp hstack
      cases hparent : parent b with
      | none =>
        rw [mark_of_none hparent]
        exact ih hmarked hrest
      | some p =>
        have hp := hclosed b p hb hparent
        rw [mark_of_some hparent]
        split_ifs
        · exact ih hmarked hrest
        · exact ih (List.forall_mem_cons.mpr ⟨hp, hmarked⟩) (List.forall_mem_cons.mpr ⟨hp, hrest⟩)

/-- A new mark leaves fewer without. -/
theorem countP_cons_lt {p : α} (hp : p ∈ all) (hnew : p ∉ marked) :
    all.countP (· ∉ p :: marked) < all.countP (· ∉ marked) := by
  induction all with
  | nil => simp at hp
  | cons a all ih =>
    have hle : all.countP (· ∉ p :: marked) ≤ all.countP (· ∉ marked) :=
      List.countP_mono_left fun b _ hb => by simp at hb ⊢; exact hb.2
    rw [List.countP_cons, List.countP_cons]
    by_cases ha : a = p
    · subst ha
      simp [hnew]
      simp at hle
      omega
    · have hlt := ih ((List.mem_cons.mp hp).resolve_left (Ne.symm ha))
      have hiff : (a ∉ p :: marked) ↔ a ∉ marked := by simp [ha]
      simp only [hiff]
      omega

/-- With fuel for the stack and for what is not marked yet, the marks are closed under
parents. -/
theorem mark_closed (all : List α) (hall : ∀ a p, parent a = some p → p ∈ all)
    (hstack : ∀ a ∈ marked, a ∈ stack ∨ ∀ p, parent a = some p → p ∈ marked)
    (hfuel : stack.length + all.countP (· ∉ marked) ≤ fuel) :
    ∀ a ∈ mark parent fuel stack marked, ∀ p, parent a = some p →
      p ∈ mark parent fuel stack marked := by
  induction fuel generalizing stack marked with
  | zero =>
    have hnil : stack = [] := List.length_eq_zero_iff.mp (by omega)
    subst hnil
    intro a ha p hp
    exact (hstack a ha).resolve_left (by simp) p hp
  | succ fuel ih =>
    cases stack with
    | nil =>
      intro a ha p hp
      exact (hstack a ha).resolve_left (by simp) p hp
    | cons b stack =>
      simp only [List.length_cons] at hfuel
      cases hb : parent b with
      | none =>
        rw [mark_of_none hb]
        refine ih ?_ (by omega)
        intro a ha
        rcases hstack a ha with hm | hm
        · rcases List.mem_cons.mp hm with rfl | hm
          · exact .inr fun p hp => by simp [hb] at hp
          · exact .inl hm
        · exact .inr hm
      | some q =>
        rw [mark_of_some hb]
        split_ifs with hq
        · refine ih ?_ (by omega)
          intro a ha
          rcases hstack a ha with hm | hm
          · rcases List.mem_cons.mp hm with rfl | hm
            · refine .inr fun p hp => ?_
              rw [hb] at hp
              cases hp
              exact hq
            · exact .inl hm
          · exact .inr hm
        · have hlt := countP_cons_lt (hall b q hb) hq
          refine ih ?_ (by simp only [List.length_cons]; omega)
          intro a ha
          rcases List.mem_cons.mp ha with rfl | ha
          · exact .inl (List.mem_cons_self ..)
          · rcases hstack a ha with hm | hm
            · rcases List.mem_cons.mp hm with rfl | hm
              · refine .inr fun p hp => ?_
                rw [hb] at hp
                cases hp
                exact List.mem_cons_self ..
              · exact .inl (List.mem_cons_of_mem _ hm)
            · exact .inr fun p hp => List.mem_cons_of_mem _ (hm p hp)

/-- The first of those with the same key, the ones with a key in `seen` left out. -/
def keepFirst {β : Type*} (key : β → α) : List α → List β → List β
  | _, [] => []
  | seen, b :: l =>
    if key b ∈ seen then keepFirst key seen l else b :: keepFirst key (key b :: seen) l

variable {β : Type*} {key : β → α} {seen : List α} {l : List β}

theorem keepFirst_nil : keepFirst key seen [] = [] := rfl

theorem keepFirst_cons {b : β} :
    keepFirst key seen (b :: l) =
      if key b ∈ seen then keepFirst key seen l else b :: keepFirst key (key b :: seen) l := rfl

theorem keepFirst_sublist : (keepFirst key seen l).Sublist l := by
  induction l generalizing seen with
  | nil => exact .slnil
  | cons b l ih =>
    rw [keepFirst_cons]
    split_ifs
    · exact ih.cons b
    · exact ih.cons_cons b

theorem key_not_mem_of_mem_keepFirst {b : β} (h : b ∈ keepFirst key seen l) : key b ∉ seen := by
  induction l generalizing seen with
  | nil => simp [keepFirst_nil] at h
  | cons c l ih =>
    rw [keepFirst_cons] at h
    split_ifs at h with hc
    · exact ih h
    · rcases List.mem_cons.mp h with rfl | h
      · exact hc
      · exact fun hs => ih h (List.mem_cons_of_mem _ hs)

theorem nodup_keys_keepFirst : ((keepFirst key seen l).map key).Nodup := by
  induction l generalizing seen with
  | nil => simp [keepFirst_nil]
  | cons b l ih =>
    rw [keepFirst_cons]
    split_ifs
    · exact ih
    · rw [List.map_cons, List.nodup_cons]
      refine ⟨?_, ih⟩
      intro hb
      obtain ⟨c, hc, he⟩ := List.mem_map.mp hb
      exact key_not_mem_of_mem_keepFirst hc (he ▸ List.mem_cons_self ..)

variable (key) in
theorem exists_mem_keepFirst {b : β} (h : b ∈ l) (hs : key b ∉ seen) :
    ∃ c ∈ keepFirst key seen l, key c = key b := by
  induction l generalizing seen with
  | nil => simp at h
  | cons c l ih =>
    rw [keepFirst_cons]
    rcases List.mem_cons.mp h with rfl | h
    · exact ⟨b, by simp [hs], rfl⟩
    · split_ifs with hc
      · exact ih h hs
      · by_cases hbc : key b = key c
        · exact ⟨c, List.mem_cons_self .., hbc.symm⟩
        · have hseen : key b ∉ key c :: seen := by simp [hbc, hs]
          obtain ⟨d, hd, he⟩ := ih h hseen
          exact ⟨d, List.mem_cons_of_mem _ hd, he⟩

end Belayer.Framework
