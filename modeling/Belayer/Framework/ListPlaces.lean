import Mathlib.Data.List.Basic

namespace Belayer.Framework

/-! Entries of a list that are replaced one by one -/

variable {α : Type*}

theorem getElem?_foldl_set_of_not_mem {pairs : List (Nat × α)} {i : Nat}
    (h : i ∉ pairs.map Prod.fst) (l : List α) :
    (pairs.foldl (fun l p => l.set p.1 p.2) l)[i]? = l[i]? := by
  induction pairs generalizing l with
  | nil => rfl
  | cons p pairs ih =>
    rw [List.map_cons, List.mem_cons, not_or] at h
    rw [List.foldl_cons, ih h.2, List.getElem?_set_ne (Ne.symm h.1)]

theorem getElem?_foldl_set_of_mem {pairs : List (Nat × α)} (hn : (pairs.map Prod.fst).Nodup)
    {i : Nat} {x : α} (h : (i, x) ∈ pairs) {l : List α} (hi : i < l.length) :
    (pairs.foldl (fun l p => l.set p.1 p.2) l)[i]? = some x := by
  induction pairs generalizing l with
  | nil => cases h
  | cons p pairs ih =>
    rw [List.map_cons, List.nodup_cons] at hn
    rw [List.foldl_cons]
    rcases List.mem_cons.mp h with rfl | h
    · rw [getElem?_foldl_set_of_not_mem hn.1, List.getElem?_set_self hi]
    · exact ih hn.2 h (by rwa [List.length_set])

theorem length_foldl_set (pairs : List (Nat × α)) (l : List α) :
    (pairs.foldl (fun l p => l.set p.1 p.2) l).length = l.length := by
  induction pairs generalizing l with
  | nil => rfl
  | cons p pairs ih => rw [List.foldl_cons, ih, List.length_set]

theorem zip_map_self {β : Type*} (f : α → β) (l : List α) :
    l.zip (l.map f) = l.map fun a => (a, f a) := by
  induction l with
  | nil => rfl
  | cons a l ih => rw [List.map_cons, List.zip_cons_cons, ih, List.map_cons]

theorem getElem?_eq_getD_take {l : List α} {n pos : Nat} (a : α) (hl : pos < l.length)
    (hn : pos < n) : l[pos]? = some ((l.take n).getD pos a) := by
  rw [List.getD_eq_getElem?_getD, List.getElem?_take_of_lt hn, List.getElem?_eq_getElem hl,
    Option.getD_some]

/-- Elements that stand at places from `a` to `b` only are at most so many. -/
theorem countP_le_of_places {p : α → Bool} {l : List α} {a b : Nat}
    (h : ∀ (i : Nat) x, l[i]? = some x → p x = true → a ≤ i ∧ i < b) : l.countP p ≤ b - a := by
  induction l generalizing a b with
  | nil => exact Nat.zero_le _
  | cons x l ih =>
    have hrest : l.countP p ≤ (b - 1) - (a - 1) := by
      refine ih fun i y hy hp => ?_
      have := h (i + 1) y (by rwa [List.getElem?_cons_succ]) hp
      omega
    rw [List.countP_cons]
    split_ifs with hx
    · have := h 0 x rfl hx
      omega
    · omega

/-- A place of a filtered range is itself as far as nothing is filtered out. -/
theorem getElem?_filter_range (P : Nat → Bool) (n k : Nat) :
    ((List.range n).filter P)[k]? = some k ↔ k < n ∧ ∀ p ≤ k, P p = true := by
  induction n with
  | zero => simp
  | succ n ih =>
    rw [List.range_succ, List.filter_append]
    by_cases hk : k < ((List.range n).filter P).length
    · rw [List.getElem?_append_left hk, ih]
      have hlt : k < n := by
        have hlength := List.length_filter_le P (List.range n)
        rw [List.length_range] at hlength
        omega
      exact and_congr_left fun _ => ⟨fun _ => by omega, fun _ => hlt⟩
    · -- what is left of the list is the last place at most
      rw [List.getElem?_eq_none (by omega)] at ih
      have hlast : (k < n + 1 ∧ ∀ p ≤ k, P p = true) → k = n := by
        rintro ⟨hkn, hall⟩
        by_contra hne
        exact absurd (ih.mpr ⟨by omega, hall⟩) (by simp)
      rw [List.getElem?_append_right (by omega)]
      constructor
      · intro h
        by_cases hn : P n = true
        · rw [List.filter_cons_of_pos hn, List.filter_nil, List.getElem?_singleton] at h
          split_ifs at h with hfirst
          obtain rfl : n = k := Option.some.inj h
          have hfull : ((List.range n).filter P).length = (List.range n).length := by
            rw [List.length_range]
            omega
          have hbefore := List.length_filter_eq_length_iff.mp hfull
          refine ⟨Nat.lt_succ_self n, fun p hp => ?_⟩
          rcases Nat.lt_or_eq_of_le hp with hlt | rfl
          · exact hbefore p (List.mem_range.mpr hlt)
          · exact hn
        · rw [List.filter_cons_of_neg hn, List.filter_nil, List.getElem?_nil] at h
          cases h
      · intro h
        obtain rfl := hlast h
        have hfull : ((List.range k).filter P).length = k := by
          rw [List.filter_eq_self.mpr fun p hp => h.2 p (Nat.le_of_lt (List.mem_range.mp hp)),
            List.length_range]
        rw [List.filter_cons_of_pos (h.2 k (Nat.le_refl k)), hfull, Nat.sub_self,
          List.getElem?_cons_zero]

/-! The first elements of a sorted list -/

section Ranks

variable {α : Type*} {r : α → α → Prop} [DecidableRel r] {l : List α}

/-- An element is among the first `m` when fewer than `m` come strictly before it. -/
theorem mem_take_iff_countP (hrefl : ∀ a, r a a) (hsorted : l.Pairwise r) (hnodup : l.Nodup)
    (hanti : ∀ a ∈ l, ∀ b ∈ l, r a b → r b a → a = b) {x : α} (hx : x ∈ l) (m : Nat) :
    x ∈ l.take m ↔ l.countP (fun y => ¬r x y) < m := by
  induction l generalizing m with
  | nil => cases hx
  | cons a l ih =>
    obtain ⟨hfirst, hrest⟩ := List.pairwise_cons.mp hsorted
    obtain ⟨hnew, hnodup⟩ := List.nodup_cons.mp hnodup
    cases m with
    | zero => simp
    | succ m =>
      rcases List.mem_cons.mp hx with rfl | hx
      · have hzero : l.countP (fun y => ¬r x y) = 0 := by
          refine List.countP_eq_zero.mpr fun y hy => ?_
          simp [hfirst y hy]
        rw [List.countP_cons_of_neg (by simp [hrefl x]), hzero, List.take_succ_cons]
        simp
      · have hne : x ≠ a := fun h => hnew (h ▸ hx)
        have hbefore : ¬r x a := fun h => hne (hanti x (List.mem_cons_of_mem a hx) a
          (List.mem_cons_self ..) h (hfirst x hx))
        have htail := ih hrest hnodup (fun b hb c hc => hanti b (List.mem_cons_of_mem a hb) c
          (List.mem_cons_of_mem a hc)) hx m
        rw [List.countP_cons_of_pos (by simp [hbefore]), List.take_succ_cons, List.mem_cons,
          or_iff_right hne, htail, Nat.succ_lt_succ_iff]

end Ranks

end Belayer.Framework
