import Mathlib.Data.List.Basic

namespace Belayer.Framework

variable {α : Type*} {R : α → α → Prop} {l : List α} {a b : α} {i : Nat}

/-- Members at different places are related. -/
def Apart (R : α → α → Prop) (l : List α) : Prop :=
  ∀ (i j : Nat) (a b : α), i ≠ j → l[i]? = some a → l[j]? = some b → R a b

theorem apart_nil : Apart R [] := by
  intro i j a b _ ha
  simp at ha

/-- What is in the list after a replacement: the new member, or one from another place. -/
theorem mem_set_cases (h : b ∈ l.set i a) : b = a ∨ ∃ j, i ≠ j ∧ l[j]? = some b := by
  obtain ⟨j, hj⟩ := List.mem_iff_getElem?.mp h
  by_cases hij : i = j
  · subst hij
    rw [List.getElem?_set] at hj
    split_ifs at hj
    · exact .inl (Option.some.inj hj).symm
    · simp_all
  · rw [List.getElem?_set_ne hij] at hj
    exact .inr ⟨j, hij, hj⟩

theorem getElem?_concat_cases (h : (l ++ [a])[i]? = some b) :
    l[i]? = some b ∨ i = l.length ∧ b = a := by
  rw [List.getElem?_append] at h
  split_ifs at h with hlt
  · exact .inl h
  · have hb := List.mem_singleton.mp (List.mem_of_getElem? h)
    have hi := (List.getElem?_eq_some_iff.mp h).1
    simp only [List.length_singleton] at hi
    exact .inr ⟨by omega, hb⟩

theorem Apart.concat (h : Apart R l) (hl : ∀ b ∈ l, R a b ∧ R b a) : Apart R (l ++ [a]) := by
  intro i j b c hij hb hc
  rcases getElem?_concat_cases hb with hbl | ⟨hi, hba⟩
  · rcases getElem?_concat_cases hc with hcl | ⟨-, hca⟩
    · exact h i j b c hij hbl hcl
    · rw [hca]
      exact (hl b (List.mem_of_getElem? hbl)).2
  · rcases getElem?_concat_cases hc with hcl | ⟨hj, -⟩
    · rw [hba]
      exact (hl c (List.mem_of_getElem? hcl)).1
    · exact absurd (hi.trans hj.symm) hij

theorem Apart.set (h : Apart R l)
    (hl : ∀ (j : Nat) (b : α), i ≠ j → l[j]? = some b → R a b ∧ R b a) :
    Apart R (l.set i a) := by
  intro j k b c hjk hb hc
  by_cases hij : i = j
  · subst hij
    rw [List.getElem?_set_ne hjk] at hc
    rw [List.getElem?_set] at hb
    split_ifs at hb
    · cases hb
      exact (hl k c hjk hc).1
    · simp_all
  · rw [List.getElem?_set_ne hij] at hb
    by_cases hik : i = k
    · subst hik
      rw [List.getElem?_set] at hc
      split_ifs at hc
      · cases hc
        exact (hl j b hij hb).2
      · simp_all
    · rw [List.getElem?_set_ne hik] at hc
      exact h j k b c hjk hb hc

/-- No two members have the same key. -/
theorem eq_of_nodup_filterMap {κ : Type*} {f : α → Option κ} {k : κ} (h : (l.filterMap f).Nodup)
    (ha : a ∈ l) (hb : b ∈ l) (hfa : f a = some k) (hfb : f b = some k) : a = b := by
  induction l with
  | nil => cases ha
  | cons c l ih =>
    rw [List.filterMap_cons] at h
    have hlater : ∀ d ∈ l, f d = some k → f c ≠ some k := by
      intro d hd hfd hfc
      rw [hfc] at h
      exact (List.nodup_cons.mp h).1 (List.mem_filterMap.mpr ⟨d, hd, hfd⟩)
    have hrest : (l.filterMap f).Nodup := by
      cases hc : f c with
      | none =>
        rw [hc] at h
        exact h
      | some k' =>
        rw [hc] at h
        exact (List.nodup_cons.mp h).2
    rcases List.mem_cons.mp ha with hac | ha
    · rcases List.mem_cons.mp hb with hbc | hb
      · rw [hac, hbc]
      · rw [hac] at hfa
        exact absurd hfa (hlater b hb hfb)
    · rcases List.mem_cons.mp hb with hbc | hb
      · rw [hbc] at hfb
        exact absurd hfb (hlater a ha hfa)
      · exact ih hrest ha hb

/-- A replacement with the same key. -/
theorem filterMap_set {κ : Type*} {f : α → Option κ} (h : l[i]? = some a) (hf : f b = f a) :
    (l.set i b).filterMap f = l.filterMap f := by
  induction l generalizing i with
  | nil => rfl
  | cons c l ih =>
    cases i with
    | zero =>
      obtain rfl : c = a := Option.some.inj h
      rw [List.set_cons_zero, List.filterMap_cons, List.filterMap_cons, hf]
    | succ i =>
      rw [List.set_cons_succ, List.filterMap_cons, List.filterMap_cons, ih h]

end Belayer.Framework
