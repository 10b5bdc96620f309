import Mathlib.Data.List.Basic

namespace Belayer.Framework

variable {α β : Type*} {date : β → Nat} {f : α → Option β}

/-- The records of a list bear the number of their place, counted from the given one. -/
def DatedFrom (date : β → Nat) (f : α → Option β) : Nat → List α → Prop
  | _, [] => True
  | n, a :: l => (∀ b ∈ f a, date b = n) ∧ DatedFrom date f (n + 1) l

theorem datedFrom_append {n : Nat} {l m : List α} :
    DatedFrom date f n (l ++ m) ↔ DatedFrom date f n l ∧ DatedFrom date f (n + l.length) m := by
  induction l generalizing n with
  | nil => simp [DatedFrom]
  | cons a l ih =>
    rw [List.cons_append, List.length_cons, DatedFrom, DatedFrom, ih, and_assoc]
    have hplace : n + 1 + l.length = n + (l.length + 1) := by omega
    rw [hplace]

theorem DatedFrom.take {n : Nat} {l : List α} (h : DatedFrom date f n l) (r : Nat) :
    DatedFrom date f n (l.take r) := by
  rw [← List.take_append_drop r l, datedFrom_append] at h
  exact h.1

/-- The dates lie between the first place and the last. -/
theorem DatedFrom.bounds {n : Nat} {l : List α} (h : DatedFrom date f n l) {b : β}
    (hb : b ∈ l.filterMap f) : n ≤ date b ∧ date b < n + l.length := by
  induction l generalizing n with
  | nil => cases hb
  | cons a l ih =>
    obtain ⟨hhead, htail⟩ := h
    obtain ⟨c, hc, hcb⟩ := List.mem_filterMap.mp hb
    rcases List.mem_cons.mp hc with rfl | hc
    · have hdate := hhead b hcb
      rw [List.length_cons]
      omega
    · have hrest := ih htail (List.mem_filterMap.mpr ⟨c, hc, hcb⟩)
      rw [List.length_cons]
      omega

theorem DatedFrom.pairwise {n : Nat} {l : List α} (h : DatedFrom date f n l) :
    (l.filterMap f).Pairwise (date · < date ·) := by
  induction l generalizing n with
  | nil => exact List.Pairwise.nil
  | cons a l ih =>
    obtain ⟨hhead, htail⟩ := h
    cases ha : f a with
    | none =>
      rw [List.filterMap_cons_none ha]
      exact ih htail
    | some b =>
      rw [List.filterMap_cons_some ha, List.pairwise_cons]
      refine ⟨fun c hc => ?_, ih htail⟩
      have hdate := hhead b ha
      have hlater := (htail.bounds hc).1
      omega

/-- What is dated before a place is what the list has before it. -/
theorem DatedFrom.filter_lt {l : List α} (h : DatedFrom date f 0 l) (r : Nat) :
    (l.filterMap f).filter (date · < r) = (l.take r).filterMap f := by
  have hsplit := h
  rw [← List.take_append_drop r l, datedFrom_append] at hsplit
  obtain ⟨hfirst, hlast⟩ := hsplit
  have hkept : ((l.take r).filterMap f).filter (date · < r) = (l.take r).filterMap f := by
    rw [List.filter_eq_self]
    intro b hb
    have hdate := (hfirst.bounds hb).2
    have hlength := List.length_take_le r l
    rw [decide_eq_true_eq]
    omega
  have hdropped : ((l.drop r).filterMap f).filter (date · < r) = [] := by
    rw [List.filter_eq_nil_iff]
    intro b hb
    have hdate := (hlast.bounds hb).1
    have hlong : r ≤ l.length := by
      by_contra hshort
      rw [List.drop_eq_nil_of_le (by omega)] at hb
      cases hb
    rw [List.length_take, Nat.min_eq_left hlong] at hdate
    rw [decide_eq_true_eq]
    omega
  calc (l.filterMap f).filter (date · < r)
      = ((l.take r ++ l.drop r).filterMap f).filter (date · < r) := by rw [List.take_append_drop]
    _ = (l.take r).filterMap f := by
      rw [List.filterMap_append, List.filter_append, hkept, hdropped, List.append_nil]

theorem DatedFrom.date_eq {n : Nat} {l : List α} (h : DatedFrom date f n l) {i : Nat} {a : α} {b : β}
    (ha : l[i]? = some a) (hb : f a = some b) : date b = n + i := by
  induction l generalizing n i with
  | nil => cases ha
  | cons first l ih =>
    obtain ⟨hhead, htail⟩ := h
    cases i with
    | zero =>
      obtain rfl : first = a := Option.some.inj ha
      exact hhead b hb
    | succ i =>
      have hdate := ih htail ha
      omega

/-- A record is that of the place it is dated with. -/
theorem DatedFrom.exists_place {n : Nat} {l : List α} (h : DatedFrom date f n l) {b : β}
    (hb : b ∈ l.filterMap f) : ∃ i a, l[i]? = some a ∧ f a = some b ∧ date b = n + i := by
  induction l generalizing n with
  | nil => cases hb
  | cons first l ih =>
    obtain ⟨hhead, htail⟩ := h
    obtain ⟨a, ha, hab⟩ := List.mem_filterMap.mp hb
    rcases List.mem_cons.mp ha with rfl | ha
    · exact ⟨0, a, rfl, hab, hhead b hab⟩
    · obtain ⟨i, a', hi, hab', hdate⟩ := ih htail (List.mem_filterMap.mpr ⟨a, ha, hab⟩)
      exact ⟨i + 1, a', hi, hab', by omega⟩

/-- Where all places before a record have one, it stands at its own place. -/
theorem getElem?_filterMap {l : List α} {k : Nat} {a : α} {b : β} (ha : l[k]? = some a)
    (hab : f a = some b) (hall : ∀ c ∈ l.take k, (f c).isSome) : (l.filterMap f)[k]? = some b := by
  have hlt : k < l.length := (List.getElem?_eq_some_iff.mp ha).1
  have hsplit : l = l.take k ++ a :: l.drop (k + 1) := by
    rw [← (List.getElem?_eq_some_iff.mp ha).2, ← List.drop_eq_getElem_cons hlt,
      List.take_append_drop]
  have hlength : ((l.take k).filterMap f).length = k := by
    rw [List.filterMap_length_eq_length.mpr hall, List.length_take,
      Nat.min_eq_left (Nat.le_of_lt hlt)]
  rw [hsplit, List.filterMap_append, List.filterMap_cons_some hab,
    List.getElem?_append_right (Nat.le_of_eq hlength), hlength, Nat.sub_self]
  rfl

/-- An element with a later one is not the last. -/
theorem mem_dropLast_of_lt {l : List β} (h : l.Pairwise (date · < date ·)) {a b : β} (ha : a ∈ l)
    (hb : b ∈ l) (hlt : date a < date b) : a ∈ l.dropLast := by
  have hne := List.ne_nil_of_mem ha
  rw [← List.dropLast_append_getLast hne] at h ha hb
  obtain ⟨-, -, hlast⟩ := List.pairwise_append.mp h
  rcases List.mem_append.mp ha with ha | ha
  · exact ha
  · rw [List.mem_singleton.mp ha] at hlt
    rcases List.mem_append.mp hb with hb | hb
    · have hbefore := hlast b hb _ (List.mem_singleton_self _)
      omega
    · rw [List.mem_singleton.mp hb] at hlt
      omega

/-- An element has one place in a list in the order of its dates. -/
theorem place_eq_of_pairwise {l : List β} (h : l.Pairwise (date · < date ·)) {i j : Nat} {a : β}
    (hi : l[i]? = some a) (hj : l[j]? = some a) : i = j := by
  obtain ⟨hi', hia⟩ := List.getElem?_eq_some_iff.mp hi
  obtain ⟨hj', hja⟩ := List.getElem?_eq_some_iff.mp hj
  rcases Nat.lt_trichotomy i j with hlt | heq | hgt
  · have hdate := List.pairwise_iff_getElem.mp h i j hi' hj' hlt
    rw [hia, hja] at hdate
    omega
  · exact heq
  · have hdate := List.pairwise_iff_getElem.mp h j i hj' hi' hgt
    rw [hia, hja] at hdate
    omega

end Belayer.Framework
