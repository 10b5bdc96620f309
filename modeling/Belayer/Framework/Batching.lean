import Belayer.Framework.Ordered

namespace Belayer.Framework

/-! Elements that arrive one by one are put into batches of `size` elements with one key. -/

variable {κ β : Type*} [DecidableEq κ]

/-- The elements that wait for the rest of their batch, under their keys, and the batches. -/
structure Batching (κ β : Type*) where
  waiting : Dict κ (List β)
  batches : List (List β)

namespace Batching

def empty : Batching κ β := ⟨∅, []⟩

/-- An element joins those that wait under its key; once they are enough they become a batch,
brought into its order. -/
def add (key : β → κ) (size : Nat) (order : List β → List β) (s : Batching κ β) (x : β) :
    Batching κ β :=
  let group := s.waiting.getD (key x) [] ++ [x]
  if group.length = size then
    { waiting := AList.erase (key x) (s.waiting.set (key x) group)
      batches := s.batches ++ [order group] }
  else { s with waiting := s.waiting.set (key x) group }

/-- A batch of a key. -/
def isOf (key : β → κ) (k : κ) (batch : List β) : Bool := batch.any fun x => key x = k

/-- What the batches and the waiting elements are after some arrivals. -/
structure Holds (key : β → κ) (size : Nat) (s : Batching κ β) (arrived : List β) : Prop where
  waiting_lt : ∀ k, (s.waiting.getD k []).length < size
  waiting_key : ∀ k, ∀ x ∈ s.waiting.getD k [], key x = k
  batch : ∀ batch ∈ s.batches, batch.length = size ∧ ∃ k, ∀ x ∈ batch, key x = k
  perm : ∀ k, ((s.batches.filter (isOf key k)).flatten ++ s.waiting.getD k []).Perm
    (arrived.filter fun x => key x = k)

variable {key : β → κ} {size : Nat} {order : List β → List β} {s : Batching κ β} {arrived : List β}

theorem holds_empty (hsize : 0 < size) : Holds key size empty [] where
  waiting_lt := fun _ => hsize
  waiting_key := fun _ _ h => absurd h List.not_mem_nil
  batch := fun _ h => absurd h List.not_mem_nil
  perm := fun _ => List.Perm.refl []

theorem isOf_eq {k c : κ} {batch : List β} (hne : batch ≠ []) (hkey : ∀ x ∈ batch, key x = k) :
    isOf key c batch = decide (k = c) := by
  obtain ⟨x, rest, rfl⟩ := List.exists_cons_of_ne_nil hne
  rw [Bool.eq_iff_iff, isOf, List.any_eq_true, decide_eq_true_iff]
  constructor
  · rintro ⟨y, hy, hyc⟩
    rw [← hkey y hy]
    exact of_decide_eq_true hyc
  · rintro rfl
    exact ⟨x, List.mem_cons_self .., decide_eq_true (hkey x (List.mem_cons_self ..))⟩

/-- An arrival keeps the waiting elements and batches in step with what has arrived. -/
theorem Holds.add (h : Holds key size s arrived) (horder : ∀ l, (order l).Perm l) (x : β) :
    Holds key size (add key size order s x) (arrived ++ [x]) := by
  have hpushed : ∀ y ∈ s.waiting.getD (key x) [] ++ [x], key y = key x := by
    intro y hy
    rcases List.mem_append.mp hy with hy | hy
    · exact h.waiting_key (key x) y hy
    · rw [List.mem_singleton.mp hy]
  have harrived : ∀ k, ((arrived ++ [x]).filter fun y => key y = k) =
      (arrived.filter fun y => key y = k) ++ if key x = k then [x] else [] := by
    intro k
    by_cases hk : key x = k <;> simp [List.filter_append, hk]
  unfold Batching.add
  dsimp only
  split_ifs with hfull
  · have hne : order (s.waiting.getD (key x) [] ++ [x]) ≠ [] := by
      intro hnil
      have hperm := horder (s.waiting.getD (key x) [] ++ [x])
      rw [hnil] at hperm
      exact List.append_ne_nil_of_right_ne_nil _ (List.cons_ne_nil _ _) hperm.nil_eq.symm
    have hordered : ∀ y ∈ order (s.waiting.getD (key x) [] ++ [x]), key y = key x :=
      fun y hy => hpushed y ((horder _).mem_iff.mp hy)
    refine ⟨fun k => ?_, fun k y hy => ?_, fun batch hbatch => ?_, fun k => ?_⟩
    · rw [Dict.getD_erase_ite, Dict.getD_set_ite]
      split_ifs with hk
      · exact Nat.lt_of_le_of_lt (Nat.zero_le _) (h.waiting_lt k)
      · exact h.waiting_lt k
    · rw [Dict.getD_erase_ite, Dict.getD_set_ite] at hy
      split_ifs at hy with hk
      · exact absurd hy List.not_mem_nil
      · exact h.waiting_key k y hy
    · rcases List.mem_append.mp hbatch with hold | hnew
      · exact h.batch batch hold
      · rw [List.mem_singleton.mp hnew, (horder _).length_eq]
        exact ⟨hfull, key x, hordered⟩
    · rw [harrived, List.filter_append, Dict.getD_erase_ite, Dict.getD_set_ite,
        List.filter_cons, isOf_eq hne hordered]
      by_cases hk : key x = k
      · subst hk
        simp only [decide_true, if_true, List.filter_nil, List.flatten_append, List.flatten_cons,
          List.flatten_nil, List.append_nil]
        refine ((horder _).append_left _).trans ?_
        rw [← List.append_assoc]
        exact (h.perm (key x)).append_right [x]
      · have hk' : ¬k = key x := fun he => hk he.symm
        simp only [hk, hk', decide_false, if_false, Bool.false_eq_true, List.filter_nil,
          List.append_nil]
        exact h.perm k
  · have hlt : (s.waiting.getD (key x) [] ++ [x]).length < size := by
      have hwaiting := h.waiting_lt (key x)
      rw [List.length_append, List.length_singleton] at hfull ⊢
      omega
    refine ⟨fun k => ?_, fun k y hy => ?_, h.batch, fun k => ?_⟩
    · rw [Dict.getD_set_ite]
      split_ifs with hk
      · exact hlt
      · exact h.waiting_lt k
    · rw [Dict.getD_set_ite] at hy
      split_ifs at hy with hk
      · rw [hk]
        exact hpushed y hy
      · exact h.waiting_key k y hy
    · rw [harrived, Dict.getD_set_ite]
      by_cases hk : key x = k
      · subst hk
        rw [if_pos rfl, if_pos rfl, ← List.append_assoc]
        exact (h.perm (key x)).append_right [x]
      · rw [if_neg hk, if_neg fun he => hk he.symm, List.append_nil]
        exact h.perm k

theorem Holds.addAll (h : Holds key size s arrived) (horder : ∀ l, (order l).Perm l) (xs : List β) :
    Holds key size (xs.foldl (Batching.add key size order) s) (arrived ++ xs) := by
  induction xs generalizing s arrived with
  | nil =>
    rw [List.append_nil]
    exact h
  | cons x xs ih =>
    have hrest := ih (h.add horder x)
    rwa [List.append_assoc] at hrest

/-- The batches of a key and the waiting elements make up all that arrived with this key. -/
theorem Holds.count (h : Holds key size s arrived) (k : κ) :
    (s.batches.countP (isOf key k)) * size + (s.waiting.getD k []).length =
      arrived.countP fun x => key x = k := by
  have hlength : ((s.batches.filter (isOf key k)).flatten).length =
      (s.batches.countP (isOf key k)) * size := by
    have hsizes : ∀ batch ∈ s.batches.filter (isOf key k), batch.length = size :=
      fun batch hbatch => (h.batch batch (List.mem_of_mem_filter hbatch)).1
    rw [List.length_flatten, List.map_congr_left hsizes, List.map_const',
      List.sum_replicate_nat, List.countP_eq_length_filter]
  rw [← hlength, ← List.length_append, (h.perm k).length_eq, List.countP_eq_length_filter]

end Batching

end Belayer.Framework
