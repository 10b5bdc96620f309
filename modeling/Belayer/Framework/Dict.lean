import Mathlib.Data.List.AList
import Mathlib.Algebra.BigOperators.Group.List.Basic

namespace Belayer.Framework

/-- A Python dict: every key is bound at most once. -/
abbrev Dict (α β : Type*) := AList (fun _ : α => β)

namespace Dict

variable {α β : Type*} [DecidableEq α]

/-- `d.get(a, b)`: the bound value, or the default `b`. -/
def getD (d : Dict α β) (a : α) (b : β) : β := (d.lookup a).getD b

theorem lookup_insert_ite (d : Dict α β) (a c : α) (b : β) :
    (AList.insert a b d).lookup c = if c = a then some b else d.lookup c := by
  by_cases h : c = a
  · subst c; simp
  · simp [h]

theorem lookup_erase_ite (d : Dict α β) (a c : α) :
    (AList.erase a d).lookup c = if c = a then none else d.lookup c := by
  by_cases h : c = a
  · subst c; simp
  · simp [h]

theorem getD_of_not_mem {d : Dict α β} {a : α} {c : β} (h : a ∉ d) : getD d a c = c := by
  simp [getD, AList.lookup_eq_none.mpr h]

theorem getD_insert_ite (d : Dict α β) (a c : α) (b e : β) :
    getD (AList.insert a b d) c e = if c = a then b else getD d c e := by
  by_cases h : c = a <;> simp [getD, lookup_insert_ite, h]

theorem getD_erase_ite (d : Dict α β) (a c : α) (e : β) :
    getD (AList.erase a d) c e = if c = a then e else getD d c e := by
  by_cases h : c = a <;> simp [getD, lookup_erase_ite, h]

theorem insert_ne_empty (d : Dict α β) (a : α) (b : β) : AList.insert a b d ≠ ∅ := by
  intro h
  have hl : (AList.insert a b d).lookup a = some b := AList.lookup_insert d
  rw [h, AList.lookup_empty] at hl
  cases hl

/-- A new value for a key that is there brings in no key. -/
theorem mem_insert_of_lookup {d : Dict α β} {a c : α} {b e : β} (h : d.lookup a = some b) :
    c ∈ AList.insert a e d ↔ c ∈ d := by
  rw [AList.mem_insert]
  constructor
  · rintro (rfl | hmem)
    · rw [← AList.lookup_isSome, h]
      rfl
    · exact hmem
  · exact .inr

instance decidableEmpty (d : Dict α β) : Decidable (d = ∅) :=
  decidable_of_iff (d.entries = []) (by rw [AList.ext_iff]; rfl)

/-- How many entries satisfy a predicate. -/
def count (d : Dict α β) (f : β → Bool) : Nat := d.entries.countP fun e => f e.2

/-- The entry of a key stands once among the entries, and erasing the key leaves the others. -/
theorem entries_of_lookup {d : Dict α β} {a : α} {b : β} (h : d.lookup a = some b) :
    ∃ l m, d.entries = l ++ ⟨a, b⟩ :: m ∧ (AList.erase a d).entries = l ++ m := by
  have hmem : a ∈ d.entries.keys := AList.lookup_isSome.mp (by rw [h]; rfl)
  obtain ⟨c, l, m, -, he, hk⟩ := List.exists_of_kerase hmem
  have hc : d.lookup a = some c := by
    refine AList.mem_lookup_iff.mpr ?_
    rw [he]
    exact List.mem_append_right _ (List.mem_cons_self ..)
  obtain rfl : b = c := Option.some.inj (h.symm.trans hc)
  exact ⟨l, m, he, hk⟩

/-- Erasing a key takes away the entry it was bound to. -/
theorem count_erase {d : Dict α β} {a : α} {b : β} (h : d.lookup a = some b) (f : β → Bool) :
    count (AList.erase a d) f + (f b).toNat = count d f := by
  obtain ⟨l, m, he, hk⟩ := entries_of_lookup h
  unfold count
  rw [hk, he, List.countP_append, List.countP_append, List.countP_cons]
  cases f b with
  | false => simp
  | true =>
    simp
    omega

theorem count_erase_le (d : Dict α β) (a : α) (f : β → Bool) :
    count (AList.erase a d) f ≤ count d f :=
  (List.kerase_sublist a d.entries).countP_le

theorem count_insert (d : Dict α β) (a : α) (b : β) (f : β → Bool) :
    count (AList.insert a b d) f = count (AList.erase a d) f + (f b).toNat := by
  change (⟨a, b⟩ :: List.kerase a d.entries : List (Sigma fun _ => β)).countP _ =
    (List.kerase a d.entries).countP _ + _
  rw [List.countP_cons]
  cases f b <;> simp

/-- A new value for a key of which the predicate says the same. -/
theorem count_replace {d : Dict α β} {a : α} {b c : β} (h : d.lookup a = some b) {f : β → Bool}
    (hf : f c = f b) : count (AList.insert a c d) f = count d f := by
  rw [count_insert, hf, count_erase h]

section Sum

variable {M : Type*} [AddCommMonoid M]

/-- The sum of a value of each entry. -/
def sum (f : β → M) (d : Dict α β) : M := (d.entries.map fun e => f e.2).sum

theorem sum_insert (f : β → M) (d : Dict α β) (a : α) (b : β) :
    sum f (AList.insert a b d) = f b + sum f (AList.erase a d) := by
  change (List.map _ (⟨a, b⟩ :: List.kerase a d.entries : List (Sigma fun _ => β))).sum = _
  rw [List.map_cons, List.sum_cons]
  rfl

/-- Erasing a key takes its value out of the sum. -/
theorem sum_erase {d : Dict α β} {a : α} {b : β} (h : d.lookup a = some b) (f : β → M) :
    f b + sum f (AList.erase a d) = sum f d := by
  obtain ⟨l, m, he, hk⟩ := entries_of_lookup h
  unfold sum
  rw [hk, he, List.map_append, List.map_append, List.map_cons, List.sum_append, List.sum_append,
    List.sum_cons]
  exact add_left_comm _ _ _

/-- A new value for a key with the same part in the sum. -/
theorem sum_replace {d : Dict α β} {a : α} {b c : β} (h : d.lookup a = some b) {f : β → M}
    (hf : f c = f b) : sum f (AList.insert a c d) = sum f d := by
  rw [sum_insert, hf, sum_erase h]

/-- What holds of zero, of sums and of the values holds of their sum. -/
theorem sum_induction (P : M → Prop) (hzero : P 0) (hadd : ∀ v w, P v → P w → P (v + w))
    {f : β → M} {d : Dict α β} (h : ∀ a b, d.lookup a = some b → P (f b)) : P (sum f d) := by
  refine List.sum_induction P (fun v w => hadd v w) hzero ?_
  intro v hv
  obtain ⟨e, he, rfl⟩ := List.mem_map.mp hv
  exact h e.1 e.2 (AList.mem_lookup_iff.mpr he)

end Sum

theorem erase_of_lookup_none {d : Dict α β} {a : α} (h : d.lookup a = none) :
    AList.erase a d = d :=
  AList.ext (List.kerase_of_notMem_keys (AList.lookup_eq_none.mp h))

end Dict

end Belayer.Framework
