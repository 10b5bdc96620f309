import Belayer.Framework.Ordered
import Mathlib.Data.List.Sort

namespace Belayer.Framework.Dict

variable {α β : Type*} [LinearOrder α]

/-- The same pairs in the order of the keys, as `json.dumps(d, sort_keys=True)` writes them. -/
def sortKeys (d : Dict α β) : Dict α β :=
  ⟨d.entries.insertionSort (fun a b => a.1 ≤ b.1),
    (List.perm_nodupKeys (List.perm_insertionSort _ d.entries)).mpr d.nodupKeys⟩

variable {d d' : Dict α β}

theorem items_sortKeys_perm (d : Dict α β) : d.sortKeys.items.Perm d.items :=
  (List.perm_insertionSort _ d.entries).map _

theorem lookup_sortKeys (d : Dict α β) (a : α) : d.sortKeys.lookup a = d.lookup a :=
  List.perm_dlookup a d.sortKeys.nodupKeys (List.perm_insertionSort _ d.entries)

/-- The keys of a list of pairs are in order. -/
def KeysSorted (l : List (α × β)) : Prop := l.Pairwise fun a b => a.1 ≤ b.1

theorem keysSorted_sortKeys (d : Dict α β) : KeysSorted d.sortKeys.items := by
  have hsorted : (d.entries.insertionSort fun a b => a.1 ≤ b.1).Pairwise fun a b => a.1 ≤ b.1 := by
    have : Std.Total fun a b : Sigma fun _ : α => β => a.1 ≤ b.1 := ⟨fun a b => le_total a.1 b.1⟩
    have : IsTrans (Sigma fun _ : α => β) fun a b => a.1 ≤ b.1 := ⟨fun _ _ _ => le_trans⟩
    exact List.pairwise_insertionSort _ d.entries
  exact List.pairwise_map.mpr hsorted

/-- Lists of pairs with distinct keys in order are the same when they have the same pairs. -/
theorem eq_of_perm_of_keysSorted {l l' : List (α × β)} (hl : KeysSorted l) (hl' : KeysSorted l')
    (hnodup : (l.map Prod.fst).Nodup) (h : l.Perm l') : l = l' := by
  refine h.eq_of_pairwise (fun e e' he he' hle hge => ?_) hl hl'
  exact List.inj_on_of_nodup_map hnodup he (h.mem_iff.mpr he') (le_antisymm hle hge)

omit [LinearOrder α] in
theorem ext_items (h : d.items = d'.items) : d = d' := by
  refine AList.ext ?_
  have hinj : Function.Injective fun e : Sigma fun _ : α => β => (e.1, e.2) := by
    rintro ⟨_, _⟩ ⟨_, _⟩ he
    cases he
    rfl
  exact List.map_injective_iff.mpr hinj h

/-- What is written depends on the pairs only. -/
theorem sortKeys_eq_of_perm (h : d.items.Perm d'.items) : d.sortKeys = d'.sortKeys := by
  refine ext_items (eq_of_perm_of_keysSorted (keysSorted_sortKeys d) (keysSorted_sortKeys d')
    (nodup_items _) ?_)
  exact ((items_sortKeys_perm d).trans h).trans (items_sortKeys_perm d').symm

theorem sortKeys_eq_of_lookup (h : ∀ a, d.lookup a = d'.lookup a) : d.sortKeys = d'.sortKeys := by
  refine sortKeys_eq_of_perm ?_
  refine (List.perm_ext_iff_of_nodup (nodup_items d).of_map (nodup_items d').of_map).mpr ?_
  rintro ⟨a, b⟩
  rw [mem_items, mem_items, h]

theorem sortKeys_sortKeys (d : Dict α β) : d.sortKeys.sortKeys = d.sortKeys :=
  sortKeys_eq_of_perm (items_sortKeys_perm d)

end Belayer.Framework.Dict
