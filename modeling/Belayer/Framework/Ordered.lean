import Belayer.Framework.Dict

namespace Belayer.Framework.Dict

variable {α β : Type*} [DecidableEq α]

/-- The pairs of a dict, in the order of `d.items()`. -/
def items (d : Dict α β) : List (α × β) := d.entries.map fun e => (e.1, e.2)

/-- `d[a] = b` on the entries: a key that is there keeps its place, a new one goes last. -/
def setEntries (a : α) (b : β) : List (Sigma fun _ : α => β) → List (Sigma fun _ : α => β)
  | [] => [⟨a, b⟩]
  | e :: l => if e.1 = a then ⟨a, b⟩ :: l else e :: setEntries a b l

theorem keys_setEntries (a : α) (b : β) (l : List (Sigma fun _ : α => β)) :
    (setEntries a b l).keys = if a ∈ l.keys then l.keys else l.keys ++ [a] := by
  induction l with
  | nil => simp [setEntries, List.keys]
  | cons e l ih =>
    by_cases h : e.1 = a
    · simp [setEntries, h]
    · have hne : a ≠ e.1 := fun he => h he.symm
      simp only [setEntries, if_neg h, List.keys_cons, List.mem_cons, hne, false_or, ih]
      split_ifs <;> rfl

/-- `d[a] = b`. -/
def set (d : Dict α β) (a : α) (b : β) : Dict α β :=
  ⟨setEntries a b d.entries, by
    have hd := d.nodupKeys
    unfold List.NodupKeys at hd ⊢
    rw [keys_setEntries]
    split_ifs with h
    · exact hd
    · exact List.nodup_append.mpr ⟨hd, List.nodup_singleton a, by
        intro c hc e he
        rw [List.mem_singleton.mp he]
        rintro rfl
        exact h hc⟩⟩

theorem dlookup_cons_ite (c a : α) (b : β) (l : List (Sigma fun _ : α => β)) :
    List.dlookup c (⟨a, b⟩ :: l) = if c = a then some b else l.dlookup c := by
  by_cases h : c = a
  · subst c
    rw [if_pos rfl]
    exact List.dlookup_cons_eq l a b
  · rw [if_neg h]
    exact List.dlookup_cons_ne l ⟨a, b⟩ h

theorem dlookup_setEntries (a c : α) (b : β) (l : List (Sigma fun _ : α => β)) :
    (setEntries a b l).dlookup c = if c = a then some b else l.dlookup c := by
  induction l with
  | nil => rw [setEntries, dlookup_cons_ite]
  | cons e l ih =>
    obtain ⟨k, v⟩ := e
    by_cases hk : k = a
    · rw [setEntries, if_pos hk, dlookup_cons_ite, dlookup_cons_ite, hk]
      split_ifs <;> rfl
    · rw [setEntries, if_neg hk, dlookup_cons_ite, dlookup_cons_ite, ih]
      by_cases h : c = k
      · have hne : c ≠ a := fun hc => hk (h.symm.trans hc)
        rw [if_pos h, if_neg hne, if_pos h]
      · rw [if_neg h, if_neg h]

@[simp] theorem lookup_set_ite (d : Dict α β) (a c : α) (b : β) :
    (set d a b).lookup c = if c = a then some b else d.lookup c :=
  dlookup_setEntries a c b d.entries

@[simp] theorem getD_set_ite (d : Dict α β) (a c : α) (b e : β) :
    getD (set d a b) c e = if c = a then b else getD d c e := by
  by_cases h : c = a <;> simp [getD, h]

theorem keys_set (d : Dict α β) (a : α) (b : β) :
    (set d a b).keys = if a ∈ d.keys then d.keys else d.keys ++ [a] :=
  keys_setEntries a b d.entries

theorem mem_set {d : Dict α β} {a c : α} {b : β} : c ∈ set d a b ↔ c = a ∨ c ∈ d := by
  rw [← AList.lookup_isSome, lookup_set_ite]
  split_ifs with h
  · simp [h]
  · simp [h, AList.lookup_isSome]

theorem mem_items {d : Dict α β} {a : α} {b : β} : (a, b) ∈ d.items ↔ d.lookup a = some b := by
  rw [← Option.mem_def, AList.mem_lookup_iff, items, List.mem_map]
  constructor
  · rintro ⟨⟨c, e⟩, he, heq⟩
    cases heq
    exact he
  · intro h
    exact ⟨⟨a, b⟩, h, rfl⟩

omit [DecidableEq α] in
theorem map_fst_items (d : Dict α β) : d.items.map Prod.fst = d.keys := by
  simp [items, AList.keys, List.keys, Function.comp_def]

omit [DecidableEq α] in
theorem nodup_items (d : Dict α β) : (d.items.map Prod.fst).Nodup := by
  rw [map_fst_items]
  exact d.keys_nodup

theorem items_set (d : Dict α β) (a : α) (b : β) :
    (d.set a b).items = (setEntries a b d.entries).map fun e => (e.1, e.2) := rfl

theorem setEntries_of_not_mem {a : α} {l : List (Sigma fun _ : α => β)} (h : a ∉ l.keys) (b : β) :
    setEntries a b l = l ++ [⟨a, b⟩] := by
  induction l with
  | nil => rfl
  | cons e l ih =>
    rw [List.keys_cons, List.mem_cons, not_or] at h
    rw [setEntries, if_neg fun he => h.1 he.symm, ih h.2, List.cons_append]

theorem setEntries_of_dlookup {a : α} {b : β} {l : List (Sigma fun _ : α => β)}
    (h : l.dlookup a = some b) (c : β) :
    ∃ l₁ l₂, l = l₁ ++ ⟨a, b⟩ :: l₂ ∧ setEntries a c l = l₁ ++ ⟨a, c⟩ :: l₂ := by
  induction l with
  | nil => cases h
  | cons e l ih =>
    obtain ⟨k, v⟩ := e
    rw [dlookup_cons_ite] at h
    by_cases hk : a = k
    · subst hk
      rw [if_pos rfl] at h
      cases h
      exact ⟨[], l, rfl, by rw [setEntries, if_pos rfl, List.nil_append]⟩
    · rw [if_neg hk] at h
      obtain ⟨l₁, l₂, hl, hset⟩ := ih h
      refine ⟨⟨k, v⟩ :: l₁, l₂, by rw [hl, List.cons_append], ?_⟩
      rw [setEntries, if_neg fun he => hk he.symm, hset, List.cons_append]

/-- A new key goes last. -/
theorem items_set_of_none {d : Dict α β} {a : α} (h : d.lookup a = none) (b : β) :
    (d.set a b).items = d.items ++ [(a, b)] := by
  rw [items_set, setEntries_of_not_mem (AList.lookup_eq_none.mp h), List.map_append]
  rfl

/-- A key that is there keeps its place. -/
theorem items_set_of_lookup {d : Dict α β} {a : α} {b : β} (h : d.lookup a = some b) (c : β) :
    ∃ l m, d.items = l ++ (a, b) :: m ∧ (d.set a c).items = l ++ (a, c) :: m := by
  obtain ⟨l₁, l₂, hl, hset⟩ := setEntries_of_dlookup h c
  refine ⟨l₁.map fun e => (e.1, e.2), l₂.map fun e => (e.1, e.2), ?_, ?_⟩
  · rw [items, hl, List.map_append, List.map_cons]
  · rw [items_set, hset, List.map_append, List.map_cons]

/-- The one entry with a key. -/
theorem find?_items {d : Dict α β} {a : α} {b : β} (h : d.lookup a = some b) :
    (d.items.find? fun e => e.1 = a) = some (a, b) := by
  obtain ⟨c, hc⟩ : ∃ c, (d.items.find? fun e => e.1 = a) = some c := by
    rw [← Option.isSome_iff_exists, List.find?_isSome]
    exact ⟨(a, b), mem_items.mpr h, decide_eq_true rfl⟩
  obtain ⟨k, v⟩ := c
  have hk : decide (k = a) = true :=
    List.find?_some (p := fun e : α × β => decide (e.1 = a)) hc
  obtain rfl : k = a := of_decide_eq_true hk
  obtain rfl : b = v := Option.some.inj (h.symm.trans (mem_items.mp (List.mem_of_find?_eq_some hc)))
  exact hc

/-- `d.setdefault(a, []).append(b)`. -/
def push (d : Dict α (List β)) (a : α) (b : β) : Dict α (List β) := d.set a (d.getD a [] ++ [b])

/-- What is appended to one of the lists is in the lists once more. -/
theorem perm_flatMap_push (d : Dict α (List β)) (a : α) (b : β) :
    ((d.push a b).items.flatMap Prod.snd).Perm (d.items.flatMap Prod.snd ++ [b]) := by
  unfold push getD
  cases h : d.lookup a with
  | none =>
    rw [items_set_of_none h, List.flatMap_append]
    exact List.Perm.refl _
  | some l =>
    obtain ⟨m₁, m₂, hitems, hset⟩ := items_set_of_lookup h (l ++ [b])
    rw [Option.getD_some, hset, hitems]
    simp only [List.flatMap_append, List.flatMap_cons, List.append_assoc]
    refine (List.perm_append_left_iff _).mpr ((List.perm_append_left_iff _).mpr ?_)
    exact List.perm_append_comm

/-- `d[a] = b` for each pair in order. -/
def setAll (d : Dict α β) (pairs : List (α × β)) : Dict α β :=
  pairs.foldl (fun d p => d.set p.1 p.2) d

theorem lookup_setAll_of_not_mem {pairs : List (α × β)} {a : α} (h : a ∉ pairs.map Prod.fst)
    (d : Dict α β) : (d.setAll pairs).lookup a = d.lookup a := by
  induction pairs generalizing d with
  | nil => rfl
  | cons p pairs ih =>
    rw [List.map_cons, List.mem_cons, not_or] at h
    have hrest := ih h.2 (d.set p.1 p.2)
    rw [lookup_set_ite, if_neg h.1] at hrest
    exact hrest

/-- With distinct keys each pair can be looked up. -/
theorem lookup_setAll_of_mem {pairs : List (α × β)} (hn : (pairs.map Prod.fst).Nodup) {a : α} {b : β}
    (h : (a, b) ∈ pairs) (d : Dict α β) : (d.setAll pairs).lookup a = some b := by
  induction pairs generalizing d with
  | nil => cases h
  | cons p pairs ih =>
    rw [List.map_cons, List.nodup_cons] at hn
    rcases List.mem_cons.mp h with rfl | h
    · have hrest := lookup_setAll_of_not_mem hn.1 (d.set a b)
      rw [lookup_set_ite, if_pos rfl] at hrest
      exact hrest
    · exact ih hn.2 h _

/-- New keys go behind those of the dict, in the order of their pairs. -/
theorem items_setAll_of_nodup {pairs : List (α × β)} (hn : (pairs.map Prod.fst).Nodup)
    {d : Dict α β} (hnew : ∀ a ∈ pairs.map Prod.fst, d.lookup a = none) :
    (d.setAll pairs).items = d.items ++ pairs := by
  induction pairs generalizing d with
  | nil => exact (List.append_nil _).symm
  | cons p pairs ih =>
    rw [List.map_cons, List.nodup_cons] at hn
    have hrest : ∀ a ∈ pairs.map Prod.fst, (d.set p.1 p.2).lookup a = none := by
      intro a ha
      have hne : a ≠ p.1 := fun h => hn.1 (h ▸ ha)
      rw [lookup_set_ite, if_neg hne]
      exact hnew a (List.mem_cons_of_mem _ ha)
    have hfirst := items_set_of_none (hnew p.1 (List.mem_cons_self ..)) p.2
    calc (d.setAll (p :: pairs)).items = ((d.set p.1 p.2).setAll pairs).items := rfl
      _ = (d.set p.1 p.2).items ++ pairs := ih hn.2 hrest
      _ = d.items ++ p :: pairs := by rw [hfirst, List.append_assoc]; rfl

section MapValues

variable {γ : Type*}

/-- The same keys in the same order with a function of their values. -/
def mapValues (f : β → γ) (d : Dict α β) : Dict α γ :=
  ⟨d.entries.map fun e => ⟨e.1, f e.2⟩, by
    have hkeys : (d.entries.map fun e => (⟨e.1, f e.2⟩ : Sigma fun _ : α => γ)).keys =
        d.entries.keys := by
      simp [List.keys, Function.comp_def]
    unfold List.NodupKeys
    rw [hkeys]
    exact d.nodupKeys⟩

omit [DecidableEq α] in
theorem keys_mapValues (f : β → γ) (d : Dict α β) : (mapValues f d).keys = d.keys := by
  simp [mapValues, AList.keys, List.keys, Function.comp_def]

omit [DecidableEq α] in
theorem items_mapValues (f : β → γ) (d : Dict α β) :
    (mapValues f d).items = d.items.map fun e => (e.1, f e.2) := by
  simp [mapValues, items, Function.comp_def]

omit [DecidableEq α] in
theorem mem_mapValues {f : β → γ} {d : Dict α β} {a : α} : a ∈ mapValues f d ↔ a ∈ d := by
  rw [AList.mem_keys, AList.mem_keys, keys_mapValues]

theorem lookup_mapValues (f : β → γ) (d : Dict α β) (a : α) :
    (mapValues f d).lookup a = (d.lookup a).map f := by
  have hentries : ∀ l : List (Sigma fun _ : α => β),
      (l.map fun e => (⟨e.1, f e.2⟩ : Sigma fun _ : α => γ)).dlookup a = (l.dlookup a).map f := by
    intro l
    induction l with
    | nil => rfl
    | cons e l ih =>
      obtain ⟨k, v⟩ := e
      rw [List.map_cons, dlookup_cons_ite, dlookup_cons_ite, ih]
      split_ifs <;> rfl
  exact hentries d.entries

theorem mapValues_set (f : β → γ) (d : Dict α β) (a : α) (b : β) :
    mapValues f (d.set a b) = (mapValues f d).set a (f b) := by
  have hentries : ∀ l : List (Sigma fun _ : α => β),
      (setEntries a b l).map (fun e => (⟨e.1, f e.2⟩ : Sigma fun _ : α => γ)) =
        setEntries a (f b) (l.map fun e => ⟨e.1, f e.2⟩) := by
    intro l
    induction l with
    | nil => rfl
    | cons e l ih =>
      obtain ⟨k, v⟩ := e
      by_cases h : k = a
      · rw [setEntries, if_pos h, List.map_cons, List.map_cons, setEntries, if_pos h]
      · rw [setEntries, if_neg h, List.map_cons, List.map_cons, setEntries, if_neg h, ih]
  exact AList.ext (hentries d.entries)

end MapValues

/-- The elements of a list under their keys; those without a key are left out. -/
def groupStep (key : β → Option α) (d : Dict α (List β)) (b : β) : Dict α (List β) :=
  match key b with
  | none => d
  | some a => d.push a b

def groupBy (key : β → Option α) (l : List β) : Dict α (List β) := l.foldl (groupStep key) ∅

/-- The groups have each element with a key once. -/
theorem perm_groupBy (key : β → Option α) (l : List β) :
    ((groupBy key l).items.flatMap Prod.snd).Perm (l.filter fun b => (key b).isSome) := by
  have hfold : ∀ (l : List β) (d : Dict α (List β)),
      ((l.foldl (groupStep key) d).items.flatMap Prod.snd).Perm
        (d.items.flatMap Prod.snd ++ l.filter fun b => (key b).isSome) := by
    intro l
    induction l with
    | nil => intro d; simp
    | cons b l ih =>
      intro d
      rw [List.foldl_cons]
      refine (ih _).trans ?_
      unfold groupStep
      cases hkey : key b with
      | none => simp [hkey]
      | some a =>
        rw [List.filter_cons_of_pos (by simp [hkey])]
        have hpush := (d.perm_flatMap_push a b).append_right (l.filter fun b => (key b).isSome)
        rwa [List.append_assoc] at hpush
  exact hfold l ∅

/-- A group is in the dict where it has an element. -/
theorem mem_groupBy {key : β → Option α} {l : List β} {a : α} :
    a ∈ groupBy key l ↔ ∃ b ∈ l, key b = some a := by
  have hfold : ∀ (l : List β) (d : Dict α (List β)),
      a ∈ l.foldl (groupStep key) d ↔ a ∈ d ∨ ∃ b ∈ l, key b = some a := by
    intro l
    induction l with
    | nil => intro d; simp
    | cons b l ih =>
      intro d
      rw [List.foldl_cons, ih, List.exists_mem_cons_iff, ← or_assoc]
      unfold groupStep
      cases hkey : key b with
      | none => simp
      | some c =>
        simp only [push, mem_set, Option.some.injEq]
        rw [or_comm (a := a = c), eq_comm (a := c)]
  rw [groupBy, hfold]
  simp

/-- The group of a key has the elements with this key, in their order. -/
theorem getD_groupBy (key : β → Option α) (l : List β) (a : α) :
    (groupBy key l).getD a [] = l.filter fun b => key b = some a := by
  have hfold : ∀ (l : List β) (d : Dict α (List β)),
      (l.foldl (groupStep key) d).getD a [] = d.getD a [] ++ l.filter fun b => key b = some a := by
    intro l
    induction l with
    | nil => intro d; simp
    | cons b l ih =>
      intro d
      rw [List.foldl_cons, ih]
      unfold groupStep
      cases hkey : key b with
      | none => simp [hkey]
      | some c =>
        by_cases hc : c = a
        · subst hc
          simp [push, getD, hkey]
        · have hne : a ≠ c := fun h => hc h.symm
          simp [push, getD, hkey, hc, hne]
  exact hfold l ∅

section Accumulate

variable {σ : Type*}

/-- `d[key] = f(d.get(key, z), b)` for each pair in order. -/
def accumulate (f : σ → β → σ) (z : σ) (l : List (α × β)) : Dict α σ :=
  l.foldl (fun d e => d.set e.1 (f (d.getD e.1 z) e.2)) ∅

/-- The values of a key, in their order. -/
def valuesOf (l : List (α × β)) (a : α) : List β := (l.filter fun e => e.1 = a).map Prod.snd

theorem valuesOf_cons (e : α × β) (l : List (α × β)) (a : α) :
    valuesOf (e :: l) a = if e.1 = a then e.2 :: valuesOf l a else valuesOf l a := by
  by_cases he : e.1 = a <;> simp [valuesOf, he]

theorem valuesOf_of_not_mem {l : List (α × β)} {a : α} (h : a ∉ l.map Prod.fst) :
    valuesOf l a = [] := by
  rw [valuesOf, List.map_eq_nil_iff, List.filter_eq_nil_iff]
  intro e he
  simpa using fun heq : e.1 = a => h (heq ▸ List.mem_map_of_mem he)

/-- A key has what its own values add up to. -/
theorem lookup_accumulate (f : σ → β → σ) (z : σ) (l : List (α × β)) (a : α) :
    (accumulate f z l).lookup a =
      if a ∈ l.map Prod.fst then some ((valuesOf l a).foldl f z) else none := by
  have hfold : ∀ (l : List (α × β)) (d : Dict α σ),
      (l.foldl (fun d e => d.set e.1 (f (d.getD e.1 z) e.2)) d).lookup a =
        if a ∈ l.map Prod.fst then some ((valuesOf l a).foldl f (d.getD a z)) else d.lookup a := by
    intro l
    induction l with
    | nil => intro d; simp
    | cons e l ih =>
      intro d
      rw [List.foldl_cons, ih]
      rw [valuesOf_cons, List.map_cons]
      by_cases he : e.1 = a
      · subst he
        by_cases hl : e.1 ∈ l.map Prod.fst
        · simp [hl]
        · simp [hl, valuesOf_of_not_mem hl]
      · have hne : ¬a = e.1 := fun h => he h.symm
        simp only [getD_set_ite, lookup_set_ite, if_neg he, List.mem_cons, hne, false_or, if_false]
  rw [accumulate, hfold]
  simp [getD]

theorem mem_accumulate {f : σ → β → σ} {z : σ} {l : List (α × β)} {a : α} :
    a ∈ accumulate f z l ↔ a ∈ l.map Prod.fst := by
  rw [← AList.lookup_isSome, lookup_accumulate]
  split_ifs with h <;> simp [h]

/-- The first key is that of the first pair. -/
theorem take_one_keys_accumulate (f : σ → β → σ) (z : σ) (l : List (α × β)) :
    (accumulate f z l).keys.take 1 = (l.map Prod.fst).take 1 := by
  have hfold : ∀ (l : List (α × β)) (d : Dict α σ), d.keys ≠ [] →
      (l.foldl (fun d e => d.set e.1 (f (d.getD e.1 z) e.2)) d).keys.take 1 = d.keys.take 1 := by
    intro l
    induction l with
    | nil => intros; rfl
    | cons e l ih =>
      intro d hd
      have hne : (d.set e.1 (f (d.getD e.1 z) e.2)).keys ≠ [] := by
        rw [keys_set]
        split_ifs <;> simp [hd]
      rw [List.foldl_cons, ih _ hne, keys_set]
      split_ifs
      · rfl
      · exact List.take_append_of_le_length (List.length_pos_iff.mpr hd)
  rw [accumulate]
  cases l with
  | nil => rfl
  | cons e l =>
    rw [List.foldl_cons, hfold l _ (by simp [keys_set]), keys_set]
    simp

/-- An ordered dict's items, read from the last one on, are its bindings. -/
theorem lookup_reverse_items (d : Dict α σ) (a : α) : d.items.reverse.lookup a = d.lookup a := by
  have hentries : ∀ l : List (Sigma fun _ : α => σ), l.NodupKeys →
      (l.map fun e => (e.1, e.2)).reverse.lookup a = l.dlookup a := by
    intro l
    induction l with
    | nil => exact fun _ => rfl
    | cons e l ih =>
      intro hnodup
      obtain ⟨hnew, hrest⟩ := List.nodupKeys_cons.mp hnodup
      rw [List.map_cons, List.reverse_cons, List.lookup_append, ih hrest]
      by_cases he : a = e.1
      · subst he
        rw [List.dlookup_cons_eq, List.dlookup_eq_none.mpr hnew]
        simp
      · rw [List.dlookup_cons_ne _ _ he]
        simp [List.lookup_cons, beq_eq_false_iff_ne.mpr he]
  exact hentries d.entries d.nodupKeys

end Accumulate

end Belayer.Framework.Dict
