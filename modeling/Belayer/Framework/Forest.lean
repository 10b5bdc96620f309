import Mathlib.Data.List.Infix
import Mathlib.Data.List.Perm.Basic
import Mathlib.Tactic.SplitIfs

namespace Belayer.Framework

/-- Trees beside one another: the label of the first, its children, and the trees after it. -/
inductive Forest (α : Type*)
  | nil
  | node (a : α) (children rest : Forest α)

namespace Forest

variable {α β γ : Type*}

/-- The labels, each before those below it. -/
def nodes : Forest α → List α
  | nil => []
  | node a children rest => a :: (children.nodes ++ rest.nodes)

/-- The tree at a place. -/
def get? : Forest α → Nat → Option (α × Forest α)
  | nil, _ => none
  | node a children _, 0 => some (a, children)
  | node _ _ rest, i + 1 => rest.get? i

/-- One more tree, after the others. -/
def push (b : α) : Forest α → Forest α
  | nil => node b nil nil
  | node a children rest => node a children (rest.push b)

/-- Another tree at a place. -/
def set : Forest α → Nat → α → Forest α → Forest α
  | nil, _, _, _ => nil
  | node _ _ rest, 0, b, bs => node b bs rest
  | node a children rest, i + 1, b, bs => node a children (rest.set i b bs)

/-- The first node that fits, with what is below it. -/
def find? (p : α → Bool) : Forest α → Option (α × Forest α)
  | nil => none
  | node a children rest =>
    if p a then some (a, children) else (children.find? p).or (rest.find? p)

/-- The first node that fits is cut off, with what is below it. -/
def remove (p : α → Bool) : Forest α → Forest α
  | nil => nil
  | node a children rest =>
    if p a then rest
    else if (children.find? p).isSome then node a (children.remove p) rest
    else node a children (rest.remove p)

/-- The labels on the way from the top down to some node. -/
inductive Path : Forest α → List α → Prop
  | here (a : α) (children rest : Forest α) : Path (node a children rest) [a]
  | down (a : α) {children : Forest α} (rest : Forest α) {as : List α} (h : Path children as) :
      Path (node a children rest) (a :: as)
  | next (a : α) (children : Forest α) {rest : Forest α} {as : List α} (h : Path rest as) :
      Path (node a children rest) as

/-- Some nodes have been cut off, with what was below them. -/
inductive Pruned (f : Forest α) : Forest α → Prop
  | refl : Pruned f f
  | remove {g : Forest α} (h : Pruned f g) (p : α → Bool) : Pruned f (g.remove p)

variable {f g : Forest α} {a b : α} {bs : Forest α} {p : α → Bool} {i : Nat} {as : List α}

/-! The labels of a forest that was changed -/

@[simp] theorem nodes_push (b : α) (f : Forest α) : (f.push b).nodes = f.nodes ++ [b] := by
  induction f with
  | nil => rfl
  | node a children rest _ ih => simp [push, nodes, ih]

theorem nodes_set (h : f.get? i = some (a, bs)) :
    ∃ before after, f.nodes = before ++ (a :: bs.nodes ++ after) ∧
      ∀ (b : α) (cs : Forest α), (f.set i b cs).nodes = before ++ (b :: cs.nodes ++ after) := by
  induction f generalizing i with
  | nil => cases h
  | node c children rest _ ih =>
    cases i with
    | zero =>
      cases h
      exact ⟨[], rest.nodes, rfl, fun b cs => rfl⟩
    | succ i =>
      obtain ⟨before, after, hnodes, hset⟩ := ih h
      refine ⟨c :: (children.nodes ++ before), after, ?_, ?_⟩
      · simp [nodes, hnodes]
      · intro b cs
        simp [set, nodes, hset]

theorem mem_nodes_of_get? (h : f.get? i = some (a, bs)) {c : α} (hc : c = a ∨ c ∈ bs.nodes) :
    c ∈ f.nodes := by
  obtain ⟨before, after, hnodes, -⟩ := nodes_set h
  rw [hnodes]
  simp only [List.mem_append, List.mem_cons]
  exact .inr (.inl hc)

theorem get?_set {c : α} {cs : Forest α} (h : f.get? i = some (a, bs)) :
    (f.set i c cs).get? i = some (c, cs) := by
  induction f generalizing i with
  | nil => cases h
  | node d children rest _ ih =>
    cases i with
    | zero => rfl
    | succ i => exact ih h

theorem set_get? (h : f.get? i = some (a, bs)) : f.set i a bs = f := by
  induction f generalizing i with
  | nil => rfl
  | node d children rest _ ih =>
    cases i with
    | zero =>
      cases h
      rfl
    | succ i => rw [set, ih h]

theorem find?_eq_none : f.find? p = none ↔ ∀ a ∈ f.nodes, p a = false := by
  induction f with
  | nil => simp [find?, nodes]
  | node a children rest ihc ihr =>
    rw [find?, nodes]
    split_ifs with ha
    · simp [ha]
    · simp [ihc, ihr, ha, or_imp, forall_and]

theorem nodes_remove (h : f.find? p = some (a, bs)) :
    p a = true ∧ ∃ before after, f.nodes = before ++ (a :: bs.nodes ++ after) ∧
      (f.remove p).nodes = before ++ after := by
  induction f with
  | nil => cases h
  | node c children rest ihc ihr =>
    rw [find?] at h
    split_ifs at h with hc
    · cases h
      refine ⟨hc, [], rest.nodes, rfl, ?_⟩
      simp [remove, hc]
    · cases hbelow : children.find? p with
      | some found =>
        rw [hbelow, Option.some_or] at h
        cases h
        obtain ⟨ha, before, after, hnodes, hremove⟩ := ihc hbelow
        refine ⟨ha, c :: before, after ++ rest.nodes, ?_, ?_⟩
        · simp [nodes, hnodes]
        · simp [remove, hc, hbelow, nodes, hremove]
      | none =>
        rw [hbelow, Option.none_or] at h
        obtain ⟨ha, before, after, hnodes, hremove⟩ := ihr h
        refine ⟨ha, c :: (children.nodes ++ before), after, ?_, ?_⟩
        · simp [nodes, hnodes]
        · simp [remove, hc, hbelow, nodes, hremove]

theorem nodes_remove_sublist (f : Forest α) (p : α → Bool) :
    (f.remove p).nodes.Sublist f.nodes := by
  induction f with
  | nil => exact List.Sublist.refl _
  | node a children rest ihc ihr =>
    rw [remove]
    split_ifs
    · exact (List.sublist_append_right children.nodes rest.nodes).cons a
    · exact (ihc.append_right rest.nodes).cons_cons a
    · exact (ihr.append_left children.nodes).cons_cons a

/-! Paths -/

theorem path_node {children rest : Forest α} : (node a children rest).Path as ↔
    as = [a] ∨ (∃ below, children.Path below ∧ as = a :: below) ∨ rest.Path as := by
  constructor
  · intro h
    cases h with
    | here => exact .inl rfl
    | down _ _ h => exact .inr (.inl ⟨_, h, rfl⟩)
    | next _ _ h => exact .inr (.inr h)
  · rintro (rfl | ⟨below, h, rfl⟩ | h)
    · exact .here a children rest
    · exact .down a rest h
    · exact .next a children h

theorem not_path_nil : ¬(nil : Forest α).Path as := by
  intro h
  cases h

theorem Path.mem_nodes (h : f.Path as) : ∀ a ∈ as, a ∈ f.nodes := by
  induction h with
  | here a children rest => simp [nodes]
  | down a rest h ih =>
    intro b hb
    rcases List.mem_cons.mp hb with rfl | hb
    · simp [nodes]
    · simp [nodes, ih b hb]
  | next a children h ih =>
    intro b hb
    simp [nodes, ih b hb]

theorem Path.of_get? (h : f.get? i = some (a, bs)) (hp : as = [a] ∨
    ∃ below, bs.Path below ∧ as = a :: below) : f.Path as := by
  induction f generalizing i with
  | nil => cases h
  | node c children rest _ ih =>
    cases i with
    | zero =>
      cases h
      rw [path_node]
      rcases hp with hp | hp
      · exact .inl hp
      · exact .inr (.inl hp)
    | succ i => exact .next c children (ih h)

theorem path_push : (f.push b).Path as ↔ f.Path as ∨ as = [b] := by
  induction f with
  | nil => simp [push, path_node, not_path_nil]
  | node a children rest _ ih =>
    rw [push, path_node, path_node, ih]
    simp only [or_assoc]

/-- A path of the changed forest is one of the old one, or leads through the new tree. -/
theorem Path.of_set {cs : Forest α} (h : f.get? i = some (a, bs)) (hp : (f.set i b cs).Path as) :
    f.Path as ∨ as = [b] ∨ ∃ below, cs.Path below ∧ as = b :: below := by
  induction f generalizing i with
  | nil => cases h
  | node c children rest _ ih =>
    cases i with
    | zero =>
      rw [set, path_node] at hp
      rcases hp with hp | hp | hp
      · exact .inr (.inl hp)
      · exact .inr (.inr hp)
      · exact .inl (.next c children hp)
    | succ i =>
      rw [set, path_node] at hp
      rcases hp with hp | hp | hp
      · exact .inl (path_node.mpr (.inl hp))
      · exact .inl (path_node.mpr (.inr (.inl hp)))
      · exact (ih h hp).imp_left (Path.next c children)

theorem Path.of_remove (h : (f.remove p).Path as) : f.Path as := by
  induction f generalizing as with
  | nil => exact h
  | node a children rest ihc ihr =>
    rw [remove] at h
    split_ifs at h
    · exact .next a children h
    · rw [path_node] at h ⊢
      rcases h with h | ⟨below, h, rfl⟩ | h
      · exact .inl h
      · exact .inr (.inl ⟨below, ihc h, rfl⟩)
      · exact .inr (.inr h)
    · rw [path_node] at h ⊢
      rcases h with h | h | h
      · exact .inl h
      · exact .inr (.inl h)
      · exact .inr (.inr (ihr h))

theorem Pruned.trans {k : Forest α} (hfg : f.Pruned g) (hgk : g.Pruned k) : f.Pruned k := by
  induction hgk with
  | refl => exact hfg
  | remove _ p ih => exact ih.remove p

theorem Pruned.sublist (h : f.Pruned g) : g.nodes.Sublist f.nodes := by
  induction h with
  | refl => exact List.Sublist.refl _
  | remove _ p ih => exact (nodes_remove_sublist _ p).trans ih

theorem Path.of_pruned (hp : g.Path as) (h : f.Pruned g) : f.Path as := by
  induction h with
  | refl => exact hp
  | remove _ p ih => exact ih hp.of_remove

/-! Keys on the paths -/

section Keys

variable {key : α → List β} {s text : List β}

/-- Some path spells the text. -/
def Spells (key : α → List β) (f : Forest α) (s : List β) : Prop :=
  ∃ as, f.Path as ∧ as.flatMap key = s

/-- No key is empty, and nothing that is spelled beside a tree and after it begins with its key. -/
def FirstFits (key : α → List β) : Forest α → Prop
  | nil => True
  | node a children rest =>
    key a ≠ [] ∧ children.FirstFits key ∧ rest.FirstFits key ∧
      ∀ s, rest.Spells key s → ¬key a <+: s

theorem not_spells_nil : ¬(nil : Forest α).Spells key s := by
  rintro ⟨as, h, -⟩
  exact not_path_nil h

theorem spells_node {children rest : Forest α} : (node a children rest).Spells key s ↔
    s = key a ∨ (∃ below, children.Spells key below ∧ s = key a ++ below) ∨ rest.Spells key s := by
  constructor
  · rintro ⟨as, hp, rfl⟩
    rcases path_node.mp hp with rfl | ⟨below, hbelow, rfl⟩ | hrest
    · exact .inl (by simp)
    · exact .inr (.inl ⟨_, ⟨below, hbelow, rfl⟩, List.flatMap_cons⟩)
    · exact .inr (.inr ⟨as, hrest, rfl⟩)
  · rintro (rfl | ⟨_, ⟨below, h, rfl⟩, rfl⟩ | ⟨as, h, rfl⟩)
    · exact ⟨[a], .here a children rest, by simp⟩
    · exact ⟨a :: below, .down a rest h, List.flatMap_cons⟩
    · exact ⟨as, .next a children h, rfl⟩

theorem Spells.of_get? (h : f.get? i = some (a, bs))
    (hs : s = key a ∨ ∃ below, bs.Spells key below ∧ s = key a ++ below) : f.Spells key s := by
  rcases hs with rfl | ⟨_, ⟨below, hbelow, rfl⟩, rfl⟩
  · exact ⟨[a], .of_get? h (.inl rfl), by simp⟩
  · exact ⟨a :: below, .of_get? h (.inr ⟨below, hbelow, rfl⟩), List.flatMap_cons⟩

/-- What is spelled begins with the key of one of the trees. -/
theorem Spells.exists_get? (h : f.Spells key s) : ∃ i, ∃ c ∈ f.get? i, key c.1 <+: s := by
  induction f with
  | nil => exact absurd h not_spells_nil
  | node a children rest _ ih =>
    rcases spells_node.mp h with rfl | ⟨below, -, rfl⟩ | hrest
    · exact ⟨0, (a, children), rfl, List.prefix_refl _⟩
    · exact ⟨0, (a, children), rfl, List.prefix_append _ _⟩
    · obtain ⟨i, hi⟩ := ih hrest
      exact ⟨i + 1, hi⟩

theorem spells_push : (f.push b).Spells key s ↔ f.Spells key s ∨ s = key b := by
  unfold Spells
  simp only [path_push, or_and_right, exists_or]
  refine or_congr Iff.rfl ?_
  simp [eq_comm]

theorem Spells.of_remove (h : (f.remove p).Spells key s) : f.Spells key s := by
  obtain ⟨as, h, rfl⟩ := h
  exact ⟨as, h.of_remove, rfl⟩

theorem FirstFits.of_get? (hf : f.FirstFits key) (h : f.get? i = some (a, bs)) :
    key a ≠ [] ∧ bs.FirstFits key := by
  induction f generalizing i with
  | nil => cases h
  | node c children rest _ ih =>
    obtain ⟨hne, hchildren, hrest, -⟩ := hf
    cases i with
    | zero =>
      cases h
      exact ⟨hne, hchildren⟩
    | succ i => exact ih hrest h

/-- What begins with the key of a tree is not spelled after it. -/
theorem FirstFits.spells_le (hf : f.FirstFits key) (h : f.get? i = some (a, bs))
    (hbefore : ∀ j < i, ∀ c ∈ f.get? j, ¬key c.1 <+: text) (ha : key a <+: text)
    (hs : f.Spells key s) (htext : s <+: text) :
    s.length ≤ (key a).length ∨ ∃ below, bs.Spells key below ∧ s = key a ++ below := by
  induction f generalizing i with
  | nil => cases h
  | node c children rest _ ih =>
    obtain ⟨-, -, hrest, hafter⟩ := hf
    rcases spells_node.mp hs with rfl | ⟨below, hbelow, rfl⟩ | hbeside
    · cases i with
      | zero =>
        cases h
        exact .inl le_rfl
      | succ i => exact absurd htext (hbefore 0 (Nat.succ_pos i) (c, children) rfl)
    · have hc : key c <+: text := (List.prefix_append _ below).trans htext
      cases i with
      | zero =>
        cases h
        exact .inr ⟨below, hbelow, rfl⟩
      | succ i => exact absurd hc (hbefore 0 (Nat.succ_pos i) (c, children) rfl)
    · cases i with
      | zero =>
        cases h
        refine .inl ?_
        rcases List.prefix_or_prefix_of_prefix ha htext with hle | hle
        · exact absurd hle (hafter s hbeside)
        · exact hle.length_le
      | succ i => exact ih hrest h (fun j hj => hbefore (j + 1) (Nat.succ_lt_succ hj)) hbeside

theorem FirstFits.push (hf : f.FirstFits key) (hb : key b ≠ [])
    (hnone : ∀ j, ∀ c ∈ f.get? j, ¬key c.1 <+: key b) : (f.push b).FirstFits key := by
  induction f with
  | nil =>
    refine ⟨hb, trivial, trivial, ?_⟩
    intro s hs
    exact absurd hs not_spells_nil
  | node a children rest _ ih =>
    obtain ⟨hne, hchildren, hrest, hafter⟩ := hf
    refine ⟨hne, hchildren, ih hrest fun j => hnone (j + 1), ?_⟩
    intro s hs
    rcases spells_push.mp hs with hs | rfl
    · exact hafter s hs
    · exact hnone 0 (a, children) rfl

/-- A tree is replaced by one under the same key, below which one more text may be spelled. -/
theorem spells_set {cs : Forest α} (h : f.get? i = some (a, bs)) (hkey : key b = key a)
    {below : List β} (hgrow : ∀ s, cs.Spells key s → bs.Spells key s ∨ s = below)
    (hs : (f.set i b cs).Spells key s) : f.Spells key s ∨ s = key a ++ below := by
  obtain ⟨as, hp, rfl⟩ := hs
  rcases hp.of_set h with hold | rfl | ⟨as', hnew, rfl⟩
  · exact .inl ⟨as, hold, rfl⟩
  · exact .inl (.of_get? h (.inl (by simp [hkey])))
  · rw [List.flatMap_cons, hkey]
    rcases hgrow _ ⟨as', hnew, rfl⟩ with hold | hnew
    · exact .inl (.of_get? h (.inr ⟨_, hold, rfl⟩))
    · exact .inr (by rw [hnew])

/-- What is spelled stays so when a tree is replaced by one that spells all that it spelled. -/
theorem Spells.set {cs : Forest α} (hs : f.Spells key s) (h : f.get? i = some (a, bs))
    (hkey : key b = key a) (hkeep : ∀ s, bs.Spells key s → cs.Spells key s) :
    (f.set i b cs).Spells key s := by
  induction f generalizing i with
  | nil => cases h
  | node c children rest _ ih =>
    rw [spells_node] at hs
    cases i with
    | zero =>
      cases h
      rw [Forest.set, spells_node, hkey]
      rcases hs with hs | ⟨below, hbelow, hs⟩ | hs
      · exact .inl hs
      · exact .inr (.inl ⟨below, hkeep below hbelow, hs⟩)
      · exact .inr (.inr hs)
    | succ i =>
      rw [Forest.set, spells_node]
      rcases hs with hs | hs | hs
      · exact .inl hs
      · exact .inr (.inl hs)
      · exact .inr (.inr (ih hs h))

theorem FirstFits.set {cs : Forest α} (hf : f.FirstFits key) (h : f.get? i = some (a, bs))
    (hkey : key b = key a) (hcs : cs.FirstFits key) {below : List β}
    (hgrow : ∀ s, cs.Spells key s → bs.Spells key s ∨ s = below)
    (hbefore : ∀ j < i, ∀ c ∈ f.get? j, ¬key c.1 <+: key a ++ below) :
    (f.set i b cs).FirstFits key := by
  induction f generalizing i with
  | nil => cases h
  | node c children rest _ ih =>
    obtain ⟨hne, hchildren, hrest, hafter⟩ := hf
    cases i with
    | zero =>
      cases h
      rw [Forest.set]
      refine ⟨hkey ▸ hne, hcs, hrest, ?_⟩
      rw [hkey]
      exact hafter
    | succ i =>
      rw [Forest.set]
      refine ⟨hne, hchildren, ih hrest h fun j hj => hbefore (j + 1) (Nat.succ_lt_succ hj), ?_⟩
      intro s hs
      have hold : rest.Spells key s ∨ s = key a ++ below := spells_set (f := rest) h hkey hgrow hs
      rcases hold with hold | rfl
      · exact hafter s hold
      · exact hbefore 0 (Nat.succ_pos i) (c, children) rfl

theorem FirstFits.remove (hf : f.FirstFits key) (p : α → Bool) : (f.remove p).FirstFits key := by
  induction f with
  | nil => trivial
  | node a children rest ihc ihr =>
    obtain ⟨hne, hchildren, hrest, hafter⟩ := hf
    rw [Forest.remove]
    split_ifs
    · exact hrest
    · exact ⟨hne, ihc hchildren, hrest, hafter⟩
    · exact ⟨hne, hchildren, ihr hrest, fun s hs => hafter s hs.of_remove⟩

theorem FirstFits.pruned (hf : f.FirstFits key) (h : f.Pruned g) : g.FirstFits key := by
  induction h with
  | refl => exact hf
  | remove _ p ih => exact ih.remove p

end Keys

end Forest

end Belayer.Framework
