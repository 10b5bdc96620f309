import Belayer.Framework.Run
import Belayer.Router.StringRadixTrie

namespace Belayer.Router

open Belayer.Framework

variable {f : Forest StringTreeNode} {text s : List Char} {node : StringTreeNode}

/-! The child that is chosen -/

section BestChild

variable {i : Nat} {best : Option (Nat × StringTreeNode × Forest StringTreeNode)}
  {chosen : Nat × StringTreeNode × Forest StringTreeNode}

/-- A child that none of the others beats stays chosen. -/
theorem bestChild_of_le (h : ∀ j, ∀ c ∈ f.get? j, c.1.stringKey <+: text →
    c.1.stringKey.length ≤ chosen.2.1.stringKey.length) :
    bestChild text i (some chosen) f = some chosen := by
  induction f generalizing i with
  | nil => rfl
  | node child children rest _ ih =>
    have hkeep : ¬(child.stringKey.isPrefixOf text &&
        decide (chosen.2.1.stringKey.length < child.stringKey.length)) = true := by
      rw [Bool.and_eq_true, List.isPrefixOf_iff_prefix, decide_eq_true_eq]
      rintro ⟨hstarts, hlength⟩
      have hle := h 0 (child, children) rfl hstarts
      exact absurd hlength (Nat.not_lt.mpr hle)
    have hrest := ih (i := i + 1) fun j => h (j + 1)
    simp only [bestChild, Option.map_some, Option.getD_some]
    rw [if_neg hkeep]
    exact hrest

/-- The first child whose key fits is the one with the longest key that does. -/
theorem bestChild_firstFits (hf : f.FirstFits StringTreeNode.stringKey) (i : Nat) :
    (bestChild text i none f = none ∧ ∀ j, ∀ c ∈ f.get? j, ¬c.1.stringKey <+: text) ∨
      ∃ j c, bestChild text i none f = some (i + j, c) ∧ f.get? j = some c ∧
        c.1.stringKey <+: text ∧ ∀ k < j, ∀ c ∈ f.get? k, ¬c.1.stringKey <+: text := by
  induction f generalizing i with
  | nil =>
    refine .inl ⟨rfl, ?_⟩
    intro j c hc
    cases hc
  | node child children rest _ ih =>
    obtain ⟨hne, -, hrest, hafter⟩ := hf
    simp only [bestChild, Option.map_none, Option.getD_none]
    by_cases hfits : child.stringKey <+: text
    · have hbetter : (child.stringKey.isPrefixOf text && decide (0 < child.stringKey.length)) =
          true := by
        rw [Bool.and_eq_true, List.isPrefixOf_iff_prefix, decide_eq_true_eq]
        exact ⟨hfits, List.length_pos_iff.mpr hne⟩
      refine .inr ⟨0, (child, children), ?_, rfl, hfits, ?_⟩
      · rw [if_pos hbetter]
        refine bestChild_of_le ?_
        intro j c hc hstarts
        have hspelled : rest.Spells StringTreeNode.stringKey c.1.stringKey :=
          .of_get? hc (.inl rfl)
        rcases List.prefix_or_prefix_of_prefix hfits hstarts with hle | hle
        · exact absurd hle (hafter _ hspelled)
        · exact hle.length_le
      · intro k hk
        exact absurd hk (Nat.not_lt_zero k)
    · have hworse : ¬(child.stringKey.isPrefixOf text && decide (0 < child.stringKey.length)) =
          true := by
        rw [Bool.and_eq_true, List.isPrefixOf_iff_prefix]
        exact fun hboth => hfits hboth.1
      rw [if_neg hworse]
      rcases ih hrest (i + 1) with ⟨hnone, hothers⟩ | ⟨j, c, hsome, hget, hstarts, hothers⟩
      · refine .inl ⟨hnone, ?_⟩
        intro j c hc
        cases j with
        | zero =>
          cases hc
          exact hfits
        | succ j => exact hothers j c hc
      · refine .inr ⟨j + 1, c, ?_, hget, hstarts, ?_⟩
        · rw [hsome]
          congr 2
          omega
        · intro k hk d hd
          cases k with
          | zero =>
            cases hd
            exact hfits
          | succ k => exact hothers k (Nat.lt_of_succ_lt_succ hk) d hd

end BestChild

/-! The match -/

section Match

/-- A node with tokens has as many log-probabilities, and entries of the mask. -/
def StringTreeNode.IsAligned (node : StringTreeNode) : Prop :=
  (node.logp.getD []).length = node.tokens.length ∧
    ∀ mask ∈ node.lossMask, mask.length = node.tokens.length

theorem matchedPrefix_foldl_extend (nodes : List StringTreeNode) (result : MatchResult) :
    (nodes.foldl MatchResult.extend result).matchedPrefix =
      result.matchedPrefix ++ nodes.flatMap StringTreeNode.stringKey := by
  induction nodes generalizing result with
  | nil => simp
  | cons node nodes ih =>
    have hnode : (result.extend node).matchedPrefix = result.matchedPrefix ++ node.stringKey := by
      unfold MatchResult.extend
      split_ifs <;> rfl
    rw [List.foldl_cons, ih, hnode, List.flatMap_cons, List.append_assoc]

theorem tokenIds_extend (result : MatchResult) (node : StringTreeNode) :
    (result.extend node).tokenIds = result.tokenIds ++ node.tokens := by
  unfold MatchResult.extend
  split_ifs with h
  · rfl
  · have hnone : node.tokenIds = none := by simpa [StringTreeNode.hasValue] using h
    simp [StringTreeNode.tokens, hnone]

theorem tokenIds_foldl_extend (nodes : List StringTreeNode) (result : MatchResult) :
    (nodes.foldl MatchResult.extend result).tokenIds =
      result.tokenIds ++ nodes.flatMap StringTreeNode.tokens := by
  induction nodes generalizing result with
  | nil => simp
  | cons node nodes ih =>
    rw [List.foldl_cons, ih, tokenIds_extend, List.flatMap_cons, List.append_assoc]

theorem length_extend (result : MatchResult) (h : node.IsAligned) :
    (result.extend node).logp.length = result.logp.length + node.tokens.length ∧
      (result.extend node).lossMask.length = result.lossMask.length + node.tokens.length := by
  obtain ⟨hlogp, hmask⟩ := h
  unfold MatchResult.extend
  split_ifs with hvalue
  · have hdefault : (node.lossMask.getD (List.replicate node.tokens.length 1)).length =
        node.tokens.length := by
      cases hm : node.lossMask with
      | none => simp
      | some mask => exact hmask mask hm
    simp [hlogp, hdefault]
  · have hnone : node.tokenIds = none := by simpa [StringTreeNode.hasValue] using hvalue
    simp [StringTreeNode.tokens, hnone]

theorem length_foldl_extend (nodes : List StringTreeNode) (result : MatchResult)
    (h : ∀ node ∈ nodes, node.IsAligned) :
    (nodes.foldl MatchResult.extend result).logp.length =
        result.logp.length + (nodes.flatMap StringTreeNode.tokens).length ∧
      (nodes.foldl MatchResult.extend result).lossMask.length =
        result.lossMask.length + (nodes.flatMap StringTreeNode.tokens).length := by
  induction nodes generalizing result with
  | nil => simp
  | cons node nodes ih =>
    obtain ⟨hnode, hnodes⟩ := List.forall_mem_cons.mp h
    obtain ⟨hlogp, hmask⟩ := length_extend result hnode
    obtain ⟨hlogps, hmasks⟩ := ih (result.extend node) hnodes
    rw [List.foldl_cons, hlogps, hmasks, hlogp, hmask, List.flatMap_cons, List.length_append]
    omega

theorem remainingString_extend (result : MatchResult) (node : StringTreeNode) :
    (result.extend node).remainingString = result.remainingString.drop node.stringKey.length := by
  unfold MatchResult.extend
  split_ifs <;> rfl

/-- The loop follows a path that spells as much of the text as any. -/
theorem findLoop_spec (result : MatchResult) (hf : f.FirstFits StringTreeNode.stringKey)
    {fuel : Nat} (hfuel : result.remainingString.length ≤ fuel) (hits : Nat) :
    ∃ nodes, (nodes = [] ∨ f.Path nodes) ∧
      (findLoop fuel f result hits).1 = nodes.foldl MatchResult.extend result ∧
      nodes.flatMap StringTreeNode.stringKey <+: result.remainingString ∧
      ∀ s, f.Spells StringTreeNode.stringKey s → s <+: result.remainingString →
        s.length ≤ (nodes.flatMap StringTreeNode.stringKey).length := by
  have hstop : ∀ result : MatchResult, result.remainingString = [] →
      ∀ s : List Char, s <+: result.remainingString → s.length ≤ 0 := by
    intro result hnil s hs
    rw [hnil, List.prefix_nil] at hs
    rw [hs]
    exact le_rfl
  induction fuel generalizing f result hits with
  | zero =>
    have hnil : result.remainingString = [] := List.length_eq_zero_iff.mp (Nat.le_zero.mp hfuel)
    exact ⟨[], .inl rfl, rfl, List.nil_prefix, fun s _ hs => hstop result hnil s hs⟩
  | succ fuel ih =>
    rw [findLoop]
    split_ifs with hnil
    · exact ⟨[], .inl rfl, rfl, List.nil_prefix, fun s _ hs => hstop result hnil s hs⟩
    · rcases bestChild_firstFits hf 0 with ⟨hnone, hothers⟩ | ⟨j, c, hsome, hget, hstarts, hothers⟩
      · rw [hnone]
        refine ⟨[], .inl rfl, rfl, List.nil_prefix, ?_⟩
        intro s hs hstarts
        obtain ⟨j, c, hc, hkey⟩ := hs.exists_get?
        exact absurd (hkey.trans hstarts) (hothers j c hc)
      · obtain ⟨child, grandchildren⟩ := c
        obtain ⟨hne, hbelow⟩ := hf.of_get? hget
        have hlength : (result.extend child).remainingString.length ≤ fuel := by
          rw [remainingString_extend, List.length_drop]
          have hpos := List.length_pos_iff.mpr hne
          omega
        obtain ⟨nodes, hpath, hresult, hspelled, hmax⟩ := ih (result.extend child) hbelow hlength
          (if child.hasValue then hits + 1 else hits)
        rw [remainingString_extend] at hspelled hmax
        obtain ⟨tail, htail⟩ := hstarts
        rw [← htail, List.drop_left] at hspelled hmax
        rw [hsome]
        refine ⟨child :: nodes, .inr ?_, hresult, ?_, ?_⟩
        · rcases hpath with rfl | hpath
          · exact .of_get? hget (.inl rfl)
          · exact .of_get? hget (.inr ⟨nodes, hpath, rfl⟩)
        · rw [List.flatMap_cons, ← htail]
          exact (List.prefix_append_right_inj _).mpr hspelled
        · intro s hs hsprefix
          rw [List.flatMap_cons, List.length_append]
          rcases hf.spells_le hget hothers ⟨tail, htail⟩ hs hsprefix with
            hle | ⟨below, hspells, rfl⟩
          · omega
          · rw [← htail] at hsprefix
            have hle := hmax below hspells ((List.prefix_append_right_inj _).mp hsprefix)
            rw [List.length_append]
            omega

end Match

/-! The text that is inserted -/

section Insertion

variable {remaining : Remaining}

theorem stringKey_insertEnd (node : StringTreeNode) (f : Forest StringTreeNode)
    (remaining : Remaining) : (insertEnd node f remaining).node.stringKey = node.stringKey ∧
      (insertEnd node f remaining).children = f := by
  unfold insertEnd
  split_ifs <;> exact ⟨rfl, rfl⟩

theorem stringKey_insertLoop (id : Nat) (weightVersion : Option Int) (fuel : Nat)
    (node : StringTreeNode) (f : Forest StringTreeNode) (remaining : Remaining) :
    (insertLoop id weightVersion fuel node f remaining).node.stringKey = node.stringKey := by
  cases fuel with
  | zero => exact (stringKey_insertEnd node f remaining).1
  | succ fuel =>
    rw [insertLoop]
    split_ifs
    · exact (stringKey_insertEnd node f remaining).1
    · split <;> rfl

/-- The forest spells one more text, and its keys still fit first. -/
structure Grows (f f' : Forest StringTreeNode) (text : List Char) : Prop where
  firstFits : f'.FirstFits StringTreeNode.stringKey
  spelled : ∀ s, f'.Spells StringTreeNode.stringKey s → f.Spells StringTreeNode.stringKey s ∨ s = text
  kept : ∀ s, f.Spells StringTreeNode.stringKey s → f'.Spells StringTreeNode.stringKey s
  inserted : text ≠ [] → f'.Spells StringTreeNode.stringKey text

theorem grows_insertEnd (hf : f.FirstFits StringTreeNode.stringKey) (node : StringTreeNode)
    (h : remaining.text = []) :
    Grows f (insertEnd node f remaining).children remaining.text := by
  rw [(stringKey_insertEnd node f remaining).2]
  exact ⟨hf, fun s hs => .inl hs, fun s hs => hs, fun hne => absurd h hne⟩

theorem grows_insertLoop (id : Nat) (weightVersion : Option Int) {fuel : Nat}
    (hf : f.FirstFits StringTreeNode.stringKey) (node : StringTreeNode)
    (hfuel : remaining.text.length ≤ fuel) :
    Grows f (insertLoop id weightVersion fuel node f remaining).children remaining.text := by
  induction fuel generalizing f node remaining with
  | zero => exact grows_insertEnd hf node (List.length_eq_zero_iff.mp (Nat.le_zero.mp hfuel))
  | succ fuel ih =>
    rw [insertLoop]
    split_ifs with hnil
    · exact grows_insertEnd hf node hnil
    · rcases bestChild_firstFits hf 0 with ⟨hnone, hothers⟩ | ⟨j, c, hsome, hget, hstarts, hothers⟩
      · have hkey := stringKey_newNode remaining id weightVersion
        rw [hnone]
        refine ⟨hf.push ?_ ?_, ?_, ?_, ?_⟩
        · rw [hkey]
          exact hnil
        · rw [hkey]
          exact hothers
        · intro s hs
          rw [Forest.spells_push, hkey] at hs
          exact hs
        · intro s hs
          exact Forest.spells_push.mpr (.inl hs)
        · intro _
          exact Forest.spells_push.mpr (.inr hkey.symm)
      · obtain ⟨child, grandchildren⟩ := c
        obtain ⟨hne, hbelow⟩ := hf.of_get? hget
        obtain ⟨tail, htail⟩ : child.stringKey <+: remaining.text := hstarts
        have htext : (remaining.skip child).text = tail := by
          rw [Remaining.skip, ← htail, List.drop_left]
        have hlength : (remaining.skip child).text.length ≤ fuel := by
          have hpos := List.length_pos_iff.mpr hne
          rw [← htail, List.length_append] at hfuel
          rw [htext]
          omega
        have hgrows := ih hbelow child hlength
        have hkey := stringKey_insertLoop id weightVersion fuel child grandchildren
          (remaining.skip child)
        rw [htext] at hgrows
        rw [hsome, Nat.zero_add]
        dsimp only
        rw [← htail] at hothers ⊢
        refine ⟨hf.set hget hkey hgrows.firstFits hgrows.spelled hothers, ?_, ?_, ?_⟩
        · intro s hs
          exact Forest.spells_set hget hkey hgrows.spelled hs
        · intro s hs
          exact hs.set hget hkey hgrows.kept
        · intro _
          refine .of_get? (Forest.get?_set hget) ?_
          rw [hkey]
          by_cases hend : tail = []
          · exact .inl (by rw [hend, List.append_nil])
          · exact .inr ⟨tail, hgrows.inserted hend, rfl⟩

end Insertion

/-! Calls -/

namespace StringRadixTrie

variable {t t' : StringRadixTrie} {args : InsertArgs} {a : TrieAction}

theorem settings_removeAll (t : StringRadixTrie) (f : Forest StringTreeNode) :
    (t.removeAll f).1.counter = t.counter ∧ (t.removeAll f).1.gcThresholdK = t.gcThresholdK := by
  induction f generalizing t with
  | nil => exact ⟨rfl, rfl⟩
  | node node children rest ihc ihr =>
    simp only [removeAll]
    rw [(ihr _).1, (ihr _).2]
    exact ihc t

theorem children_findLongestPrefix (t : StringRadixTrie) (text : List Char) :
    (t.findLongestPrefix text).1.children = t.children := by
  unfold findLongestPrefix
  split_ifs <;> rfl

/-- Nodes have been removed, and none is new. -/
structure Shrinks (t t' : StringRadixTrie) : Prop where
  pruned : t.children.Pruned t'.children
  counter : t'.counter = t.counter
  gcThresholdK : t'.gcThresholdK = t.gcThresholdK

theorem Shrinks.refl (t : StringRadixTrie) : t.Shrinks t := ⟨.refl, rfl, rfl⟩

theorem Shrinks.trans {s : StringRadixTrie} (h : t.Shrinks s) (h' : s.Shrinks t') : t.Shrinks t' :=
  ⟨h.pruned.trans h'.pruned, h'.counter.trans h.counter, h'.gcThresholdK.trans h.gcThresholdK⟩

theorem shrinks_cleanNodeSubtree (t : StringRadixTrie) (id : Nat) :
    t.Shrinks (t.cleanNodeSubtree id).1 := by
  unfold cleanNodeSubtree
  split
  · exact .refl t
  · rename_i node children hfound
    obtain ⟨hcounter, hthreshold⟩ := settings_removeAll t (.node node children .nil)
    exact ⟨.remove .refl _, hcounter, hthreshold⟩

theorem shrinks_gcLoop (t : StringRadixTrie) (nodesToRemove : List Nat) (removedCount : Nat) :
    t.Shrinks (t.gcLoop nodesToRemove removedCount).1 := by
  induction nodesToRemove generalizing t removedCount with
  | nil => exact .refl t
  | cons id nodesToRemove ih =>
    rw [gcLoop]
    split
    · exact ih t removedCount
    · split_ifs
      · exact (shrinks_cleanNodeSubtree t id).trans (ih _ _)
      · exact .refl t

theorem shrinks_findLongestPrefix (t : StringRadixTrie) (text : List Char) :
    t.Shrinks (t.findLongestPrefix text).1 := by
  unfold findLongestPrefix
  split_ifs
  · exact .refl t
  · exact ⟨.refl, rfl, rfl⟩

theorem shrinks_remove (t : StringRadixTrie) (text : List Char) :
    t.Shrinks (t.remove text).1 := by
  have hfound := shrinks_findLongestPrefix t text
  unfold remove
  dsimp only
  split
  · exact hfound
  · exact hfound.trans (shrinks_cleanNodeSubtree _ _)

theorem shrinks_insert (t : StringRadixTrie) (hvalid : args.isValid = true) :
    (t.stored args).Shrinks (t.insert args).1 := by
  unfold insert
  rw [if_pos hvalid]
  split
  · exact .refl _
  · exact shrinks_gcLoop _ _ _

/-- What a call does with the nodes: it may insert a text, and then it only removes. -/
theorem shrinks_of_next (h : t.next a = some t') :
    (t.Shrinks t' ∧ ∀ args, a = .insert args → args.isValid = false) ∨
      ∃ args, a = .insert args ∧ args.isValid = true ∧ (t.stored args).Shrinks t' := by
  cases a with
  | insert args =>
    cases h
    cases hvalid : args.isValid with
    | true => exact .inr ⟨args, rfl, hvalid, shrinks_insert t hvalid⟩
    | false =>
      refine .inl ⟨?_, ?_⟩
      · unfold insert
        rw [if_neg (by simp [hvalid])]
        exact .refl t
      · intro args' hsame
        cases hsame
        exact hvalid
  | findLongestPrefix text =>
    cases h
    refine .inl ⟨shrinks_findLongestPrefix t text, ?_⟩
    intro args hsame
    cases hsame
  | remove text =>
    cases h
    refine .inl ⟨shrinks_remove t text, ?_⟩
    intro args hsame
    cases hsame
  | gcByWeightVersion currentWeightVersion =>
    refine .inl ⟨?_, ?_⟩
    · cases currentWeightVersion with
      | none =>
        cases h
        exact .refl t
      | some weightVersion =>
        cases h
        exact shrinks_gcLoop _ _ _
    · intro args hsame
      cases hsame

/-- The lookup spells the longest prefix of the text that any path spells. -/
def IsExact (t : StringRadixTrie) : Prop :=
  ∀ text, (t.findLongestPrefix text).2.matchedPrefix <+: text ∧
    ((t.findLongestPrefix text).2.matchedPrefix = [] ∨
      t.children.Spells StringTreeNode.stringKey (t.findLongestPrefix text).2.matchedPrefix) ∧
    ∀ s, t.children.Spells StringTreeNode.stringKey s → s <+: text →
      s.length ≤ (t.findLongestPrefix text).2.matchedPrefix.length

theorem grows_stored (hf : t.children.FirstFits StringTreeNode.stringKey) (args : InsertArgs) :
    Grows t.children (t.stored args).children args.text :=
  grows_insertLoop t.counter args.weightVersion hf .root le_rfl

theorem firstFits_next (hf : t.children.FirstFits StringTreeNode.stringKey)
    (h : t.next a = some t') : t'.children.FirstFits StringTreeNode.stringKey := by
  rcases shrinks_of_next h with ⟨hshrinks, -⟩ | ⟨args, -, -, hshrinks⟩
  · exact hf.pruned hshrinks.pruned
  · exact (grows_stored hf args).firstFits.pruned hshrinks.pruned

/-- The match of a lookup follows a path. -/
theorem findLongestPrefix_spec (hf : t.children.FirstFits StringTreeNode.stringKey)
    (text : List Char) : ∃ nodes, (nodes = [] ∨ t.children.Path nodes) ∧
      (t.findLongestPrefix text).2 =
        nodes.foldl MatchResult.extend ⟨[], [], [], [], text, none⟩ ∧
      nodes.flatMap StringTreeNode.stringKey <+: text ∧
      ∀ s, t.children.Spells StringTreeNode.stringKey s → s <+: text →
        s.length ≤ (nodes.flatMap StringTreeNode.stringKey).length := by
  unfold findLongestPrefix
  split_ifs with hnil
  · subst hnil
    refine ⟨[], .inl rfl, rfl, List.nil_prefix, ?_⟩
    intro s _ hs
    rw [List.prefix_nil.mp hs]
    exact le_rfl
  · exact findLoop_spec ⟨[], [], [], [], text, none⟩ hf le_rfl 0

theorem isExact_of_firstFits (hf : t.children.FirstFits StringTreeNode.stringKey) :
    t.IsExact := by
  intro text
  obtain ⟨nodes, hpath, hresult, hstarts, hmax⟩ := findLongestPrefix_spec hf text
  have hmatched : (t.findLongestPrefix text).2.matchedPrefix =
      nodes.flatMap StringTreeNode.stringKey := by
    rw [hresult, matchedPrefix_foldl_extend, List.nil_append]
  rw [hmatched]
  refine ⟨hstarts, ?_, hmax⟩
  rcases hpath with rfl | hpath
  · exact .inl rfl
  · exact .inr ⟨nodes, hpath, rfl⟩

end StringRadixTrie

/-! Token lists that agree -/

/-- The text and the tokens of a call that inserts some. -/
def TrieAction.inserted? : TrieAction → Option (List Char × List Int)
  | .insert args => if args.isValid then some (args.text, args.tokenIds) else none
  | _ => none

/-- The list of a text that another one begins with is the beginning of the other's list. -/
def PrefixConsistent (lists : List (List Char × List Int)) : Prop :=
  ∀ e ∈ lists, ∀ e' ∈ lists, e.1 <+: e'.1 → e.2 <+: e'.2

instance (lists : List (List Char × List Int)) : Decidable (PrefixConsistent lists) :=
  inferInstanceAs (Decidable (∀ e ∈ lists, ∀ e' ∈ lists, e.1 <+: e'.1 → e.2 <+: e'.2))

/-- Each path on from a text and its tokens is that of one of the lists. -/
def PathsIn (lists : List (List Char × List Int)) (start : List Char) (covered : List Int)
    (f : Forest StringTreeNode) : Prop :=
  ∀ nodes, f.Path nodes → (start ++ nodes.flatMap StringTreeNode.stringKey,
    covered ++ nodes.flatMap StringTreeNode.tokens) ∈ lists

section Lists

variable {lists : List (List Char × List Int)} {start : List Char} {covered tokenIds : List Int}
  {remaining : Remaining}

theorem tokens_newNode (remaining : Remaining) (id : Nat) (weightVersion : Option Int) :
    (remaining.newNode id weightVersion).tokens = remaining.tokens := by
  unfold Remaining.newNode
  dsimp only
  split_ifs with h
  · exact h.symm
  · rfl

/-- Tokens that are left over are those after the ones that are covered. -/
theorem append_drop_of_consistent (hlists : PrefixConsistent lists)
    (hstart : (start = [] ∧ covered = []) ∨ (start, covered) ∈ lists)
    (hmem : (start ++ remaining.text, tokenIds) ∈ lists) :
    covered ++ tokenIds.drop covered.length = tokenIds := by
  have hstarts : covered <+: tokenIds := by
    rcases hstart with ⟨-, rfl⟩ | hstart
    · exact List.nil_prefix
    · exact hlists _ hstart _ hmem (List.prefix_append _ _)
  exact (List.prefix_iff_eq_append.mp hstarts)

theorem pathsIn_insertEnd (hlists : PrefixConsistent lists) (hf : PathsIn lists start covered f)
    (hstart : (start = [] ∧ covered = []) ∨ (start, covered) ∈ lists)
    (hmem : (start ++ remaining.text, tokenIds) ∈ lists)
    (htokens : remaining.tokens = tokenIds.drop covered.length)
    (hne : start ++ remaining.text ≠ []) (hnil : remaining.text = []) :
    (insertEnd node f remaining).node.tokens = node.tokens ∧
      PathsIn lists start covered (insertEnd node f remaining).children := by
  rw [hnil, List.append_nil] at hmem hne
  have hcovered : (start, covered) ∈ lists := by
    rcases hstart with ⟨hempty, -⟩ | hstart
    · exact absurd hempty hne
    · exact hstart
  -- the text has been inserted before, and nothing is left of its tokens
  have hle : tokenIds <+: covered := hlists _ hmem _ hcovered (List.prefix_refl _)
  have hnone : remaining.tokens = [] := by
    rw [htokens]
    exact List.drop_eq_nil_of_le hle.length_le
  unfold insertEnd
  rw [if_pos (.inr hnone)]
  exact ⟨rfl, hf⟩

theorem pathsIn_insertLoop (hlists : PrefixConsistent lists) (id : Nat)
    (weightVersion : Option Int) {fuel : Nat} (node : StringTreeNode)
    (hf : PathsIn lists start covered f)
    (hstart : (start = [] ∧ covered = []) ∨ (start, covered) ∈ lists)
    (hmem : (start ++ remaining.text, tokenIds) ∈ lists)
    (htokens : remaining.tokens = tokenIds.drop covered.length)
    (hne : start ++ remaining.text ≠ []) (hfuel : remaining.text.length ≤ fuel) :
    (insertLoop id weightVersion fuel node f remaining).node.tokens = node.tokens ∧
      PathsIn lists start covered
        (insertLoop id weightVersion fuel node f remaining).children := by
  induction fuel generalizing f node remaining start covered with
  | zero =>
    exact pathsIn_insertEnd hlists hf hstart hmem htokens hne
      (List.length_eq_zero_iff.mp (Nat.le_zero.mp hfuel))
  | succ fuel ih =>
    rw [insertLoop]
    split_ifs with hnil
    · exact pathsIn_insertEnd hlists hf hstart hmem htokens hne hnil
    · cases hbest : bestChild remaining.text 0 none f with
      | none =>
        refine ⟨rfl, ?_⟩
        intro nodes hpath
        rcases Forest.path_push.mp hpath with hold | rfl
        · exact hf nodes hold
        · have hwhole := append_drop_of_consistent hlists hstart hmem
          simp only [List.flatMap_cons, List.flatMap_nil, List.append_nil, stringKey_newNode,
            tokens_newNode]
          rw [htokens, hwhole]
          exact hmem
      | some chosen =>
        obtain ⟨i, child, grandchildren⟩ := chosen
        obtain ⟨hget, ⟨tail, htail⟩, hkey⟩ := get?_of_bestChild hbest
        have htext : (remaining.skip child).text = tail := by
          rw [Remaining.skip, ← htail, List.drop_left]
        have hchild : (start ++ child.stringKey, covered ++ child.tokens) ∈ lists := by
          simpa using hf [child] (.of_get? hget (.inl rfl))
        have hbelow : PathsIn lists (start ++ child.stringKey) (covered ++ child.tokens)
            grandchildren := by
          intro nodes hpath
          simpa using hf (child :: nodes) (.of_get? hget (.inr ⟨nodes, hpath, rfl⟩))
        have hjoin : start ++ child.stringKey ++ (remaining.skip child).text =
            start ++ remaining.text := by
          rw [htext, ← htail, List.append_assoc]
        have hskipped : (remaining.skip child).tokens =
            tokenIds.drop (covered ++ child.tokens).length := by
          rw [Remaining.skip, htokens, List.drop_drop, List.length_append]
        have hlength : (remaining.skip child).text.length ≤ fuel := by
          have hpos := List.length_pos_iff.mpr hkey
          rw [← htail, List.length_append] at hfuel
          rw [htext]
          omega
        obtain ⟨hnode, hpaths⟩ := ih child hbelow (.inr hchild) (hjoin ▸ hmem) hskipped
          (hjoin ▸ hne) hlength
        have hsame := stringKey_insertLoop id weightVersion fuel child grandchildren
          (remaining.skip child)
        refine ⟨rfl, ?_⟩
        intro nodes hpath
        rcases hpath.of_set hget with hold | rfl | ⟨below, hnew, rfl⟩
        · exact hf nodes hold
        · simpa [hsame, hnode] using hchild
        · simpa [hsame, hnode] using hpaths below hnew

end Lists

namespace StringRadixTrie

variable {t t' : StringRadixTrie} {args : InsertArgs} {a : TrieAction}
  {lists : List (List Char × List Int)} {run : List TrieAction}

/-- The keys fit first, the paths are those of the lists, and the nodes are aligned. -/
structure Holds (lists : List (List Char × List Int)) (t : StringRadixTrie) : Prop where
  firstFits : t.children.FirstFits StringTreeNode.stringKey
  paths : PathsIn lists [] [] t.children
  aligned : ∀ node ∈ t.children.nodes, node.IsAligned

theorem isAligned_store (node : StringTreeNode) {remaining : Remaining}
    (hlogp : remaining.logp.length = remaining.tokens.length)
    (hmask : remaining.lossMask.length = remaining.tokens.length) :
    (node.store remaining).IsAligned := by
  refine ⟨hlogp, ?_⟩
  intro mask hmem
  cases hmem
  exact hmask

theorem isAligned_newNode {remaining : Remaining} (id : Nat) (weightVersion : Option Int)
    (hlogp : remaining.logp.length = remaining.tokens.length)
    (hmask : remaining.lossMask.length = remaining.tokens.length) :
    (remaining.newNode id weightVersion).IsAligned := by
  unfold Remaining.newNode
  dsimp only
  split_ifs
  · refine ⟨rfl, ?_⟩
    intro mask hmem
    cases hmem
  · exact isAligned_store _ hlogp hmask

/-- The tokens of a text have log-probabilities and a mask of their length. -/
theorem length_defaults (h : args.isValid = true) :
    (args.logp.getD (List.replicate args.tokenIds.length 0)).length = args.tokenIds.length ∧
      (args.lossMask.getD (List.replicate args.tokenIds.length 0)).length =
        args.tokenIds.length := by
  simp only [InsertArgs.isValid, Bool.and_eq_true, Option.all_eq_true, decide_eq_true_eq] at h
  obtain ⟨⟨-, hlogp⟩, hmask⟩ := h
  constructor
  · cases hl : args.logp with
    | none => simp
    | some logp => exact hlogp logp hl
  · cases hm : args.lossMask with
    | none => simp
    | some mask => exact hmask mask hm

theorem length_of_endsWith (hvalid : args.isValid = true) {rest : Remaining}
    (h : args.remaining.EndsWith rest) :
    rest.logp.length = rest.tokens.length ∧ rest.lossMask.length = rest.tokens.length := by
  obtain ⟨hlogp, hmask⟩ := length_defaults hvalid
  obtain ⟨n, htokens, hlogps, hmasks⟩ := h
  rw [htokens, hlogps, hmasks]
  simp [InsertArgs.remaining, hlogp, hmask]

theorem aligned_replace {left right : List StringTreeNode} {node : StringTreeNode}
    (hleft : ∀ other ∈ left, other.IsAligned) (hnode : node.IsAligned)
    (hright : ∀ other ∈ right, other.IsAligned) :
    ∀ other ∈ left ++ node :: right, other.IsAligned := by
  intro other hmem
  rw [List.mem_append, List.mem_cons] at hmem
  rcases hmem with hmem | rfl | hmem
  · exact hleft other hmem
  · exact hnode
  · exact hright other hmem

theorem aligned_stored (h : ∀ node ∈ t.children.nodes, node.IsAligned)
    (hvalid : args.isValid = true) : ∀ node ∈ (t.stored args).children.nodes, node.IsAligned := by
  rcases t.stores_stored hvalid with ⟨left, right, rest, hrest, hbefore, hafter, -, -, -⟩ |
    ⟨left, right, filled, rest, hrest, -, hbefore, hafter, -, -, -⟩ | ⟨hafter, -, -, -⟩
  · obtain ⟨hlogp, hmask⟩ := length_of_endsWith hvalid hrest
    rw [hafter]
    rw [hbefore] at h
    exact aligned_replace (fun node hnode => h node (List.mem_append_left _ hnode))
      (isAligned_newNode _ _ hlogp hmask) fun node hnode => h node (List.mem_append_right _ hnode)
  · obtain ⟨hlogp, hmask⟩ := length_of_endsWith hvalid hrest
    rw [hafter]
    rw [hbefore] at h
    exact aligned_replace (fun node hnode => h node (List.mem_append_left _ hnode))
      (isAligned_store _ hlogp hmask)
      fun node hnode => h node (List.mem_append_right _ (List.mem_cons_of_mem _ hnode))
  · rw [hafter]
    exact h

theorem Holds.pruned (h : t.Holds lists) (hpruned : t.children.Pruned t'.children) :
    t'.Holds lists :=
  ⟨h.firstFits.pruned hpruned, fun nodes hpath => h.paths nodes (hpath.of_pruned hpruned),
    fun node hnode => h.aligned node (hpruned.sublist.subset hnode)⟩

theorem Holds.stored (h : t.Holds lists) (hlists : PrefixConsistent lists)
    (hvalid : args.isValid = true) (hmem : (args.text, args.tokenIds) ∈ lists) :
    (t.stored args).Holds lists := by
  obtain ⟨htext, -⟩ := InsertArgs.ne_nil hvalid
  refine ⟨(grows_stored h.firstFits args).firstFits, ?_, aligned_stored h.aligned hvalid⟩
  exact And.right (pathsIn_insertLoop hlists t.counter args.weightVersion .root h.paths
    (.inl ⟨rfl, rfl⟩) hmem rfl htext le_rfl)

theorem Holds.next (h : t.Holds lists) (hlists : PrefixConsistent lists)
    (hinserted : ∀ e ∈ a.inserted?, e ∈ lists) (hn : t.next a = some t') : t'.Holds lists := by
  rcases shrinks_of_next hn with ⟨hshrinks, -⟩ | ⟨args, rfl, hvalid, hshrinks⟩
  · exact h.pruned hshrinks.pruned
  · have hmem : (args.text, args.tokenIds) ∈ lists := by
      refine hinserted _ ?_
      rw [TrieAction.inserted?, if_pos hvalid]
      rfl
    exact (h.stored hlists hvalid hmem).pruned hshrinks.pruned

theorem Holds.exec (h : t.Holds lists) (hlists : PrefixConsistent lists)
    (hinserted : ∀ e ∈ run.filterMap TrieAction.inserted?, e ∈ lists)
    (hrun : exec StringRadixTrie.next t run = some t') : t'.Holds lists := by
  induction run generalizing t with
  | nil =>
    have hsame : t = t' := Option.some.inj hrun
    exact hsame ▸ h
  | cons a run ih =>
    obtain ⟨s, hn, hrest⟩ := exec_cons_eq_some hrun
    refine ih (h.next hlists ?_ hn) ?_ hrest
    · intro e he
      exact hinserted e (List.mem_filterMap.mpr ⟨a, List.mem_cons_self, he⟩)
    · intro e he
      obtain ⟨b, hb, hsome⟩ := List.mem_filterMap.mp he
      exact hinserted e (List.mem_filterMap.mpr ⟨b, List.mem_cons_of_mem a hb, hsome⟩)

/-- A call neither removes nor collects. -/
def Keeps (t : StringRadixTrie) : TrieAction → Prop
  | .insert args => t.collectsAt args = none
  | .findLongestPrefix _ => True
  | .remove _ => False
  | .gcByWeightVersion currentWeightVersion => currentWeightVersion = none

instance (t : StringRadixTrie) : ∀ a, Decidable (t.Keeps a)
  | .insert args => inferInstanceAs (Decidable (t.collectsAt args = none))
  | .findLongestPrefix _ => .isTrue trivial
  | .remove _ => .isFalse fun h => h
  | .gcByWeightVersion currentWeightVersion =>
    inferInstanceAs (Decidable (currentWeightVersion = none))

theorem insert_of_keeps (hvalid : args.isValid = true) (h : t.Keeps (.insert args)) :
    (t.insert args).1 = t.stored args := by
  have hnone : t.collectsAt args = none := h
  unfold insert
  rw [if_pos hvalid, hnone]

theorem spells_next {text : List Char} (hf : t.children.FirstFits StringTreeNode.stringKey)
    (hs : t.children.Spells StringTreeNode.stringKey text) (hkeep : t.Keeps a)
    (hn : t.next a = some t') : t'.children.Spells StringTreeNode.stringKey text := by
  cases a with
  | insert args =>
    cases hn
    by_cases hvalid : args.isValid = true
    · rw [insert_of_keeps hvalid hkeep]
      exact (grows_stored hf args).kept text hs
    · unfold insert
      rw [if_neg hvalid]
      exact hs
  | findLongestPrefix =>
    cases hn
    rw [children_findLongestPrefix]
    exact hs
  | remove => cases hkeep
  | gcByWeightVersion =>
    cases hkeep
    cases hn
    exact hs

theorem spells_exec {text : List Char} (hf : t.children.FirstFits StringTreeNode.stringKey)
    (hs : t.children.Spells StringTreeNode.stringKey text)
    (hkeep : Meets StringRadixTrie.next Keeps t run)
    (hrun : exec StringRadixTrie.next t run = some t') :
    t'.children.Spells StringTreeNode.stringKey text := by
  induction run generalizing t with
  | nil =>
    have hsame : t = t' := Option.some.inj hrun
    exact hsame ▸ hs
  | cons a run ih =>
    obtain ⟨s, hn, hrest⟩ := exec_cons_eq_some hrun
    obtain ⟨hfirst, hkeep⟩ := (meets_cons_some hn).mp hkeep
    exact ih (firstFits_next hf hn) (spells_next hf hs hfirst hn) hkeep hrest

/-- The lookup of an inserted text matches all of it and returns its tokens. -/
structure Returns (t : StringRadixTrie) (args : InsertArgs) : Prop where
  matched : (t.findLongestPrefix args.text).2.matchedPrefix = args.text
  tokenIds : (t.findLongestPrefix args.text).2.tokenIds = args.tokenIds
  logp : (t.findLongestPrefix args.text).2.logp.length = args.tokenIds.length
  lossMask : (t.findLongestPrefix args.text).2.lossMask.length = args.tokenIds.length

theorem Holds.returns (h : t.Holds lists) (hlists : PrefixConsistent lists)
    (hvalid : args.isValid = true) (hmem : (args.text, args.tokenIds) ∈ lists)
    (hs : t.children.Spells StringTreeNode.stringKey args.text) : t.Returns args := by
  obtain ⟨nodes, hpath, hresult, hstarts, hmax⟩ := findLongestPrefix_spec h.firstFits args.text
  have hwhole : nodes.flatMap StringTreeNode.stringKey = args.text :=
    hstarts.eq_of_length (Nat.le_antisymm hstarts.length_le (hmax _ hs (List.prefix_refl _)))
  have hpath : t.children.Path nodes := by
    rcases hpath with rfl | hpath
    · exact absurd hwhole.symm (InsertArgs.ne_nil hvalid).1
    · exact hpath
  have hcarried := h.paths nodes hpath
  rw [List.nil_append, List.nil_append, hwhole] at hcarried
  -- both lists are those of the same text
  have htokens : nodes.flatMap StringTreeNode.tokens = args.tokenIds := by
    have hle := hlists _ hcarried _ hmem (List.prefix_refl _)
    have hge := hlists _ hmem _ hcarried (List.prefix_refl _)
    exact hle.eq_of_length (Nat.le_antisymm hle.length_le hge.length_le)
  obtain ⟨hlogp, hmask⟩ := length_foldl_extend nodes ⟨[], [], [], [], args.text, none⟩
    fun node hnode => h.aligned node (hpath.mem_nodes node hnode)
  rw [← hresult, htokens, List.length_nil, Nat.zero_add] at hlogp hmask
  refine ⟨?_, ?_, hlogp, hmask⟩
  · rw [hresult, matchedPrefix_foldl_extend, List.nil_append, hwhole]
  · rw [hresult, tokenIds_foldl_extend, List.nil_append, htokens]

theorem holds_init (lists : List (List Char × List Int)) (maxCacheSize gcThresholdK : Int) :
    (init maxCacheSize gcThresholdK).Holds lists := by
  refine ⟨trivial, ?_, ?_⟩
  · intro nodes hpath
    exact absurd hpath Forest.not_path_nil
  · intro node hnode
    cases hnode

/-- Lookups are exact in every run; and when the inserted lists agree, the lookup of a text after
its insertion, with no removal or collection from there on, returns its tokens. -/
theorem lookup_exact (maxCacheSize gcThresholdK : Int) :
    (∀ run, Along StringRadixTrie.next IsExact (init maxCacheSize gcThresholdK) run) ∧
      ∀ before args after t t',
        exec StringRadixTrie.next (init maxCacheSize gcThresholdK) before = some t →
        args.isValid = true →
        PrefixConsistent ((before ++ .insert args :: after).filterMap TrieAction.inserted?) →
        Meets StringRadixTrie.next Keeps t (.insert args :: after) →
        exec StringRadixTrie.next t (.insert args :: after) = some t' → t'.Returns args := by
  constructor
  · intro run
    have hfits : Along StringRadixTrie.next
        (fun t => t.children.FirstFits StringTreeNode.stringKey)
        (init maxCacheSize gcThresholdK) run :=
      along_of_meets (G := fun _ _ => True) (fun s a s' hf _ hn => firstFits_next hf hn) trivial
        (meets_of_forall (fun _ _ => trivial) _ _)
    exact hfits.mono fun t hf => isExact_of_firstFits hf
  · intro before args after t t' hbefore hvalid hlists hkeep hafter
    have hsome : TrieAction.inserted? (.insert args) = some (args.text, args.tokenIds) := by
      rw [TrieAction.inserted?, if_pos hvalid]
    have hmem : (args.text, args.tokenIds) ∈
        (before ++ .insert args :: after).filterMap TrieAction.inserted? := by
      refine List.mem_filterMap.mpr ⟨.insert args, ?_, hsome⟩
      simp
    have ht := (holds_init _ maxCacheSize gcThresholdK).exec hlists (fun e he => by
      rw [List.filterMap_append]
      exact List.mem_append_left _ he) hbefore
    have ht' := ht.exec hlists (fun e he => by
      rw [List.filterMap_append]
      exact List.mem_append_right _ he) hafter
    obtain ⟨s, hn, hrest⟩ := exec_cons_eq_some hafter
    obtain ⟨hfirst, hkeep⟩ := (meets_cons_some hn).mp hkeep
    have hinserted : s.children.Spells StringTreeNode.stringKey args.text := by
      cases hn
      rw [insert_of_keeps hvalid hfirst]
      exact (grows_stored ht.firstFits args).inserted (InsertArgs.ne_nil hvalid).1
    exact ht'.returns hlists hvalid hmem
      (spells_exec (firstFits_next ht.firstFits hn) hinserted hkeep hrest)

/-- A text is inserted after the one that it begins with. -/
theorem lookup_exact_longer :
    ∃ t', exec StringRadixTrie.next (init 100 5)
        [.insert ⟨['h', 'i'], [1], none, none, some 1⟩,
          .insert ⟨['h', 'i', '!'], [1, 2], none, none, some 1⟩,
          .findLongestPrefix ['h']] = some t' ∧
      t'.Returns ⟨['h', 'i', '!'], [1, 2], none, none, some 1⟩ := by
  refine ⟨_, rfl, ?_⟩
  exact (lookup_exact 100 5).2 [.insert ⟨['h', 'i'], [1], none, none, some 1⟩]
    ⟨['h', 'i', '!'], [1, 2], none, none, some 1⟩ [.findLongestPrefix ['h']] _ _ rfl (by decide)
    (by decide) (by decide) rfl

end StringRadixTrie

end Belayer.Router
