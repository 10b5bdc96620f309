import Belayer.Router.LongestPrefix
import Mathlib.Data.List.Nodup

namespace Belayer.Router

open Belayer.Framework

namespace StringRadixTrie

/-- The counters are those of the tree. -/
structure Accounted (t : StringRadixTrie) : Prop where
  curCacheSize : t.curCacheSize = ((t.children.nodes.map (·.tokens.length)).sum : Nat)
  totalEntries : t.totalEntries = t.children.nodes.length

/-- The ids of the nodes that have tokens. -/
def valuedIds (t : StringRadixTrie) : List Nat := (t.children.nodes.filter (·.hasValue)).map (·.id)

/-- The nodes on the way of a text. -/
def traversed (t : StringRadixTrie) (text : List Char) : List StringTreeNode :=
  traversedNodes text.length t.children text

/-- The text leads to a node that has tokens. -/
def isCached (t : StringRadixTrie) (text : List Char) : Bool :=
  (t.traversed text).flatMap StringTreeNode.stringKey = text &&
    (t.traversed text).getLast?.any StringTreeNode.hasValue

end StringRadixTrie

/-- The trie with its history: the weight version of the insertion that each id has its tokens
from. -/
structure TrieHistory where
  trie : StringRadixTrie
  storedAt : Nat → Option Int

namespace TrieHistory

def init (maxCacheSize gcThresholdK : Int) : TrieHistory :=
  ⟨.init maxCacheSize gcThresholdK, fun _ => none⟩

/-- An insertion stamps the ids that it gives tokens to. -/
def account (l : TrieHistory) : TrieAction → Nat → Option Int
  | .insert args => fun id =>
    if args.isValid ∧ id ∈ (l.trie.stored args).valuedIds ∧ id ∉ l.trie.valuedIds then
      args.weightVersion
    else l.storedAt id
  | _ => l.storedAt

def next (l : TrieHistory) (a : TrieAction) : Option TrieHistory :=
  (l.trie.next a).map fun t => ⟨t, l.account a⟩

/-- The trie that a call collects, and the current version there. -/
def collection (l : TrieHistory) : TrieAction → Option (StringRadixTrie × Int)
  | .insert args => (l.trie.collectsAt args).map (l.trie.stored args, ·)
  | .gcByWeightVersion currentWeightVersion => currentWeightVersion.map (l.trie, ·)
  | .findLongestPrefix _ | .remove _ => none

/-- The version that a node has its tokens from, if it has any. -/
def stamp (storedAt : Nat → Option Int) (node : StringTreeNode) : Option Int :=
  if node.hasValue then storedAt node.id else none

/-- A collection raises nothing, and no tokens of the current version are lost. -/
def CollectsSafely (l : TrieHistory) (a : TrieAction) : Prop :=
  ∀ c ∈ l.collection a, (c.1.gcByWeightVersion c.2).2 ≠ none ∧
    ∀ node ∈ c.1.children.nodes, stamp (l.account a) node = some c.2 →
      node ∈ (c.1.gcByWeightVersion c.2).1.children.nodes

/-- The condition on a step: an insertion with a version passes no node of an older one, unless its
text is cached already. -/
def PassesNoOlder (l : TrieHistory) : TrieAction → Prop
  | .insert args => args.isValid = true → l.trie.isCached args.text = false →
      ∀ v ∈ args.weightVersion, ∀ node ∈ l.trie.traversed args.text, ∀ w ∈ node.weightVersion, v ≤ w
  | _ => True

end TrieHistory

/-! The counters -/

namespace StringRadixTrie

variable {t t' : StringRadixTrie} {args : InsertArgs} {a : TrieAction}

theorem tokens_of_not_hasValue {node : StringTreeNode} (h : node.hasValue = false) :
    node.tokens = [] := by
  have hnone : node.tokenIds = none := by simpa [StringTreeNode.hasValue] using h
  simp [StringTreeNode.tokens, hnone]

theorem counters_removeAll (t : StringRadixTrie) (f : Forest StringTreeNode) :
    (t.removeAll f).1.curCacheSize =
        t.curCacheSize - ((f.nodes.map (·.tokens.length)).sum : Nat) ∧
      (t.removeAll f).1.totalEntries = t.totalEntries - f.nodes.length ∧
      (t.removeAll f).1.counter = t.counter := by
  induction f generalizing t with
  | nil => simp [removeAll, Forest.nodes]
  | node node children rest ihc ihr =>
    obtain ⟨hsize, hentries, hcounter⟩ := ihc t
    have huncached : (if node.hasValue = true then
          (t.removeAll children).1.curCacheSize - node.tokens.length
        else (t.removeAll children).1.curCacheSize) =
        (t.removeAll children).1.curCacheSize - node.tokens.length := by
      split_ifs with hvalue
      · rfl
      · simp [tokens_of_not_hasValue (Bool.eq_false_iff.mpr hvalue)]
    simp only [removeAll]
    obtain ⟨hsize', hentries', hcounter'⟩ := ihr
      { (t.removeAll children).1 with
        curCacheSize :=
          if node.hasValue = true then
            (t.removeAll children).1.curCacheSize - node.tokens.length
          else (t.removeAll children).1.curCacheSize
        totalEntries := (t.removeAll children).1.totalEntries - 1 }
    refine ⟨?_, ?_, hcounter'.trans hcounter⟩
    · rw [hsize']
      dsimp only
      rw [huncached, hsize]
      simp only [Forest.nodes, List.map_cons, List.map_append, List.sum_cons, List.sum_append]
      omega
    · rw [hentries']
      dsimp only
      rw [hentries]
      simp only [Forest.nodes, List.length_cons, List.length_append]
      omega

theorem Accounted.cleanNodeSubtree (h : t.Accounted) (id : Nat) :
    (t.cleanNodeSubtree id).1.Accounted := by
  unfold StringRadixTrie.cleanNodeSubtree
  split
  · exact h
  · rename_i node children hfound
    obtain ⟨-, before, after, hnodes, hremove⟩ := Forest.nodes_remove hfound
    obtain ⟨hsize, hentries, -⟩ := counters_removeAll t (.node node children .nil)
    have hcached := h.curCacheSize
    have htotal := h.totalEntries
    rw [hnodes] at hcached htotal
    constructor
    · dsimp only
      rw [hsize, hcached, hremove]
      simp only [Forest.nodes, List.map_cons, List.map_append, List.sum_cons, List.sum_append,
        List.append_nil]
      omega
    · dsimp only
      rw [hentries, htotal, hremove]
      simp only [Forest.nodes, List.length_cons, List.length_append, List.append_nil]
      omega

theorem Accounted.gcLoop (h : t.Accounted) (nodesToRemove : List Nat) (removedCount : Nat) :
    (t.gcLoop nodesToRemove removedCount).1.Accounted := by
  induction nodesToRemove generalizing t removedCount with
  | nil => exact h
  | cons id nodesToRemove ih =>
    rw [StringRadixTrie.gcLoop]
    split
    · exact ih h removedCount
    · split_ifs
      · exact ih (h.cleanNodeSubtree id) _
      · exact h

theorem Accounted.findLongestPrefix (h : t.Accounted) (text : List Char) :
    (t.findLongestPrefix text).1.Accounted := by
  unfold StringRadixTrie.findLongestPrefix
  split_ifs
  · exact h
  · exact ⟨h.curCacheSize, h.totalEntries⟩

theorem Accounted.remove (h : t.Accounted) (text : List Char) : (t.remove text).1.Accounted := by
  have hfound := h.findLongestPrefix text
  unfold StringRadixTrie.remove
  dsimp only
  split
  · exact hfound
  · exact hfound.cleanNodeSubtree _

theorem Accounted.stored (h : t.Accounted) (hvalid : args.isValid = true) :
    (t.stored args).Accounted := by
  obtain ⟨hsize, hentries⟩ := h
  rcases t.stores_stored hvalid with
    ⟨left, right, rest, -, hbefore, hafter, htotal, hcached, -⟩ |
    ⟨left, right, node, rest, -, hvalue, hbefore, hafter, htotal, hcached, -⟩ |
    ⟨hafter, htotal, hcached, -⟩
  · rw [hbefore] at hsize hentries
    constructor
    · rw [hcached, hsize, hafter]
      simp only [List.map_append, List.map_cons, List.sum_append, List.sum_cons, tokens_newNode]
      omega
    · rw [htotal, hentries, hafter]
      simp only [List.length_append, List.length_cons]
      omega
  · have hnone : node.tokens.length = 0 := by
      rw [tokens_of_not_hasValue hvalue]
      rfl
    have hstored : (node.store rest).tokens = rest.tokens := rfl
    rw [hbefore] at hsize hentries
    constructor
    · rw [hcached, hsize, hafter]
      simp only [List.map_append, List.map_cons, List.sum_append, List.sum_cons, hnone, hstored]
      omega
    · rw [htotal, hentries, hafter]
      simp only [List.length_append, List.length_cons]
  · constructor
    · rw [hcached, hsize, hafter]
    · rw [htotal, hentries, hafter]

theorem Accounted.next (h : t.Accounted) (hn : t.next a = some t') : t'.Accounted := by
  cases a with
  | insert args =>
    cases hn
    unfold StringRadixTrie.insert
    split_ifs with hvalid
    · split
      · exact h.stored hvalid
      · exact (h.stored hvalid).gcLoop _ _
    · exact h
  | findLongestPrefix text =>
    cases hn
    exact h.findLongestPrefix text
  | remove text =>
    cases hn
    exact h.remove text
  | gcByWeightVersion currentWeightVersion =>
    cases currentWeightVersion with
    | none =>
      cases hn
      exact h
    | some weightVersion =>
      cases hn
      exact h.gcLoop _ _

end StringRadixTrie

/-! Versions along the paths -/

namespace TrieHistory

/-- Neither the version of the node nor that of its tokens is later. -/
def AtMost (stamps : StringTreeNode → Option Int) (w : Int) (node : StringTreeNode) : Prop :=
  (∀ v ∈ node.weightVersion, v ≤ w) ∧ ∀ v ∈ stamps node, v ≤ w

/-- No node is older than its tokens, or than what is below it. -/
def Ordered (stamps : StringTreeNode → Option Int) : Forest StringTreeNode → Prop
  | .nil => True
  | .node node children rest =>
    (∀ w ∈ node.weightVersion, ∀ b ∈ node :: children.nodes, AtMost stamps w b) ∧
      Ordered stamps children ∧ Ordered stamps rest

section Ordered

variable {stamps stamps' : StringTreeNode → Option Int} {f g : Forest StringTreeNode}
  {node : StringTreeNode} {children : Forest StringTreeNode} {w threshold : Int}

theorem AtMost.congr (h : AtMost stamps w node) (hsame : stamps' node = stamps node) :
    AtMost stamps' w node := by
  refine ⟨h.1, ?_⟩
  rw [hsame]
  exact h.2

theorem Ordered.congr (h : Ordered stamps f) (hsame : ∀ b ∈ f.nodes, stamps' b = stamps b) :
    Ordered stamps' f := by
  induction f with
  | nil => trivial
  | node node children rest ihc ihr =>
    obtain ⟨hnode, hchildren, hrest⟩ := h
    have hmem : ∀ b ∈ node :: children.nodes, b ∈ (Forest.node node children rest).nodes := by
      intro b hb
      rw [Forest.nodes]
      exact List.mem_append_left rest.nodes hb
    refine ⟨?_, ihc hchildren ?_, ihr hrest ?_⟩
    · intro w hw b hb
      exact (hnode w hw b hb).congr (hsame b (hmem b hb))
    · intro b hb
      exact hsame b (hmem b (List.mem_cons_of_mem node hb))
    · intro b hb
      refine hsame b ?_
      rw [Forest.nodes]
      exact List.mem_cons_of_mem node (List.mem_append_right _ hb)

theorem Ordered.remove (h : Ordered stamps f) (p : StringTreeNode → Bool) :
    Ordered stamps (f.remove p) := by
  induction f with
  | nil => trivial
  | node node children rest ihc ihr =>
    obtain ⟨hnode, hchildren, hrest⟩ := h
    rw [Forest.remove]
    split_ifs
    · exact hrest
    · refine ⟨?_, ihc hchildren, hrest⟩
      intro w hw b hb
      exact hnode w hw b (((Forest.nodes_remove_sublist children p).cons_cons node).subset hb)
    · exact ⟨hnode, hchildren, ihr hrest⟩

theorem Ordered.pruned (h : Ordered stamps f) (hpruned : f.Pruned g) : Ordered stamps g := by
  induction hpruned with
  | refl => exact h
  | remove _ p ih => exact ih.remove p

theorem Ordered.of_get? {i : Nat} (h : Ordered stamps f) (hget : f.get? i = some (node, children)) :
    (∀ w ∈ node.weightVersion, ∀ b ∈ node :: children.nodes, AtMost stamps w b) ∧
      Ordered stamps children := by
  induction f generalizing i with
  | nil => cases hget
  | node c below rest _ ih =>
    obtain ⟨hnode, hbelow, hrest⟩ := h
    cases i with
    | zero =>
      cases hget
      exact ⟨hnode, hbelow⟩
    | succ i => exact ih hrest hget

theorem Ordered.of_find? {p : StringTreeNode → Bool} (h : Ordered stamps f)
    (hfound : f.find? p = some (node, children)) :
    (∀ w ∈ node.weightVersion, ∀ b ∈ node :: children.nodes, AtMost stamps w b) ∧
      Ordered stamps children := by
  induction f with
  | nil => cases hfound
  | node c below rest ihc ihr =>
    obtain ⟨hnode, hbelow, hrest⟩ := h
    rw [Forest.find?] at hfound
    split_ifs at hfound
    · cases hfound
      exact ⟨hnode, hbelow⟩
    · rcases Option.or_eq_some_iff.mp hfound with hfound | ⟨-, hfound⟩
      · exact ihc hbelow hfound
      · exact ihr hrest hfound

theorem Ordered.push (h : Ordered stamps f)
    (hnode : ∀ w ∈ node.weightVersion, AtMost stamps w node) : Ordered stamps (f.push node) := by
  induction f with
  | nil =>
    refine ⟨?_, trivial, trivial⟩
    intro w hw b hb
    rw [List.mem_singleton.mp hb]
    exact hnode w hw
  | node c below rest _ ih =>
    obtain ⟨hc, hbelow, hrest⟩ := h
    exact ⟨hc, hbelow, ih hrest⟩

theorem Ordered.set (h : Ordered stamps f) (i : Nat) (hchildren : Ordered stamps children)
    (hnode : ∀ w ∈ node.weightVersion, ∀ b ∈ node :: children.nodes, AtMost stamps w b) :
    Ordered stamps (f.set i node children) := by
  induction f generalizing i with
  | nil => trivial
  | node c below rest _ ih =>
    obtain ⟨hc, hbelow, hrest⟩ := h
    cases i with
    | zero => exact ⟨hnode, hchildren, hrest⟩
    | succ i => exact ⟨hc, hbelow, ih hrest i⟩

/-- The assertion holds below a node of an ordered forest. -/
theorem validateRecursive_of_ordered (h : Ordered stamps f) (parent : Option Int)
    (hparent : ∀ w ∈ parent, ∀ b ∈ f.nodes, AtMost stamps w b) :
    validateRecursive parent f = true := by
  induction f generalizing parent with
  | nil => rfl
  | node node children rest ihc ihr =>
    obtain ⟨hnode, hchildren, hrest⟩ := h
    have hmem : ∀ b ∈ children.nodes, b ∈ node :: children.nodes := fun b hb =>
      List.mem_cons_of_mem node hb
    have hfirst : isNotNewer parent node.weightVersion = true := by
      simp only [isNotNewer, Option.all_eq_true, decide_eq_true_eq]
      intro v hv w hw
      exact (hparent w hw node (by simp [Forest.nodes])).1 v hv
    have hbelow := ihc hchildren node.weightVersion fun w hw b hb => hnode w hw b (hmem b hb)
    have hbeside := ihr hrest parent fun w hw b hb =>
      hparent w hw b (by simp [Forest.nodes, hb])
    simp only [validateRecursive, hfirst, hbelow, hbeside, Bool.and_self]

theorem validate_of_ordered (h : Ordered stamps children)
    (hnode : ∀ w ∈ node.weightVersion, ∀ b ∈ node :: children.nodes, AtMost stamps w b) :
    validateSubtreeWeightVersions node children = true := by
  have hself : isNotNewer node.weightVersion node.weightVersion = true := by
    cases hv : node.weightVersion <;> simp [isNotNewer]
  have hbelow := validateRecursive_of_ordered h node.weightVersion fun w hw b hb =>
    hnode w hw b (List.mem_cons_of_mem node hb)
  rw [validateSubtreeWeightVersions, hself, hbelow]
  rfl

theorem mem_findOutdatedNodes {id : Nat} (h : id ∈ findOutdatedNodes threshold f) :
    ∃ b ∈ f.nodes, b.id = id ∧ ∃ w ∈ b.weightVersion, w ≤ threshold := by
  induction f with
  | nil => cases h
  | node node children rest ihc ihr =>
    rw [findOutdatedNodes, List.mem_append] at h
    rcases h with hfirst | hrest
    · split_ifs at hfirst with houtdated
      · rw [Bool.and_eq_true, Option.any_eq_true] at houtdated
        obtain ⟨⟨w, hw, hle⟩, -⟩ := houtdated
        refine ⟨node, by simp [Forest.nodes], (List.mem_singleton.mp hfirst).symm, w, hw, ?_⟩
        exact of_decide_eq_true hle
      · obtain ⟨b, hb, hold⟩ := ihc hfirst
        exact ⟨b, by simp [Forest.nodes, hb], hold⟩
    · obtain ⟨b, hb, hold⟩ := ihr hrest
      exact ⟨b, by simp [Forest.nodes, hb], hold⟩

/-- The collection of an ordered forest raises nothing, and keeps the tokens of later versions. -/
theorem gcLoop_of_ordered {t : StringRadixTrie} (h : Ordered stamps t.children)
    (nodesToRemove : List Nat) (removedCount : Nat)
    (hold : ∀ id ∈ nodesToRemove, ∀ b ∈ t.children.nodes, b.id = id →
      ∃ w ∈ b.weightVersion, w ≤ threshold) :
    (t.gcLoop nodesToRemove removedCount).2 ≠ none ∧
      ∀ b ∈ t.children.nodes, (∃ v ∈ stamps b, threshold < v) →
        b ∈ (t.gcLoop nodesToRemove removedCount).1.children.nodes := by
  induction nodesToRemove generalizing t removedCount with
  | nil => exact ⟨Option.some_ne_none _, fun b hb _ => hb⟩
  | cons id nodesToRemove ih =>
    obtain ⟨hfirst, hothers⟩ := List.forall_mem_cons.mp hold
    rw [StringRadixTrie.gcLoop]
    split
    · exact ih h removedCount hothers
    · rename_i node children hfound
      obtain ⟨hnode, hchildren⟩ := h.of_find? hfound
      obtain ⟨hid, before, after, hnodes, hremove⟩ := Forest.nodes_remove hfound
      obtain ⟨w, hw, hle⟩ := hfirst node (by simp [hnodes]) (of_decide_eq_true hid)
      have hcleaned : (t.cleanNodeSubtree id).1.children = t.children.remove (·.id = id) := by
        unfold StringRadixTrie.cleanNodeSubtree
        rw [hfound]
      rw [if_pos (validate_of_ordered hchildren hnode)]
      dsimp only
      obtain ⟨hdone, hkept⟩ := ih (hcleaned ▸ h.remove _)
        (removedCount + (t.cleanNodeSubtree id).2) (by
          intro id' hid' b hb
          rw [hcleaned] at hb
          exact hothers id' hid' b ((Forest.nodes_remove_sublist _ _).subset hb))
      refine ⟨hdone, ?_⟩
      intro b hb hlate
      refine hkept b ?_ hlate
      rw [hcleaned, hremove]
      rw [hnodes, List.mem_append, List.mem_append] at hb
      rcases hb with hb | hb | hb
      · exact List.mem_append_left _ hb
      · obtain ⟨v, hv, hlt⟩ := hlate
        have hearly := (hnode w hw b hb).2 v hv
        omega
      · exact List.mem_append_right _ hb

end Ordered

/-! Versions after an insertion -/

section Insertion

variable {stamps stamps' : StringTreeNode → Option Int} {f : Forest StringTreeNode}
  {id : Nat} {weightVersion : Option Int}

/-- The stamps after an insertion: those of the old nodes are as they were, and tokens that are
stored have the version of the insertion. -/
structure Restamps (stamps stamps' : StringTreeNode → Option Int) (id : Nat)
    (weightVersion : Option Int) (nodes : List StringTreeNode) : Prop where
  kept : ∀ b ∈ nodes, stamps' b = stamps b
  created : ∀ rest : Remaining, ∀ v ∈ stamps' (rest.newNode id weightVersion), weightVersion = some v
  filled : ∀ b ∈ nodes, b.hasValue = false → ∀ rest : Remaining, ∀ v ∈ stamps' (b.store rest),
    weightVersion = some v

theorem Restamps.mono {nodes nodes' : List StringTreeNode}
    (h : Restamps stamps stamps' id weightVersion nodes) (hsub : nodes' ⊆ nodes) :
    Restamps stamps stamps' id weightVersion nodes' :=
  ⟨fun b hb => h.kept b (hsub hb), h.created, fun b hb => h.filled b (hsub hb)⟩

theorem weightVersion_newNode (remaining : Remaining) (id : Nat) (weightVersion : Option Int) :
    (remaining.newNode id weightVersion).weightVersion = weightVersion := by
  unfold Remaining.newNode
  dsimp only
  split_ifs <;> rfl

theorem weightVersion_insertLoop (id : Nat) (weightVersion : Option Int) (fuel : Nat)
    (node : StringTreeNode) (f : Forest StringTreeNode) (remaining : Remaining) :
    (insertLoop id weightVersion fuel node f remaining).node.weightVersion = node.weightVersion := by
  have hend : (insertEnd node f remaining).node.weightVersion = node.weightVersion := by
    unfold insertEnd
    split_ifs <;> rfl
  cases fuel with
  | zero => exact hend
  | succ fuel =>
    rw [insertLoop]
    split_ifs
    · exact hend
    · split <;> rfl

theorem id_newNode (remaining : Remaining) (id : Nat) (weightVersion : Option Int) :
    (remaining.newNode id weightVersion).id = id := by
  unfold Remaining.newNode
  dsimp only
  split_ifs <;> rfl

theorem Restamps.atMost_newNode {nodes : List StringTreeNode} {w : Int}
    (h : Restamps stamps stamps' id weightVersion nodes) (hw : ∀ v ∈ weightVersion, v ≤ w)
    (rest : Remaining) : AtMost stamps' w (rest.newNode id weightVersion) := by
  constructor
  · rw [weightVersion_newNode]
    exact hw
  · intro v hv
    exact hw v (h.created rest v hv)

/-- An insertion that is no later leaves all below a version. -/
theorem atMost_insertLoop {w : Int} (fuel : Nat) (node : StringTreeNode) (remaining : Remaining)
    (hstamps : Restamps stamps stamps' id weightVersion (node :: f.nodes))
    (hw : ∀ v ∈ weightVersion, v ≤ w) (hbefore : ∀ b ∈ node :: f.nodes, AtMost stamps w b) :
    ∀ b ∈ (insertLoop id weightVersion fuel node f remaining).node ::
      (insertLoop id weightVersion fuel node f remaining).children.nodes, AtMost stamps' w b := by
  have hkept : ∀ b ∈ node :: f.nodes, AtMost stamps' w b := fun b hb =>
    (hbefore b hb).congr (hstamps.kept b hb)
  rcases effect_insertLoop id weightVersion fuel node f remaining with
    ⟨left, right, rest, -, -, hnodes, hafter, -, -⟩ |
    ⟨left, right, filled, rest, -, hvalue, -, hnodes, hafter, -, -⟩ | ⟨hafter, -, -⟩
  · intro b hb
    rw [hafter, List.mem_append, List.mem_cons] at hb
    rw [hnodes] at hkept
    rcases hb with hb | rfl | hb
    · exact hkept b (List.mem_append_left _ hb)
    · exact hstamps.atMost_newNode hw rest
    · exact hkept b (List.mem_append_right _ hb)
  · intro b hb
    have hfilled : filled ∈ node :: f.nodes := by simp [hnodes]
    have hversion := (hkept filled hfilled).1
    have hstored := hstamps.filled filled hfilled hvalue rest
    rw [hafter, List.mem_append, List.mem_cons] at hb
    rw [hnodes] at hkept
    rcases hb with hb | rfl | hb
    · exact hkept b (List.mem_append_left _ hb)
    · exact ⟨hversion, fun v hv => hw v (hstored v hv)⟩
    · exact hkept b (List.mem_append_right _ (List.mem_cons_of_mem filled hb))
  · rw [hafter]
    exact hkept

/-- An insertion that passes no older node keeps the order. -/
theorem Ordered.insertLoop (h : Ordered stamps f) (fuel : Nat) (node : StringTreeNode)
    (remaining : Remaining) (hstamps : Restamps stamps stamps' id weightVersion f.nodes)
    (hpassed : ∀ v ∈ weightVersion, ∀ b ∈ traversedNodes fuel f remaining.text,
      ∀ w ∈ b.weightVersion, v ≤ w) :
    Ordered stamps' (insertLoop id weightVersion fuel node f remaining).children := by
  induction fuel generalizing f node remaining with
  | zero =>
    have hsame : (insertEnd node f remaining).children = f :=
      (stringKey_insertEnd node f remaining).2
    rw [Router.insertLoop, hsame]
    exact h.congr hstamps.kept
  | succ fuel ih =>
    rw [Router.insertLoop]
    rw [traversedNodes] at hpassed
    split_ifs with hnil
    · rw [(stringKey_insertEnd node f remaining).2]
      exact h.congr hstamps.kept
    · rw [if_neg hnil] at hpassed
      cases hbest : bestChild remaining.text 0 none f with
      | none =>
        refine (h.congr hstamps.kept).push ?_
        intro w hw
        rw [weightVersion_newNode] at hw
        refine hstamps.atMost_newNode ?_ remaining
        intro v hv
        rw [Option.some.inj (hv.symm.trans hw)]
      | some chosen =>
        obtain ⟨i, child, grandchildren⟩ := chosen
        obtain ⟨hget, -, -⟩ := get?_of_bestChild hbest
        obtain ⟨hnode, hbelow⟩ := h.of_get? hget
        have hsub : child :: grandchildren.nodes ⊆ f.nodes := by
          intro b hb
          exact Forest.mem_nodes_of_get? hget (List.mem_cons.mp hb)
        have htext : (remaining.skip child).text =
            remaining.text.drop child.stringKey.length := rfl
        rw [hbest] at hpassed
        dsimp only at hpassed ⊢
        refine (h.congr hstamps.kept).set i ?_ ?_
        · refine ih hbelow child (remaining.skip child)
            (hstamps.mono fun b hb => hsub (List.mem_cons_of_mem child hb)) ?_
          intro v hv b hb
          rw [htext] at hb
          exact hpassed v hv b (List.mem_cons_of_mem child hb)
        · intro w hw
          rw [weightVersion_insertLoop] at hw
          exact atMost_insertLoop fuel child (remaining.skip child) (hstamps.mono hsub)
            (fun v hv => hpassed v hv child List.mem_cons_self w hw) (hnode w hw)

/-- A text that leads to a node with tokens changes nothing. -/
theorem insertLoop_of_cached (id : Nat) (weightVersion : Option Int) (fuel : Nat)
    (node : StringTreeNode) (f : Forest StringTreeNode) (remaining : Remaining)
    (htext : (traversedNodes fuel f remaining.text).flatMap StringTreeNode.stringKey =
      remaining.text)
    (hvalue : ((traversedNodes fuel f remaining.text).getLast?.getD node).hasValue = true) :
    Router.insertLoop id weightVersion fuel node f remaining = ⟨node, f, 0, 0⟩ := by
  induction fuel generalizing node f remaining with
  | zero =>
    rw [Router.insertLoop, insertEnd, if_pos (.inl hvalue)]
  | succ fuel ih =>
    rw [Router.insertLoop]
    rw [traversedNodes] at htext hvalue
    split_ifs with hnil
    · rw [if_pos hnil] at hvalue
      rw [insertEnd, if_pos (.inl hvalue)]
    · rw [if_neg hnil] at htext hvalue
      cases hbest : bestChild remaining.text 0 none f with
      | none =>
        rw [hbest] at htext
        exact absurd htext.symm hnil
      | some chosen =>
        obtain ⟨i, child, grandchildren⟩ := chosen
        obtain ⟨hget, ⟨tail, htail⟩, -⟩ := get?_of_bestChild hbest
        have hskip : (remaining.skip child).text = tail := by
          rw [Remaining.skip, ← htail, List.drop_left]
        rw [hbest] at htext hvalue
        dsimp only at htext hvalue ⊢
        rw [← htail, List.drop_left] at htext hvalue
        rw [List.flatMap_cons, List.append_cancel_left_eq] at htext
        rw [List.getLast?_cons, Option.getD_some] at hvalue
        rw [ih child grandchildren (remaining.skip child) (by rw [hskip]; exact htext)
          (by rw [hskip]; exact hvalue)]
        dsimp only
        rw [Forest.set_get? hget]

end Insertion

/-! Runs -/

variable {l l' : TrieHistory} {args : InsertArgs} {a : TrieAction}

/-- The ids tell the nodes apart, only nodes with tokens are stamped, and no node is older than
what is below it. -/
structure Stamped (l : TrieHistory) : Prop where
  nodup : (l.trie.children.nodes.map (·.id)).Nodup
  below : ∀ b ∈ l.trie.children.nodes, b.id < l.trie.counter
  unused : ∀ id, l.trie.counter ≤ id → l.storedAt id = none
  empty : ∀ b ∈ l.trie.children.nodes, b.hasValue = false → l.storedAt b.id = none
  ordered : Ordered (stamp l.storedAt) l.trie.children

/-- The history when `insert` has stored the text. -/
def stored (l : TrieHistory) (args : InsertArgs) : TrieHistory :=
  ⟨l.trie.stored args, l.account (.insert args)⟩

theorem mem_valuedIds {t : StringRadixTrie} {id : Nat} :
    id ∈ t.valuedIds ↔ ∃ b ∈ t.children.nodes, b.hasValue = true ∧ b.id = id := by
  simp [StringRadixTrie.valuedIds, and_assoc]

theorem account_eq_or (l : TrieHistory) (args : InsertArgs) (id : Nat) :
    l.account (.insert args) id = args.weightVersion ∨
      l.account (.insert args) id = l.storedAt id := by
  simp only [account]
  split_ifs
  · exact .inl rfl
  · exact .inr rfl

theorem Stamped.shrinks (h : l.Stamped) {t : StringRadixTrie} (ht : l.trie.Shrinks t) :
    Stamped ⟨t, l.storedAt⟩ := by
  have hsub := ht.pruned.sublist
  refine ⟨h.nodup.sublist (hsub.map _), ?_, ?_, ?_, h.ordered.pruned ht.pruned⟩
  · intro b hb
    have hlt := h.below b (hsub.subset hb)
    rw [← ht.counter] at hlt
    exact hlt
  · intro id hid
    rw [ht.counter] at hid
    exact h.unused id hid
  · intro b hb
    exact h.empty b (hsub.subset hb)

/-- A node after a text is stored is an old one, the new one, or an old one that has been given
tokens. -/
theorem mem_nodes_stored {t : StringRadixTrie} {b : StringTreeNode} (hvalid : args.isValid = true)
    (hb : b ∈ (t.stored args).children.nodes) :
    b ∈ t.children.nodes ∨
      (∃ rest : Remaining, b = rest.newNode t.counter args.weightVersion ∧
        (t.stored args).counter = t.counter + 1) ∨
      ∃ filled ∈ t.children.nodes, ∃ rest, b = filled.store rest := by
  rcases t.stores_stored hvalid with
    ⟨left, right, rest, -, hbefore, hafter, -, -, hcounter⟩ |
    ⟨left, right, filled, rest, -, -, hbefore, hafter, -, -, -⟩ | ⟨hafter, -, -, -⟩
  · rw [hafter, List.mem_append, List.mem_cons] at hb
    rw [hbefore]
    rcases hb with hb | rfl | hb
    · exact .inl (List.mem_append_left right hb)
    · exact .inr (.inl ⟨rest, rfl, hcounter⟩)
    · exact .inl (List.mem_append_right left hb)
  · rw [hafter, List.mem_append, List.mem_cons] at hb
    rw [hbefore]
    rcases hb with hb | rfl | hb
    · exact .inl (List.mem_append_left _ hb)
    · exact .inr (.inr ⟨filled, List.mem_append_right left List.mem_cons_self, rest, rfl⟩)
    · exact .inl (List.mem_append_right left (List.mem_cons_of_mem filled hb))
  · rw [hafter] at hb
    exact .inl hb

theorem counter_le_stored {t : StringRadixTrie} (hvalid : args.isValid = true) :
    t.counter ≤ (t.stored args).counter := by
  rcases t.stores_stored hvalid with
    ⟨_, _, _, -, -, -, -, -, hcounter⟩ | ⟨_, _, _, _, -, -, -, -, -, -, hcounter⟩ |
    ⟨-, -, -, hcounter⟩
  · exact hcounter ▸ Nat.le_succ t.counter
  · exact hcounter.ge
  · exact hcounter.ge

theorem Stamped.below_stored (h : l.Stamped) (hvalid : args.isValid = true) :
    ∀ b ∈ (l.trie.stored args).children.nodes, b.id < (l.trie.stored args).counter := by
  intro b hb
  have hle : l.trie.counter ≤ (l.trie.stored args).counter := counter_le_stored hvalid
  rcases mem_nodes_stored hvalid hb with hold | ⟨rest, rfl, hcounter⟩ | ⟨filled, hfilled, rest, rfl⟩
  · exact (h.below b hold).trans_le hle
  · rw [id_newNode, hcounter]
    exact Nat.lt_succ_self l.trie.counter
  · exact (h.below filled hfilled).trans_le hle

/-- The ids still tell the nodes apart. -/
theorem Stamped.nodup_stored (h : l.Stamped) (hvalid : args.isValid = true) :
    ((l.trie.stored args).children.nodes.map (·.id)).Nodup := by
  have hnodup := h.nodup
  have hbelow := h.below
  rcases l.trie.stores_stored hvalid with
    ⟨left, right, rest, -, hbefore, hafter, -, -, -⟩ |
    ⟨left, right, filled, rest, -, -, hbefore, hafter, -, -, -⟩ | ⟨hafter, -, -, -⟩
  · have hid := id_newNode rest l.trie.counter args.weightVersion
    have hperm : (left ++ rest.newNode l.trie.counter args.weightVersion :: right).Perm
        (rest.newNode l.trie.counter args.weightVersion :: (left ++ right)) :=
      List.perm_middle
    rw [hbefore] at hnodup hbelow
    rw [hafter, (hperm.map _).nodup_iff, List.map_cons, List.nodup_cons, hid]
    refine ⟨?_, hnodup⟩
    intro hmem
    obtain ⟨b, hb, hsame⟩ := List.mem_map.mp hmem
    have hlt := hbelow b hb
    omega
  · have hid : (filled.store rest).id = filled.id := rfl
    rw [hbefore] at hnodup
    rw [hafter, List.map_append, List.map_cons, hid, ← List.map_cons, ← List.map_append]
    exact hnodup
  · rw [hafter]
    exact hnodup

/-- An insertion stamps no node that already has tokens, and the ones that it gives tokens to with
its version. -/
theorem Stamped.restamps (h : l.Stamped) (args : InsertArgs) :
    Restamps (stamp l.storedAt) (stamp (l.account (.insert args))) l.trie.counter
      args.weightVersion l.trie.children.nodes := by
  refine ⟨?_, ?_, ?_⟩
  · intro b hb
    unfold stamp
    split_ifs with hvalue
    · have hmem : b.id ∈ l.trie.valuedIds := mem_valuedIds.mpr ⟨b, hb, hvalue, rfl⟩
      simp only [account]
      rw [if_neg (fun hnew => hnew.2.2 hmem)]
    · rfl
  · intro rest v hv
    have hid := id_newNode rest l.trie.counter args.weightVersion
    unfold stamp at hv
    split_ifs at hv
    · rw [hid] at hv
      rcases l.account_eq_or args l.trie.counter with hversion | hsame
      · exact hversion.symm.trans hv
      · rw [hsame, h.unused _ le_rfl] at hv
        cases hv
    · cases hv
  · intro b hb hvalue rest v hv
    have hstamp : stamp (l.account (.insert args)) (b.store rest) =
        l.account (.insert args) b.id := rfl
    rw [hstamp] at hv
    rcases l.account_eq_or args b.id with hversion | hsame
    · exact hversion.symm.trans hv
    · rw [hsame, h.empty b hb hvalue] at hv
      cases hv

theorem Stamped.ordered_stored (h : l.Stamped) (hvalid : args.isValid = true)
    (hpasses : l.PassesNoOlder (.insert args)) :
    Ordered (stamp (l.account (.insert args))) (l.trie.stored args).children := by
  cases hcached : l.trie.isCached args.text with
  | true =>
    rw [StringRadixTrie.isCached, Bool.and_eq_true, decide_eq_true_eq] at hcached
    obtain ⟨htext, hlast⟩ := hcached
    have hvalue : ((l.trie.traversed args.text).getLast?.getD .root).hasValue = true := by
      rw [Option.any_eq_true] at hlast
      obtain ⟨b, hb, hvalue⟩ := hlast
      rw [StringRadixTrie.traversed] at hb
      rw [StringRadixTrie.traversed, hb]
      exact hvalue
    have hsame := insertLoop_of_cached l.trie.counter args.weightVersion args.text.length .root
      l.trie.children args.remaining htext hvalue
    have hchildren : (l.trie.stored args).children = l.trie.children :=
      congrArg Inserted.children hsame
    rw [hchildren]
    exact h.ordered.congr (h.restamps args).kept
  | false =>
    exact h.ordered.insertLoop args.text.length .root args.remaining (h.restamps args)
      (hpasses hvalid hcached)

theorem Stamped.stored (h : l.Stamped) (hvalid : args.isValid = true)
    (hpasses : l.PassesNoOlder (.insert args)) : (l.stored args).Stamped := by
  have hnodup := h.nodup_stored hvalid
  have hbelow := h.below_stored hvalid
  refine ⟨hnodup, hbelow, ?_, ?_, h.ordered_stored hvalid hpasses⟩
  · intro id hid
    simp only [TrieHistory.stored, account]
    rw [if_neg]
    · exact h.unused id ((counter_le_stored hvalid).trans hid)
    · rintro ⟨-, hmem, -⟩
      obtain ⟨b, hb, -, rfl⟩ := mem_valuedIds.mp hmem
      exact absurd (hbelow b hb) (Nat.not_lt.mpr hid)
  · intro b hb hvalue
    have hnot : b.id ∉ (l.trie.stored args).valuedIds := by
      intro hmem
      obtain ⟨c, hc, hc', hid⟩ := mem_valuedIds.mp hmem
      -- a node of the new trie is told by its id
      rw [List.inj_on_of_nodup_map hnodup hc hb hid, hvalue] at hc'
      cases hc'
    simp only [TrieHistory.stored, account]
    rw [if_neg fun hnew => hnot hnew.2.1]
    rcases mem_nodes_stored hvalid hb with hold | ⟨rest, rfl, -⟩ | ⟨filled, -, rest, rfl⟩
    · exact h.empty b hold hvalue
    · rw [id_newNode]
      exact h.unused l.trie.counter le_rfl
    · cases hvalue

theorem Stamped.next (h : l.Stamped) (hpasses : l.PassesNoOlder a) (hn : l.next a = some l') :
    l'.Stamped := by
  obtain ⟨t, ht, rfl⟩ := Option.map_eq_some_iff.mp hn
  rcases StringRadixTrie.shrinks_of_next ht with ⟨hshrinks, hinvalid⟩ | ⟨args, rfl, hvalid, hshrinks⟩
  · have hsame : l.account a = l.storedAt := by
      cases a with
      | insert args =>
        funext id
        simp only [account]
        rw [if_neg (by simp [hinvalid args rfl])]
      | findLongestPrefix text => rfl
      | remove text => rfl
      | gcByWeightVersion currentWeightVersion => rfl
    rw [hsame]
    exact h.shrinks hshrinks
  · exact (h.stored hvalid hpasses).shrinks hshrinks

theorem stamped_init (maxCacheSize gcThresholdK : Int) : (init maxCacheSize gcThresholdK).Stamped :=
  ⟨List.nodup_nil, fun _ hb => absurd hb List.not_mem_nil, fun _ _ => rfl,
    fun _ hb => absurd hb List.not_mem_nil, trivial⟩

/-- A collection under the order of the versions is safe. -/
theorem Stamped.collects (h : l.Stamped) (hk : 1 ≤ l.trie.gcThresholdK)
    (currentWeightVersion : Int) :
    (l.trie.gcByWeightVersion currentWeightVersion).2 ≠ none ∧
      ∀ node ∈ l.trie.children.nodes, stamp l.storedAt node = some currentWeightVersion →
        node ∈ (l.trie.gcByWeightVersion currentWeightVersion).1.children.nodes := by
  have houtdated : ∀ id ∈ findOutdatedNodes (currentWeightVersion - l.trie.gcThresholdK)
      l.trie.children, ∀ b ∈ l.trie.children.nodes, b.id = id →
      ∃ w ∈ b.weightVersion, w ≤ currentWeightVersion - l.trie.gcThresholdK := by
    intro id hid b hb hsame
    obtain ⟨c, hc, rfl, hold⟩ := mem_findOutdatedNodes hid
    rw [List.inj_on_of_nodup_map h.nodup hb hc hsame]
    exact hold
  obtain ⟨hdone, hkept⟩ := gcLoop_of_ordered h.ordered _ 0 houtdated
  refine ⟨hdone, ?_⟩
  intro node hnode hstamp
  exact hkept node hnode ⟨currentWeightVersion, hstamp, by omega⟩

theorem Stamped.collectsSafely (h : l.Stamped) (hk : 1 ≤ l.trie.gcThresholdK)
    (hpasses : l.PassesNoOlder a) : l.CollectsSafely a := by
  intro c hc
  cases a with
  | insert args =>
    obtain ⟨currentWeightVersion, hcollects, rfl⟩ := Option.map_eq_some_iff.mp hc
    have hvalid : args.isValid = true := by
      unfold StringRadixTrie.collectsAt at hcollects
      split_ifs at hcollects with hfull
      · exact hfull.1
    exact (h.stored hvalid hpasses).collects hk currentWeightVersion
  | findLongestPrefix text => cases hc
  | remove text => cases hc
  | gcByWeightVersion currentWeightVersion =>
    obtain ⟨weightVersion, -, rfl⟩ := Option.map_eq_some_iff.mp hc
    exact h.collects hk weightVersion

theorem gcThresholdK_next (h : l.next a = some l') :
    l'.trie.gcThresholdK = l.trie.gcThresholdK := by
  obtain ⟨t, ht, rfl⟩ := Option.map_eq_some_iff.mp h
  rcases StringRadixTrie.shrinks_of_next ht with ⟨hshrinks, -⟩ | ⟨args, -, -, hshrinks⟩
  · exact hshrinks.gcThresholdK
  · exact hshrinks.gcThresholdK

end TrieHistory

namespace StringRadixTrie

/-- The counters are those of the tree in every run; and in a run whose insertions pass no older
node, every collection is safe. -/
theorem accounted_and_collectsSafely (maxCacheSize gcThresholdK : Int) (run : List TrieAction) :
    Along next Accounted (init maxCacheSize gcThresholdK) run ∧
      (1 ≤ gcThresholdK →
        Meets TrieHistory.next TrieHistory.PassesNoOlder (.init maxCacheSize gcThresholdK) run →
          Meets TrieHistory.next TrieHistory.CollectsSafely (.init maxCacheSize gcThresholdK)
            run) := by
  constructor
  · have hinit : (init maxCacheSize gcThresholdK).Accounted := ⟨rfl, rfl⟩
    exact along_of_meets (fun t a t' h _ hn => h.next hn) hinit
      (meets_of_forall (fun _ _ => trivial) _ run)
  · intro hk hpasses
    refine Meets.of_invariant (I := fun l => l.Stamped ∧ l.trie.gcThresholdK = gcThresholdK)
      ?_ ?_ ⟨TrieHistory.stamped_init maxCacheSize gcThresholdK, rfl⟩ hpasses
    · rintro l a l' ⟨h, hthreshold⟩ hpasses hn
      exact ⟨h.next hpasses hn, (TrieHistory.gcThresholdK_next hn).trans hthreshold⟩
    · rintro l a ⟨h, hthreshold⟩ hpasses
      exact h.collectsSafely (hthreshold.symm ▸ hk) hpasses

/-- An old text is collected when another one overflows the cache. -/
theorem accounted_and_collectsSafely_apart :
    Meets TrieHistory.next TrieHistory.CollectsSafely (.init 1 5)
      [.insert ⟨['a'], [1], none, none, some 1⟩, .insert ⟨['b'], [2], none, none, some 7⟩] := by
  have hpasses : Meets TrieHistory.next TrieHistory.PassesNoOlder (.init 1 5)
      [.insert ⟨['a'], [1], none, none, some 1⟩, .insert ⟨['b'], [2], none, none, some 7⟩] := by
    refine (meets_cons_some rfl).mpr ⟨?_, (meets_cons_some rfl).mpr ⟨?_, trivial⟩⟩
    · intro _ _ v _ node hnode
      cases hnode
    · intro _ _ v _ node hnode
      cases hnode
  exact (accounted_and_collectsSafely 1 5 _).2 (by decide) hpasses

/-- The version that a call gives. -/
def weightVersion? : TrieAction → Option Int
  | .insert args => args.weightVersion
  | .gcByWeightVersion currentWeightVersion => currentWeightVersion
  | .findLongestPrefix _ | .remove _ => none

/-- An old text is extended under a newer version, and the cache overflows. -/
def extendedText : List TrieAction :=
  [.insert ⟨['a'], [1], none, none, some 1⟩, .insert ⟨['a', 'b'], [1, 2], none, none, some 7⟩]

/-- The versions do not decrease, and yet the insertion raises. -/
theorem accounted_and_collectsSafely_fails :
    (extendedText.filterMap weightVersion?).Pairwise (· ≤ ·) ∧
      ¬Meets TrieHistory.next TrieHistory.CollectsSafely (.init 1 5) extendedText := by
  constructor
  · decide
  · intro h
    have hsecond := ((meets_cons_some rfl).mp ((meets_cons_some rfl).mp h).2).1
    exact (hsecond _ rfl).1 rfl

end StringRadixTrie

end Belayer.Router
