import Belayer.Framework.Forest
import Mathlib.Algebra.Order.Field.Rat

namespace Belayer.Router

open Belayer.Framework

/-- `StringTreeNode`, without its children. -/
structure StringTreeNode where
  id : Nat
  stringKey : List Char
  tokenIds : Option (List Int)
  logp : Option (List ℚ)
  lossMask : Option (List Int)
  weightVersion : Option Int
  deriving DecidableEq

/-- A match; without a last node it ends at the root. -/
structure MatchResult where
  matchedPrefix : List Char
  tokenIds : List Int
  logp : List ℚ
  lossMask : List Int
  remainingString : List Char
  lastNode : Option Nat

/-- What `_insert` has left of the text and its tokens. -/
structure Remaining where
  text : List Char
  tokens : List Int
  logp : List ℚ
  lossMask : List Int

/-- The trie below its root; the next node takes `counter` as its id. -/
structure StringRadixTrie where
  maxCacheSize : Int
  gcThresholdK : Int
  children : Forest StringTreeNode
  totalEntries : Int
  cacheHits : Nat
  cacheMisses : Nat
  curCacheSize : Int
  counter : Nat

/-- A node and its children after an insertion, with the number of new nodes and of stored
tokens. -/
structure Inserted where
  node : StringTreeNode
  children : Forest StringTreeNode
  entries : Nat
  cached : Nat

namespace StringTreeNode

/-- The root, whose data stays empty. -/
def root : StringTreeNode := ⟨0, [], none, none, none, none⟩

def hasValue (node : StringTreeNode) : Bool := node.tokenIds.isSome

/-- The tokens that a node covers. -/
def tokens (node : StringTreeNode) : List Int := node.tokenIds.getD []

/-- The node is given what is left of the tokens. -/
def store (node : StringTreeNode) (remaining : Remaining) : StringTreeNode :=
  { node with
    tokenIds := some remaining.tokens
    logp := some remaining.logp
    lossMask := some remaining.lossMask }

end StringTreeNode

/-- The loop over the children: the one with the longest key that the text begins with, and its
place. -/
def bestChild (text : List Char) :
    Nat → Option (Nat × StringTreeNode × Forest StringTreeNode) → Forest StringTreeNode →
      Option (Nat × StringTreeNode × Forest StringTreeNode)
  | _, best, .nil => best
  | i, best, .node child children rest =>
    let bestKeyLen := (best.map (·.2.1.stringKey.length)).getD 0
    bestChild text (i + 1)
      (if child.stringKey.isPrefixOf text && bestKeyLen < child.stringKey.length then
        some (i, child, children)
      else best) rest

/-- The match goes on to a child. -/
def MatchResult.extend (result : MatchResult) (child : StringTreeNode) : MatchResult :=
  let result : MatchResult :=
    { result with
      matchedPrefix := result.matchedPrefix ++ child.stringKey
      remainingString := result.remainingString.drop child.stringKey.length
      lastNode := some child.id }
  if child.hasValue then
    { result with
      tokenIds := result.tokenIds ++ child.tokens
      logp := result.logp ++ child.logp.getD []
      lossMask := result.lossMask ++ child.lossMask.getD (List.replicate child.tokens.length 1) }
  else result

/-- The loop of `find_longest_prefix`, with the number of hits; every round takes a letter at
least. -/
def findLoop : Nat → Forest StringTreeNode → MatchResult → Nat → MatchResult × Nat
  | 0, _, result, hits => (result, hits)
  | fuel + 1, children, result, hits =>
    if result.remainingString = [] then (result, hits)
    else
      match bestChild result.remainingString 0 none children with
      | none => (result, hits)
      | some (_, child, grandchildren) =>
        findLoop fuel grandchildren (result.extend child)
          (if child.hasValue then hits + 1 else hits)

/-- The text and the tokens of a node are skipped. -/
def Remaining.skip (remaining : Remaining) (child : StringTreeNode) : Remaining :=
  let tokensToSkip := child.tokens.length
  ⟨remaining.text.drop child.stringKey.length, remaining.tokens.drop tokensToSkip,
    remaining.logp.drop tokensToSkip, remaining.lossMask.drop tokensToSkip⟩

/-- A node for what is left. -/
def Remaining.newNode (remaining : Remaining) (id : Nat) (weightVersion : Option Int) :
    StringTreeNode :=
  let newNode : StringTreeNode := ⟨id, remaining.text, none, none, none, weightVersion⟩
  if remaining.tokens = [] then newNode else newNode.store remaining

/-- The end of `_insert`, when no text is left: the tokens go to a node that has none. -/
def insertEnd (node : StringTreeNode) (children : Forest StringTreeNode) (remaining : Remaining) :
    Inserted :=
  if node.hasValue ∨ remaining.tokens = [] then ⟨node, children, 0, 0⟩
  else ⟨node.store remaining, children, 0, remaining.tokens.length⟩

/-- The loop of `_insert`, at a node. -/
def insertLoop (id : Nat) (weightVersion : Option Int) :
    Nat → StringTreeNode → Forest StringTreeNode → Remaining → Inserted
  | 0, node, children, remaining => insertEnd node children remaining
  | fuel + 1, node, children, remaining =>
    if remaining.text = [] then insertEnd node children remaining
    else
      match bestChild remaining.text 0 none children with
      | some (i, child, grandchildren) =>
        let inserted := insertLoop id weightVersion fuel child grandchildren (remaining.skip child)
        { inserted with
          node := node
          children := children.set i inserted.node inserted.children }
      | none =>
        ⟨node, children.push (remaining.newNode id weightVersion), 1, remaining.tokens.length⟩

/-- The nodes on the way of an insertion, without the root. -/
def traversedNodes : Nat → Forest StringTreeNode → List Char → List StringTreeNode
  | 0, _, _ => []
  | fuel + 1, children, text =>
    if text = [] then []
    else
      match bestChild text 0 none children with
      | none => []
      | some (_, child, grandchildren) =>
        child :: traversedNodes fuel grandchildren (text.drop child.stringKey.length)

/-- `_find_outdated_nodes`, below the root. -/
def findOutdatedNodes (gcThreshold : Int) : Forest StringTreeNode → List Nat
  | .nil => []
  | .node node children rest =>
    (if node.weightVersion.any (· ≤ gcThreshold) && node.hasValue then [node.id]
      else findOutdatedNodes gcThreshold children) ++ findOutdatedNodes gcThreshold rest

/-- Whether the assertion holds of a node, where both it and its parent have a version. -/
def isNotNewer (parentWeightVersion weightVersion : Option Int) : Bool :=
  weightVersion.all fun v => parentWeightVersion.all (v ≤ ·)

/-- `validate_recursive`, for the children of a node; `false` is an assertion that fails. -/
def validateRecursive (parentWeightVersion : Option Int) : Forest StringTreeNode → Bool
  | .nil => true
  | .node node children rest =>
    isNotNewer parentWeightVersion node.weightVersion &&
      validateRecursive node.weightVersion children && validateRecursive parentWeightVersion rest

/-- `_validate_subtree_weight_versions`. -/
def validateSubtreeWeightVersions (node : StringTreeNode) (children : Forest StringTreeNode) :
    Bool :=
  isNotNewer node.weightVersion node.weightVersion && validateRecursive node.weightVersion children

namespace StringRadixTrie

def init (maxCacheSize gcThresholdK : Int) : StringRadixTrie :=
  ⟨maxCacheSize, gcThresholdK, .nil, 0, 0, 0, 0, 1⟩

/-- `find_longest_prefix`. -/
def findLongestPrefix (s : StringRadixTrie) (text : List Char) : StringRadixTrie × MatchResult :=
  if text = [] then (s, ⟨[], [], [], [], text, none⟩)
  else
    let (result, hits) := findLoop text.length s.children ⟨[], [], [], [], text, none⟩ 0
    ({ s with
        cacheHits := s.cacheHits + hits
        cacheMisses := if result.tokenIds = [] then s.cacheMisses + 1 else s.cacheMisses }, result)

/-- The tree and the counters after an insertion. -/
def put (s : StringRadixTrie) (inserted : Inserted) : StringRadixTrie :=
  { s with
    children := inserted.children
    totalEntries := s.totalEntries + inserted.entries
    curCacheSize := s.curCacheSize + inserted.cached
    counter := s.counter + inserted.entries }

/-- `_insert`. -/
def insertTokens (s : StringRadixTrie) (text : List Char) (tokenIds : List Int) (logp : List ℚ)
    (lossMask : List Int) (weightVersion : Option Int) : StringRadixTrie :=
  s.put (insertLoop s.counter weightVersion text.length .root s.children
    ⟨text, tokenIds, logp, lossMask⟩)

/-- The removal of all of some trees, as the counters see it; with the number of nodes that had
tokens. -/
def removeAll (s : StringRadixTrie) : Forest StringTreeNode → StringRadixTrie × Nat
  | .nil => (s, 0)
  | .node node children rest =>
    let (s, below) := s.removeAll children
    let (s, beside) := removeAll
      { s with
        curCacheSize :=
          if node.hasValue then s.curCacheSize - node.tokens.length else s.curCacheSize
        totalEntries := s.totalEntries - 1 } rest
    (s, (if node.hasValue then below + 1 else below) + beside)

/-- `_clean_node_subtree` of a node that is not the root. -/
def cleanNodeSubtree (s : StringRadixTrie) (id : Nat) : StringRadixTrie × Nat :=
  match s.children.find? (·.id = id) with
  | none => (s, 0)
  | some (node, children) =>
    let (removed, removedCount) := s.removeAll (.node node children .nil)
    ({ removed with children := s.children.remove (·.id = id) }, removedCount)

/-- `remove`. -/
def remove (s : StringRadixTrie) (text : List Char) : StringRadixTrie × Bool :=
  let (s, result) := s.findLongestPrefix text
  match if result.matchedPrefix = text then result.lastNode else none with
  | none => (s, false)
  | some id =>
    let (s, removedCount) := s.cleanNodeSubtree id
    (s, 0 < removedCount)

/-- The loop of `gc_by_weight_version`; without a count, the assertion has failed. -/
def gcLoop (s : StringRadixTrie) : List Nat → Nat → StringRadixTrie × Option Nat
  | [], removedCount => (s, some removedCount)
  | id :: nodesToRemove, removedCount =>
    match s.children.find? (·.id = id) with
    | none => s.gcLoop nodesToRemove removedCount
    | some (node, children) =>
      if validateSubtreeWeightVersions node children then
        let (cleaned, removed) := s.cleanNodeSubtree id
        cleaned.gcLoop nodesToRemove (removedCount + removed)
      else (s, none)

/-- `gc_by_weight_version`, with a version. -/
def gcByWeightVersion (s : StringRadixTrie) (currentWeightVersion : Int) :
    StringRadixTrie × Option Nat :=
  s.gcLoop (findOutdatedNodes (currentWeightVersion - s.gcThresholdK) s.children) 0

end StringRadixTrie

/-- What `insert` is called with. -/
structure InsertArgs where
  text : List Char
  tokenIds : List Int
  logp : Option (List ℚ)
  lossMask : Option (List Int)
  weightVersion : Option Int

/-- The checks of `insert`. -/
def InsertArgs.isValid (args : InsertArgs) : Bool :=
  args.text ≠ [] && args.tokenIds ≠ [] &&
    args.logp.all (·.length = args.tokenIds.length) &&
      args.lossMask.all (·.length = args.tokenIds.length)

namespace StringRadixTrie

/-- The trie when `insert` has stored the text, with the default values. -/
def stored (s : StringRadixTrie) (args : InsertArgs) : StringRadixTrie :=
  s.insertTokens args.text args.tokenIds
    (args.logp.getD (List.replicate args.tokenIds.length 0))
    (args.lossMask.getD (List.replicate args.tokenIds.length 0)) args.weightVersion

/-- The version that `insert` collects with, if it has to. -/
def collectsAt (s : StringRadixTrie) (args : InsertArgs) : Option Int :=
  if args.isValid ∧ s.maxCacheSize < (s.stored args).curCacheSize then args.weightVersion else none

/-- `insert`; without an answer, the collection has raised. -/
def insert (s : StringRadixTrie) (args : InsertArgs) : StringRadixTrie × Option Bool :=
  if args.isValid then
    match s.collectsAt args with
    | none => (s.stored args, some true)
    | some weightVersion =>
      let (collected, removedCount) := (s.stored args).gcByWeightVersion weightVersion
      (collected, removedCount.map fun _ => true)
  else (s, some false)

end StringRadixTrie

/-- A call of the trie. -/
inductive TrieAction
  | insert (args : InsertArgs)
  | findLongestPrefix (text : List Char)
  | remove (text : List Char)
  | gcByWeightVersion (currentWeightVersion : Option Int)

/-- The trie after a call; it stays as it is when an assertion fails. -/
def StringRadixTrie.next (s : StringRadixTrie) : TrieAction → Option StringRadixTrie
  | .insert args => some (s.insert args).1
  | .findLongestPrefix text => some (s.findLongestPrefix text).1
  | .remove text => some (s.remove text).1
  | .gcByWeightVersion none => some s
  | .gcByWeightVersion (some weightVersion) => some (s.gcByWeightVersion weightVersion).1

/-! What an insertion does with the nodes -/

section Insertion

open Belayer.Framework.Forest (nodes_push nodes_set)

variable {f : Forest StringTreeNode} {text : List Char} {i : Nat}
  {best : Option (Nat × StringTreeNode × Forest StringTreeNode)}
  {chosen : Nat × StringTreeNode × Forest StringTreeNode}

/-- The chosen child is one of the children, and the text begins with its key. -/
theorem mem_of_bestChild (h : bestChild text i best f = some chosen) :
    best = some chosen ∨ ∃ j, chosen.1 = i + j ∧ f.get? j = some chosen.2 ∧
      chosen.2.1.stringKey <+: text ∧ chosen.2.1.stringKey ≠ [] := by
  induction f generalizing i best with
  | nil => exact .inl h
  | node child children rest _ ih =>
    rcases ih h with hbest | ⟨j, hplace, hget, hkey⟩
    · split_ifs at hbest with hbetter
      · cases hbest
        rw [Bool.and_eq_true, List.isPrefixOf_iff_prefix, decide_eq_true_eq] at hbetter
        obtain ⟨hstarts, hlength⟩ := hbetter
        refine .inr ⟨0, rfl, rfl, hstarts, ?_⟩
        exact List.ne_nil_of_length_pos ((Nat.zero_le _).trans_lt hlength)
      · exact .inl hbest
    · exact .inr ⟨j + 1, by omega, hget, hkey⟩

theorem get?_of_bestChild {child : StringTreeNode} {grandchildren : Forest StringTreeNode}
    (h : bestChild text 0 none f = some (i, child, grandchildren)) :
    f.get? i = some (child, grandchildren) ∧ child.stringKey <+: text ∧ child.stringKey ≠ [] := by
  rcases mem_of_bestChild h with hnone | ⟨j, hplace, hget, hkey⟩
  · cases hnone
  · rw [Nat.zero_add] at hplace
    subst hplace
    exact ⟨hget, hkey⟩

/-- The tokens, log-probabilities and mask are those at the end, from one place on. -/
def Remaining.EndsWith (remaining rest : Remaining) : Prop :=
  ∃ n, rest.tokens = remaining.tokens.drop n ∧ rest.logp = remaining.logp.drop n ∧
    rest.lossMask = remaining.lossMask.drop n

/-- What has become of the nodes: there is a new one, one has been given tokens, or they are as they
were. -/
inductive Inserted.Effect (inserted : Inserted) (id : Nat) (weightVersion : Option Int)
    (remaining : Remaining) (before : List StringTreeNode) : Prop
  | created (left right : List StringTreeNode) (rest : Remaining)
      (hrest : remaining.EndsWith rest) (htext : rest.text ≠ []) (hbefore : before = left ++ right)
      (hafter : inserted.node :: inserted.children.nodes =
        left ++ rest.newNode id weightVersion :: right)
      (hentries : inserted.entries = 1) (hcached : inserted.cached = rest.tokens.length)
  | filled (left right : List StringTreeNode) (node : StringTreeNode) (rest : Remaining)
      (hrest : remaining.EndsWith rest) (hvalue : node.hasValue = false)
      (htokens : rest.tokens ≠ []) (hbefore : before = left ++ node :: right)
      (hafter : inserted.node :: inserted.children.nodes = left ++ node.store rest :: right)
      (hentries : inserted.entries = 0) (hcached : inserted.cached = rest.tokens.length)
  | unchanged (hafter : inserted.node :: inserted.children.nodes = before)
      (hentries : inserted.entries = 0) (hcached : inserted.cached = 0)

theorem Remaining.endsWith_refl (remaining : Remaining) : remaining.EndsWith remaining :=
  ⟨0, rfl, rfl, rfl⟩

theorem Remaining.EndsWith.of_skip {remaining rest : Remaining} {child : StringTreeNode}
    (h : (remaining.skip child).EndsWith rest) : remaining.EndsWith rest := by
  obtain ⟨n, htokens, hlogp, hmask⟩ := h
  refine ⟨child.tokens.length + n, ?_, ?_, ?_⟩
  · rw [htokens, Remaining.skip, List.drop_drop]
  · rw [hlogp, Remaining.skip, List.drop_drop]
  · rw [hmask, Remaining.skip, List.drop_drop]

theorem effect_insertEnd (id : Nat) (weightVersion : Option Int) (node : StringTreeNode)
    (f : Forest StringTreeNode) (remaining : Remaining) :
    (insertEnd node f remaining).Effect id weightVersion remaining (node :: f.nodes) := by
  unfold insertEnd
  split_ifs with h
  · exact .unchanged rfl rfl rfl
  · rw [not_or, Bool.not_eq_true] at h
    exact .filled [] f.nodes node remaining remaining.endsWith_refl h.1 h.2 rfl rfl rfl rfl

theorem effect_insertLoop (id : Nat) (weightVersion : Option Int) (fuel : Nat)
    (node : StringTreeNode) (f : Forest StringTreeNode) (remaining : Remaining) :
    (insertLoop id weightVersion fuel node f remaining).Effect id weightVersion remaining
      (node :: f.nodes) := by
  induction fuel generalizing node f remaining with
  | zero => exact effect_insertEnd id weightVersion node f remaining
  | succ fuel ih =>
    rw [insertLoop]
    split_ifs with hnil
    · exact effect_insertEnd id weightVersion node f remaining
    · cases hbest : bestChild remaining.text 0 none f with
      | none =>
        refine .created (node :: f.nodes) [] remaining remaining.endsWith_refl hnil ?_ ?_ rfl rfl
        · rw [List.append_nil]
        · exact congrArg (node :: ·) (nodes_push _ f)
      | some chosen =>
        obtain ⟨i, child, grandchildren⟩ := chosen
        obtain ⟨hget, -, -⟩ := get?_of_bestChild hbest
        obtain ⟨before, after, hnodes, hset⟩ := nodes_set hget
        dsimp only
        -- what happens below the child happens between the other nodes
        rcases ih child grandchildren (remaining.skip child) with
          ⟨left, right, rest, hrest, htext, hbefore, hafter, hentries, hcached⟩ |
          ⟨left, right, filled, rest, hrest, hvalue, htokens, hbefore, hafter, hentries, hcached⟩ |
          ⟨hafter, hentries, hcached⟩
        · refine .created (node :: (before ++ left)) (right ++ after) rest hrest.of_skip htext ?_ ?_
            hentries hcached
          · rw [hnodes, hbefore]
            simp
          · simp only [hset, hafter]
            simp
        · refine .filled (node :: (before ++ left)) (right ++ after) filled rest hrest.of_skip hvalue
            htokens ?_ ?_ hentries hcached
          · rw [hnodes, hbefore]
            simp
          · simp only [hset, hafter]
            simp
        · refine .unchanged ?_ hentries hcached
          simp only [hset, hafter]
          rw [hnodes]

theorem node_insertLoop (id : Nat) (weightVersion : Option Int) {fuel : Nat}
    (node : StringTreeNode) (f : Forest StringTreeNode) {remaining : Remaining}
    (hne : remaining.text ≠ []) (hfuel : remaining.text.length ≤ fuel) :
    (insertLoop id weightVersion fuel node f remaining).node = node := by
  cases fuel with
  | zero => exact absurd (List.length_eq_zero_iff.mp (Nat.le_zero.mp hfuel)) hne
  | succ fuel =>
    rw [insertLoop, if_neg hne]
    split <;> rfl

theorem stringKey_newNode (remaining : Remaining) (id : Nat) (weightVersion : Option Int) :
    (remaining.newNode id weightVersion).stringKey = remaining.text := by
  unfold Remaining.newNode
  dsimp only
  split_ifs <;> rfl

theorem InsertArgs.ne_nil {args : InsertArgs} (h : args.isValid = true) :
    args.text ≠ [] ∧ args.tokenIds ≠ [] := by
  simp only [InsertArgs.isValid, Bool.and_eq_true, decide_eq_true_eq] at h
  exact ⟨h.1.1.1, h.1.1.2⟩

/-- What `insert` hands to `_insert`. -/
def InsertArgs.remaining (args : InsertArgs) : Remaining :=
  ⟨args.text, args.tokenIds, args.logp.getD (List.replicate args.tokenIds.length 0),
    args.lossMask.getD (List.replicate args.tokenIds.length 0)⟩

/-- What a text that is stored does to the nodes and the counters. -/
inductive StringRadixTrie.Stores (t t' : StringRadixTrie) (args : InsertArgs) : Prop
  | created (left right : List StringTreeNode) (rest : Remaining)
      (hrest : args.remaining.EndsWith rest) (hbefore : t.children.nodes = left ++ right)
      (hafter : t'.children.nodes =
        left ++ rest.newNode t.counter args.weightVersion :: right)
      (htotal : t'.totalEntries = t.totalEntries + 1)
      (hcached : t'.curCacheSize = t.curCacheSize + rest.tokens.length)
      (hcounter : t'.counter = t.counter + 1)
  | filled (left right : List StringTreeNode) (node : StringTreeNode) (rest : Remaining)
      (hrest : args.remaining.EndsWith rest) (hvalue : node.hasValue = false)
      (hbefore : t.children.nodes = left ++ node :: right)
      (hafter : t'.children.nodes = left ++ node.store rest :: right)
      (htotal : t'.totalEntries = t.totalEntries)
      (hcached : t'.curCacheSize = t.curCacheSize + rest.tokens.length)
      (hcounter : t'.counter = t.counter)
  | unchanged (hafter : t'.children.nodes = t.children.nodes)
      (htotal : t'.totalEntries = t.totalEntries) (hcached : t'.curCacheSize = t.curCacheSize)
      (hcounter : t'.counter = t.counter)

theorem StringRadixTrie.stores_stored (t : StringRadixTrie) {args : InsertArgs}
    (hvalid : args.isValid = true) : t.Stores (t.stored args) args := by
  have hroot : (insertLoop t.counter args.weightVersion args.text.length .root t.children
      args.remaining).node = .root :=
    node_insertLoop t.counter args.weightVersion .root t.children (InsertArgs.ne_nil hvalid).1 le_rfl
  have heffect := effect_insertLoop t.counter args.weightVersion args.text.length .root t.children
    args.remaining
  have hstored : t.stored args = t.put (insertLoop t.counter args.weightVersion args.text.length
      .root t.children args.remaining) := rfl
  rw [hstored]
  generalize insertLoop t.counter args.weightVersion args.text.length .root t.children
    args.remaining = inserted at hroot heffect
  rcases heffect with
    ⟨left, right, rest, hrest, htext, hbefore, hafter, hentries, hcached⟩ |
    ⟨left, right, node, rest, hrest, hvalue, -, hbefore, hafter, hentries, hcached⟩ |
    ⟨hafter, hentries, hcached⟩
  · rw [hroot] at hafter
    cases left with
    | nil =>
      -- the new node has a key, and the root has none
      have hnew := (List.cons.inj hafter).1
      have hkey := stringKey_newNode rest t.counter args.weightVersion
      rw [← hnew] at hkey
      exact absurd hkey.symm htext
    | cons first left =>
      refine .created left right rest hrest (List.cons.inj hbefore).2
        (List.cons.inj hafter).2 ?_ ?_ ?_
      · simp [put, hentries]
      · simp [put, hcached]
      · simp [put, hentries]
  · rw [hroot] at hafter
    cases left with
    | nil =>
      have hsame := congrArg StringTreeNode.tokenIds (List.cons.inj hafter).1
      cases hsame
    | cons first left =>
      refine .filled left right node rest hrest hvalue (List.cons.inj hbefore).2
        (List.cons.inj hafter).2 ?_ ?_ ?_
      · simp [put, hentries]
      · simp [put, hcached]
      · simp [put, hentries]
  · rw [hroot] at hafter
    refine .unchanged (List.cons.inj hafter).2 ?_ ?_ ?_
    · simp [put, hentries]
    · simp [put, hcached]
    · simp [put, hentries]

end Insertion

end Belayer.Router
