import Belayer.Weights.QkvLayout

namespace Belayer.Weights

open Belayer.Framework

/-- The projections that are cut by their rows and have a bias. -/
inductive Projection where
  | gateUpProj | qProj | kProj | vProj | gateProj | upProj
  deriving DecidableEq

def Projection.text : Projection → String
  | gateUpProj => "gate_up_proj"
  | qProj => "q_proj"
  | kProj => "k_proj"
  | vProj => "v_proj"
  | gateProj => "gate_proj"
  | upProj => "up_proj"

/-- A projection in a model. The modules that it is in stand before it, each with a dot behind it;
the names of parameters are not theirs. -/
structure ProjectionModule where
  start : String
  projection : Projection
  start_ends : start = "" ∨ Text.endsWith "." start = true
  no_weight : Text.contains ".weight" start = false
  no_bias : Text.contains ".bias" start = false

namespace ProjectionModule

def weightName (m : ProjectionModule) : String := m.start ++ (m.projection.text ++ ".weight")

def biasName (m : ProjectionModule) : String := m.start ++ (m.projection.text ++ ".bias")

end ProjectionModule

/-- What `str.lower` does to a text that goes on behind its start, or behind a dot, with a
lower-case letter: only the part before it changes. -/
def LowersStarts (lower : String → String) : Prop :=
  ∀ start : String, (start = "" ∨ Text.endsWith "." start = true) →
    ∃ start', ∀ rest : String,
      (rest.toList.all fun c => c.toNat < 128 && !c.isUpper) = true →
        rest.toList.head?.any Char.isLower = true → lower (start ++ rest) = start' ++ rest

/-- There are places of rows, the same for every weight with `n` rows and every bias with `n`
entries, such that every row is on some rank, and each rank has the weight's rows and the bias's
entries at its places, in this order. -/
def ShardsMatch (lower : String → String) (m : ProjectionModule) (tp n : Nat)
    (numHeads numKvHeads hiddenSize headDim : Json) : Prop :=
  ∃ places : Nat → List Nat,
    (∀ i < n, ∃ r < tp, i ∈ places r) ∧ (∀ r < tp, ∀ i ∈ places r, i < n) ∧
      ∀ (α : Type) (inner : List Nat) (weight bias : Tensor α), weight.shape = n :: inner →
        bias.shape = [n] →
          ∃ weights biases,
            shardForTp lower m.weightName weight tp numHeads numKvHeads hiddenSize headDim =
                some weights ∧
              shardForTp lower m.biasName bias tp numHeads numKvHeads hiddenSize headDim =
                some biases ∧
              ∀ r < tp, ∃ w b, weights[r]? = some w ∧ biases[r]? = some b ∧
                w.IsRows weight (places r) ∧ b.IsRows bias (places r)

/-! Names -/

section Names

variable {m : ProjectionModule} {lower : String → String}

/-- The texts that `_should_not_shard` looks for. -/
def normTexts : List String :=
  ["layernorm", "layer_norm", "ln_", "norm.weight", ".norm.bias", "input_layernorm",
    "post_attention_layernorm"]

/-- The texts that `_shard_for_tp` looks for before it looks for a bias. -/
def parameterTexts : List String :=
  ["qkv_proj.weight", "qkv_proj.bias", "gate_up_proj.weight", "q_proj.weight", "k_proj.weight",
    "v_proj.weight", "o_proj.weight", "down_proj.weight", "attn.proj.weight", "linear_fc2.weight",
    "gate_proj.weight", "up_proj.weight", "linear_fc1.weight", "embed_tokens.weight",
    "lm_head.weight", "wte.weight", ".bias"]

theorem ProjectionModule.start_toList (m : ProjectionModule) :
    m.start.toList = [] ∨ ['.'] <:+ m.start.toList := by
  rcases m.start_ends with h | h
  · exact Or.inl (by rw [h]; rfl)
  · exact Or.inr (List.isSuffixOf_iff_suffix.mp h)

theorem any_congr_mem {texts : List String} {p q : String → Bool}
    (h : ∀ text ∈ texts, p text = q text) : texts.any p = texts.any q := by
  rw [Bool.eq_iff_iff, List.any_eq_true, List.any_eq_true]
  exact exists_congr fun text => and_congr_right fun htext => by rw [h text htext]

/-- Which of the texts a parameter's name has does not depend on the modules around it. -/
theorem contains_start {text mark : String} (htext : text ∈ parameterTexts)
    (hmark : mark ∈ [".weight", ".bias"]) :
    Text.contains text (m.start ++ (m.projection.text ++ mark)) =
      Text.contains text (m.projection.text ++ mark) := by
  have hinner : ∀ text ∈ parameterTexts,
      ".weight".toList <:+: text.toList ∨ ".bias".toList <:+: text.toList := by decide
  -- what follows a dot in one of the texts, and no projection's name starts with
  have hdots : ∀ text ∈ parameterTexts, ∀ part ∈ text.toList.tails, part.head? = some '.' →
      part.tail ∈ ["weight".toList, "bias".toList, "proj.weight".toList] := by decide
  have hstarts : ∀ mark ∈ [".weight", ".bias"], ∀ projection : Projection,
      ∀ rest ∈ ["weight".toList, "bias".toList, "proj.weight".toList],
        ¬rest <+: (projection.text ++ mark).toList := by
    intro mark hmark projection
    revert mark
    cases projection <;> decide
  have hnot : ¬text.toList <:+: m.start.toList := by
    intro h
    rcases hinner text htext with hin | hin
    · have hstart := Text.contains_iff.mpr (hin.trans h)
      rw [m.no_weight] at hstart
      cases hstart
    · have hstart := Text.contains_iff.mpr (hin.trans h)
      rw [m.no_bias] at hstart
      cases hstart
  rw [Bool.eq_iff_iff, Text.contains_iff, Text.contains_iff, String.toList_append]
  exact Text.infix_append_of_ending m.start_toList hnot fun part hpart hdot hprefix =>
    absurd hprefix (hstarts mark hmark m.projection part.tail (hdots text htext part hpart hdot))

theorem containsAny_start {texts : List String} {mark : String}
    (htexts : ∀ text ∈ texts, text ∈ parameterTexts) (hmark : mark ∈ [".weight", ".bias"]) :
    containsAny texts (m.start ++ (m.projection.text ++ mark)) =
      containsAny texts (m.projection.text ++ mark) := by
  rw [containsAny, containsAny]
  exact any_congr_mem fun text htext => contains_start (htexts text htext) hmark

/-- A module's weight and bias are both cut, or both not. -/
theorem shouldNotShard_biasName (hlower : LowersStarts lower) :
    shouldNotShard lower m.biasName = shouldNotShard lower m.weightName := by
  obtain ⟨start, hstart⟩ := hlower m.start m.start_ends
  have hcases : ∀ projection : Projection, ∀ mark ∈ [".weight", ".bias"],
      ((projection.text ++ mark).toList.all fun c => c.toNat < 128 && !c.isUpper) = true ∧
        (projection.text ++ mark).toList.head?.any Char.isLower = true := by
    intro projection
    cases projection <;> decide
  have hparts : ∀ projection : Projection, ∀ mark ∈ [".weight", ".bias"], ∀ text ∈ normTexts,
      ¬text.toList <:+: (projection.text ++ mark).toList ∧
        ∀ part ∈ text.toList.tails, part ≠ [] → ¬part <+: (projection.text ++ mark).toList := by
    intro projection
    cases projection <;> decide
  have hnames : ∀ mark ∈ [".weight", ".bias"],
      shouldNotShard lower (m.start ++ (m.projection.text ++ mark)) =
        normTexts.any fun text => Text.contains text start := by
    intro mark hmark
    obtain ⟨hascii, hhead⟩ := hcases m.projection mark hmark
    have hany : ∀ text ∈ normTexts, Text.contains text (start ++ (m.projection.text ++ mark)) =
        Text.contains text start := by
      intro text htext
      obtain ⟨hnot, hpart⟩ := hparts m.projection mark hmark text htext
      rw [Bool.eq_iff_iff, Text.contains_iff, Text.contains_iff, String.toList_append]
      exact Text.infix_append_of_not_prefix hnot hpart
    rw [shouldNotShard, hstart _ hascii hhead]
    exact any_congr_mem hany
  rw [ProjectionModule.biasName, ProjectionModule.weightName, hnames ".bias" (by decide),
    hnames ".weight" (by decide)]

/-- The name under which the kind of a bias is looked up is that of its weight. -/
theorem replace_biasName : Text.replace ".bias" ".weight" m.biasName = m.weightName := by
  have hbias : ".bias".toList = '.' :: "bias".toList := by decide
  have hdot : '.' ∉ "bias".toList := by decide
  have hpart : ∀ projection : Projection, ¬ ".bias".toList <:+: projection.text.toList ∧
      ∀ part ∈ ".bias".toList.tails, part.head? = some '.' →
        part.tail <+: projection.text.toList → part.tail = [] := by
    intro projection
    cases projection <;> decide
  obtain ⟨htext, hparts⟩ := hpart m.projection
  have hnone : ¬ '.' :: "bias".toList <:+: m.start.toList ++ m.projection.text.toList := by
    rw [← hbias, Text.infix_append_of_ending m.start_toList ?_ hparts]
    · exact htext
    · intro h
      have hstart := Text.contains_iff.mpr h
      rw [m.no_bias] at hstart
      cases hstart
  have hname : m.biasName.toList =
      (m.start.toList ++ m.projection.text.toList) ++ '.' :: "bias".toList := by
    rw [ProjectionModule.biasName, String.toList_append, String.toList_append, hbias,
      List.append_assoc]
  have hend : Text.replaceFrom ('.' :: "bias".toList) ".weight".toList 0 ('.' :: "bias".toList) =
      ".weight".toList := by decide
  apply String.toList_injective
  rw [Text.replace, String.toList_ofList, hname, hbias, Text.replaceFrom_append hdot hnone, hend,
    ProjectionModule.weightName, String.toList_append, String.toList_append, List.append_assoc]

end Names

/-! Splits -/

section Splits

variable {α : Type} {t : Tensor α} {tp n : Nat} {inner : List Nat} {m : ProjectionModule}
  {lower : String → String} {numHeads numKvHeads hiddenSize headDim : Json}

/-- The fused weight is split by its halves, every other one plainly. -/
theorem shardForTp_weightName (htp : tp ≠ 1) (hshard : shouldNotShard lower m.weightName = false) :
    shardForTp lower m.weightName t tp numHeads numKvHeads hiddenSize headDim =
      if m.projection = .gateUpProj then shardGateUpFused t tp else shardParallel t tp 0 := by
  rw [shardForTp, if_neg htp, hshard, if_neg Bool.false_ne_true, ProjectionModule.weightName,
    contains_start (by decide) (by decide), contains_start (by decide) (by decide),
    contains_start (by decide) (by decide), containsAny_start (by decide) (by decide),
    containsAny_start (by decide) (by decide), containsAny_start (by decide) (by decide)]
  cases m.projection with
  | gateUpProj => rw [if_neg (by decide), if_neg (by decide), if_pos (by decide), if_pos rfl]
  | qProj | kProj | vProj =>
    rw [if_neg (by decide), if_neg (by decide), if_neg (by decide), if_pos (by decide),
      if_neg (by decide)]
  | gateProj | upProj =>
    rw [if_neg (by decide), if_neg (by decide), if_neg (by decide), if_neg (by decide),
      if_neg (by decide), if_pos (by decide), if_neg (by decide)]

/-- Every bias is split plainly, that of the fused projection too. -/
theorem shardForTp_biasName (htp : tp ≠ 1) (hshard : shouldNotShard lower m.biasName = false) :
    shardForTp lower m.biasName t tp numHeads numKvHeads hiddenSize headDim =
      shardParallel t tp 0 := by
  have hkind : containsAny ["q_proj", "k_proj", "v_proj", "gate_proj", "up_proj", "gate_up_proj",
      "linear_fc1"] m.weightName = true := by
    have htext : ∀ projection : Projection, projection.text ∈ ["q_proj", "k_proj", "v_proj",
        "gate_proj", "up_proj", "gate_up_proj", "linear_fc1"] := by
      intro projection
      cases projection <;> decide
    refine List.any_eq_true.mpr ⟨m.projection.text, htext m.projection, Text.contains_iff.mpr ?_⟩
    rw [ProjectionModule.weightName, String.toList_append, String.toList_append]
    exact List.infix_append' ..
  rw [shardForTp, if_neg htp, hshard, if_neg Bool.false_ne_true]
  dsimp only
  rw [replace_biasName, hkind, if_pos rfl, ProjectionModule.biasName,
    contains_start (by decide) (by decide), contains_start (by decide) (by decide),
    contains_start (by decide) (by decide), containsAny_start (by decide) (by decide),
    containsAny_start (by decide) (by decide), containsAny_start (by decide) (by decide),
    containsAny_start (by decide) (by decide), contains_start (by decide) (by decide)]
  cases m.projection <;>
    rw [if_neg (by decide), if_neg (by decide), if_neg (by decide), if_neg (by decide),
      if_neg (by decide), if_neg (by decide), if_neg (by decide), if_pos (by decide)]

/-- The places of a rank's rows in a plain split. -/
def parallelPlaces (n tp r : Nat) : List Nat :=
  if n % tp = 0 then List.range' (r * (n / tp)) (n / tp) else List.range n

/-- The places of a rank's rows in a split of two halves. -/
def halvesPlaces (n tp r : Nat) : List Nat :=
  List.range' (r * (n / 2 / tp)) (n / 2 / tp) ++ List.range' (n / 2 + r * (n / 2 / tp)) (n / 2 / tp)

theorem range'_drop_take {s k a b : Nat} (hb : b ≤ k) :
    ((List.range' s k).drop a).take (b - a) = List.range' (s + a) (b - a) := by
  rw [List.drop_range', Nat.mul_one, List.take_range'_of_length_ge (Nat.sub_le_sub_right hb a)]

theorem exists_shardParallel_isRows (ht : t.shape = n :: inner) (hn : 0 < n) (htp : 0 < tp) :
    ∃ shards, shardParallel t tp 0 = some shards ∧
      ∀ r < tp, ∃ s, shards[r]? = some s ∧ s.IsRows t (parallelPlaces n tp r) := by
  have hdim : t.shape[0]? = some n := by rw [ht]; rfl
  obtain ⟨shards, hshards, -, heach⟩ := exists_shardParallel hdim hn htp
  refine ⟨shards, hshards, fun r hr => ⟨_, heach r hr, ?_⟩⟩
  have hself := Tensor.isRows_self ht
  unfold parallelPlaces
  split_ifs with hmod
  · have hle : (r + 1) * (n / tp) ≤ n :=
      (Nat.mul_le_mul_right _ hr).trans (Nat.mul_div_le n tp)
    have hslice := hself.slice ht (fun i hi => List.mem_range.mp hi) (r * (n / tp))
      ((r + 1) * (n / tp))
    have hsize : (r + 1) * (n / tp) - r * (n / tp) = n / tp := by
      rw [Nat.succ_mul, Nat.add_sub_cancel_left]
    rwa [List.range_eq_range', range'_drop_take hle, hsize, Nat.zero_add] at hslice
  · exact hself

/-- A part of a rank's size of one half. -/
theorem isRows_half (ht : t.shape = n :: inner) {a b : Nat} (hab : a + n / 2 = b) (hb : b ≤ n)
    {r : Nat} (hr : r < tp) :
    ((t.slice 0 a b).slice 0 (r * (n / 2 / tp)) ((r + 1) * (n / 2 / tp))).IsRows t
      (List.range' (a + r * (n / 2 / tp)) (n / 2 / tp)) := by
  have hle : (r + 1) * (n / 2 / tp) ≤ b - a := by
    calc (r + 1) * (n / 2 / tp) ≤ tp * (n / 2 / tp) := Nat.mul_le_mul_right _ hr
      _ ≤ n / 2 := Nat.mul_div_le _ _
      _ = b - a := by omega
  have hhalf := (Tensor.isRows_self ht).slice ht (fun i hi => List.mem_range.mp hi) a b
  rw [List.range_eq_range', range'_drop_take hb, Nat.zero_add] at hhalf
  have hbound : ∀ i ∈ List.range' a (b - a), i < n := by
    intro i hi
    have hi := List.mem_range'_1.mp hi
    omega
  have hpart := hhalf.slice ht hbound (r * (n / 2 / tp)) ((r + 1) * (n / 2 / tp))
  have hsize : (r + 1) * (n / 2 / tp) - r * (n / 2 / tp) = n / 2 / tp := by
    rw [Nat.succ_mul, Nat.add_sub_cancel_left]
  rwa [range'_drop_take hle, hsize] at hpart

theorem exists_shardGateUpFused_isRows (tp : Nat) (ht : t.shape = n :: inner) (hn : n % 2 = 0) :
    ∃ shards, shardGateUpFused t tp = some shards ∧
      ∀ r < tp, ∃ s, shards[r]? = some s ∧ s.IsRows t (halvesPlaces n tp r) := by
  have hdim : t.shape[0]? = some n := by rw [ht]; rfl
  have hcat : ∀ r < tp, ∃ s, Tensor.cat
      [(t.slice 0 0 (n / 2)).slice 0 (r * (n / 2 / tp)) ((r + 1) * (n / 2 / tp)),
        (t.slice 0 (n / 2) n).slice 0 (r * (n / 2 / tp)) ((r + 1) * (n / 2 / tp))] = some s ∧
      s.IsRows t (halvesPlaces n tp r) := by
    intro r hr
    have hgate := isRows_half ht (Nat.zero_add _) (Nat.div_le_self n 2) hr
    have hup := isRows_half ht (by omega : n / 2 + n / 2 = n) le_rfl hr
    rw [Nat.zero_add] at hgate
    exact hgate.exists_cat hup
  unfold shardGateUpFused
  rw [hdim]
  simp only [Option.bind_eq_bind, Option.bind_some]
  rw [if_neg (not_not_intro hn)]
  obtain ⟨shards, hshards⟩ := exists_mapM (l := List.range tp) fun r hr => by
    obtain ⟨s, hs, -⟩ := hcat r (List.mem_range.mp hr)
    exact Option.isSome_iff_exists.mpr ⟨s, hs⟩
  refine ⟨shards, hshards, fun r hr => ?_⟩
  obtain ⟨s, hs, hrows⟩ := hcat r hr
  refine ⟨s, ?_, hrows⟩
  rw [getElem?_of_mapM hshards, List.getElem?_range hr, Option.bind_some, hs]

theorem shardGateUpFused_of_odd (ht : t.shape = n :: inner) (hn : n % 2 = 1) :
    shardGateUpFused t tp = shardParallel t tp 0 := by
  have hdim : t.shape[0]? = some n := by rw [ht]; rfl
  have hodd : n % 2 ≠ 0 := by omega
  unfold shardGateUpFused
  rw [hdim]
  simp only [Option.bind_eq_bind, Option.bind_some]
  rw [if_pos hodd]

theorem shardParallel_of_no_rows (tp : Nat) (ht : t.shape = 0 :: inner) :
    ∃ shard, shardParallel t tp 0 = some [shard] := by
  have hdim : t.shape[0]? = some 0 := by rw [ht]; rfl
  refine ⟨t.slice 0 0 0, ?_⟩
  unfold shardParallel
  rw [hdim]
  simp only [Option.bind_eq_bind, Option.bind_some]
  rw [if_neg (not_not_intro (Nat.zero_mod tp)), Nat.zero_div, Tensor.split]
  simp

end Splits

/-! The shards of a weight and of its bias -/

section Matching

variable {lower : String → String} {m : ProjectionModule} {tp n : Nat}
  {numHeads numKvHeads hiddenSize headDim : Json}

theorem lt_of_mem_parallelPlaces {r i : Nat} (hr : r < tp) (hi : i ∈ parallelPlaces n tp r) :
    i < n := by
  unfold parallelPlaces at hi
  split_ifs at hi with hmod
  · have hi := List.mem_range'_1.mp hi
    have hle : (r + 1) * (n / tp) ≤ n := (Nat.mul_le_mul_right _ hr).trans (Nat.mul_div_le n tp)
    rw [Nat.succ_mul] at hle
    omega
  · exact List.mem_range.mp hi

theorem lt_of_mem_halvesPlaces {r i : Nat} (hr : r < tp) (hi : i ∈ halvesPlaces n tp r) :
    i < n := by
  have hle : (r + 1) * (n / 2 / tp) ≤ n / 2 :=
    (Nat.mul_le_mul_right _ hr).trans (Nat.mul_div_le _ tp)
  rw [Nat.succ_mul] at hle
  rcases List.mem_append.mp hi with hi | hi
  · have hi := List.mem_range'_1.mp hi
    omega
  · have hi := List.mem_range'_1.mp hi
    omega

/-- A plain split leaves no row out. -/
theorem exists_mem_parallelPlaces (htp : 0 < tp) {i : Nat} (hi : i < n) :
    ∃ r < tp, i ∈ parallelPlaces n tp r := by
  unfold parallelPlaces
  by_cases hmod : n % tp = 0
  · have hn : n = tp * (n / tp) := (Nat.mul_div_cancel' (Nat.dvd_of_mod_eq_zero hmod)).symm
    have hsize : 0 < n / tp := by
      apply Nat.pos_of_ne_zero
      intro hzero
      rw [hzero, Nat.mul_zero] at hn
      omega
    refine ⟨i / (n / tp), ?_, ?_⟩
    · rw [Nat.div_lt_iff_lt_mul hsize, ← hn]
      exact hi
    · rw [if_pos hmod, List.mem_range'_1]
      exact ⟨Nat.div_mul_le_self i _, Nat.lt_div_mul_add hsize⟩
  · exact ⟨0, htp, by rw [if_neg hmod]; exact List.mem_range.mpr hi⟩

/-- The halves' parts are not those of a plain split: after the first half's part the first rank
has a row of the second half. -/
theorem halvesPlaces_ne_parallelPlaces (htp : 1 < tp) (hrow : ∃ r < tp, 0 ∈ halvesPlaces n tp r) :
    halvesPlaces n tp 0 ≠ parallelPlaces n tp 0 := by
  intro heq
  have hpart : 0 < n / 2 / tp := by
    apply Nat.pos_of_ne_zero
    intro hzero
    obtain ⟨r, -, hmem⟩ := hrow
    simp [halvesPlaces, hzero] at hmem
  have hhalf : n / 2 / tp < n / 2 := by
    apply Nat.div_lt_self _ htp
    by_contra hzero
    rw [Nat.eq_zero_of_not_pos hzero, Nat.zero_div] at hpart
    exact Nat.lt_irrefl 0 hpart
  have hleft : (halvesPlaces n tp 0)[n / 2 / tp]? = some (n / 2) := by
    rw [halvesPlaces, List.getElem?_append_right (by rw [List.length_range']), List.length_range',
      Nat.sub_self, List.getElem?_range' hpart]
    simp
  have hright : ∀ i, (parallelPlaces n tp 0)[n / 2 / tp]? = some i → i = n / 2 / tp := by
    intro i hi
    unfold parallelPlaces at hi
    split_ifs at hi
    · obtain ⟨_, rfl⟩ := List.getElem?_eq_some_iff.mp hi
      simp
    · obtain ⟨_, rfl⟩ := List.getElem?_eq_some_iff.mp hi
      simp
  have hsame := hright (n / 2) (by rw [← heq]; exact hleft)
  omega

/-- A parameter's shards have the rows of a tensor with `n` rows at given places. -/
def SplitsAt (lower : String → String) (name : String) (tp n : Nat)
    (numHeads numKvHeads hiddenSize headDim : Json) (places : Nat → List Nat) : Prop :=
  ∀ (α : Type) (inner : List Nat) (t : Tensor α), t.shape = n :: inner →
    ∃ shards, shardForTp lower name t tp numHeads numKvHeads hiddenSize headDim = some shards ∧
      ∀ r < tp, ∃ s, shards[r]? = some s ∧ s.IsRows t (places r)

theorem shardsMatch_of_splitsAt {places : Nat → List Nat}
    (hcover : ∀ i < n, ∃ r < tp, i ∈ places r) (hbound : ∀ r < tp, ∀ i ∈ places r, i < n)
    (hweight : SplitsAt lower m.weightName tp n numHeads numKvHeads hiddenSize headDim places)
    (hbias : SplitsAt lower m.biasName tp n numHeads numKvHeads hiddenSize headDim places) :
    ShardsMatch lower m tp n numHeads numKvHeads hiddenSize headDim := by
  refine ⟨places, hcover, hbound, ?_⟩
  intro α inner weight bias hw hb
  obtain ⟨weights, hweights, hweightRows⟩ := hweight α inner weight hw
  obtain ⟨biases, hbiases, hbiasRows⟩ := hbias α [] bias hb
  refine ⟨weights, biases, hweights, hbiases, fun r hr => ?_⟩
  obtain ⟨w, hwr, hwRows⟩ := hweightRows r hr
  obtain ⟨b, hbr, hbRows⟩ := hbiasRows r hr
  exact ⟨w, b, hwr, hbr, hwRows, hbRows⟩

/-- A single rank has all rows, and so has each rank where the module is not cut. -/
theorem splitsAt_range {name : String} (h : tp = 1 ∨ shouldNotShard lower name = true) :
    SplitsAt lower name tp n numHeads numKvHeads hiddenSize headDim fun _ => List.range n := by
  intro α inner t ht
  have hself := Tensor.isRows_self ht
  by_cases hone : tp = 1
  · refine ⟨[t], by rw [shardForTp, if_pos hone], fun r hr => ⟨t, ?_, hself⟩⟩
    obtain rfl : r = 0 := by omega
    rfl
  · have hshard := h.resolve_left hone
    refine ⟨List.replicate tp t, by rw [shardForTp, if_neg hone, hshard, if_pos rfl],
      fun r hr => ⟨t, List.getElem?_replicate_of_lt hr, hself⟩⟩

/-- A bias without entries has one part only. -/
theorem ShardsMatch.rows_pos
    (h : ShardsMatch lower m tp n numHeads numKvHeads hiddenSize headDim) (htp : 1 < tp)
    (hshard : shouldNotShard lower m.biasName = false) : 0 < n := by
  apply Nat.pos_of_ne_zero
  rintro rfl
  obtain ⟨places, -, -, hsplit⟩ := h
  obtain ⟨weights, biases, -, hbiases, hranks⟩ :=
    hsplit Nat [1] (Tensor.fill id [0, 1]) (Tensor.fill id [0]) rfl rfl
  obtain ⟨w, b, -, hb, -⟩ := hranks 1 htp
  obtain ⟨shard, hparts⟩ := shardParallel_of_no_rows tp (t := Tensor.fill id [0]) rfl
  rw [shardForTp_biasName (Nat.ne_of_gt htp) hshard, hparts, Option.some.injEq] at hbiases
  rw [← hbiases] at hb
  cases hb

/-- A fused weight that has two halves is not split like its bias. -/
theorem ShardsMatch.odd_of_fused
    (h : ShardsMatch lower m tp n numHeads numKvHeads hiddenSize headDim) (htp : 1 < tp)
    (hn : 0 < n) (hweight : shouldNotShard lower m.weightName = false)
    (hbias : shouldNotShard lower m.biasName = false) (hfused : m.projection = .gateUpProj) :
    n % 2 = 1 := by
  by_contra hodd
  obtain ⟨places, hcover, hbound, hsplit⟩ := h
  obtain ⟨weights, biases, hweights, hbiases, hranks⟩ :=
    hsplit Nat [1] (Tensor.fill id [n, 1]) (Tensor.fill id [n]) rfl rfl
  rw [shardForTp_weightName (Nat.ne_of_gt htp) hweight, if_pos hfused] at hweights
  rw [shardForTp_biasName (Nat.ne_of_gt htp) hbias] at hbiases
  obtain ⟨weights', hweights', hhalves⟩ := exists_shardGateUpFused_isRows tp
    (t := Tensor.fill id [n, 1]) rfl (by omega : n % 2 = 0)
  obtain ⟨biases', hbiases', hparallel⟩ :=
    exists_shardParallel_isRows (t := Tensor.fill id [n]) rfl hn (Nat.zero_lt_of_lt htp)
  obtain rfl : weights' = weights := Option.some.inj (hweights'.symm.trans hweights)
  obtain rfl : biases' = biases := Option.some.inj (hbiases'.symm.trans hbiases)
  have hplaces : ∀ r < tp, places r = halvesPlaces n tp r ∧ places r = parallelPlaces n tp r := by
    intro r hr
    obtain ⟨w, b, hw, hb, hwRows, hbRows⟩ := hranks r hr
    obtain ⟨w', hw', hwHalves⟩ := hhalves r hr
    obtain ⟨b', hb', hbParallel⟩ := hparallel r hr
    obtain rfl : w' = w := Option.some.inj (hw'.symm.trans hw)
    obtain rfl : b' = b := Option.some.inj (hb'.symm.trans hb)
    exact ⟨hwRows.places_unique rfl hwHalves (hbound r hr) fun i hi => lt_of_mem_halvesPlaces hr hi,
      hbRows.places_unique rfl hbParallel (hbound r hr) fun i hi => lt_of_mem_parallelPlaces hr hi⟩
  obtain ⟨r, hr, hmem⟩ := hcover 0 hn
  obtain ⟨hhalf, hplain⟩ := hplaces 0 (Nat.zero_lt_of_lt htp)
  rw [(hplaces r hr).1] at hmem
  exact halvesPlaces_ne_parallelPlaces htp ⟨r, hr, hmem⟩ (hhalf.symm.trans hplain)

/-- The shards of weight and bias match on one rank, where neither is cut, and where the weight is
split plainly like the bias: outside the fused projection for any rows at all, in it only for an
odd number of them. -/
theorem shardsMatch_iff (hlower : LowersStarts lower) (htp : 0 < tp) :
    ShardsMatch lower m tp n numHeads numKvHeads hiddenSize headDim ↔
      tp = 1 ∨ shouldNotShard lower m.weightName = true ∨
        if m.projection = .gateUpProj then n % 2 = 1 else 0 < n := by
  have hbias := shouldNotShard_biasName (m := m) hlower
  by_cases hcopies : tp = 1 ∨ shouldNotShard lower m.weightName = true
  · refine iff_of_true ?_ (or_assoc.mp (Or.inl hcopies))
    refine shardsMatch_of_splitsAt ?_ ?_ (splitsAt_range hcopies) (splitsAt_range ?_)
    · exact fun i hi => ⟨0, htp, List.mem_range.mpr hi⟩
    · exact fun _ _ i hi => List.mem_range.mp hi
    · rwa [hbias]
  · obtain ⟨hone, hshard⟩ : tp ≠ 1 ∧ shouldNotShard lower m.weightName = false := by
      simpa [not_or] using hcopies
    have hmany : 1 < tp := by omega
    rw [← or_assoc, or_iff_right hcopies]
    rw [hshard] at hbias
    constructor
    · intro h
      have hn := h.rows_pos hmany hbias
      split_ifs with hfused
      · exact h.odd_of_fused hmany hn hshard hbias hfused
      · exact hn
    · intro hrows
      have hn : 0 < n := by
        split_ifs at hrows
        · omega
        · exact hrows
      refine shardsMatch_of_splitsAt (fun i hi => exists_mem_parallelPlaces htp hi)
        (fun r hr i hi => lt_of_mem_parallelPlaces hr hi) ?_ ?_
      · intro α inner t ht
        obtain ⟨shards, hshards, hranks⟩ := exists_shardParallel_isRows ht hn htp
        refine ⟨shards, ?_, hranks⟩
        rw [shardForTp_weightName hone hshard]
        split_ifs at hrows ⊢
        · rw [shardGateUpFused_of_odd ht hrows, hshards]
        · exact hshards
      · intro α inner t ht
        obtain ⟨shards, hshards, hranks⟩ := exists_shardParallel_isRows ht hn htp
        exact ⟨shards, by rw [shardForTp_biasName hone hbias, hshards], hranks⟩

end Matching

theorem lowersStarts_toLower : LowersStarts String.toLower := by
  intro start _
  refine ⟨start.toLower, fun rest hrest _ => ?_⟩
  have hlower : ∀ text : String, text.toLower.toList = text.toList.map Char.toLower :=
    fun text => String.toList_map
  have hkept : rest.toList.map Char.toLower = rest.toList := by
    have hchar : ∀ c ∈ rest.toList, c.toLower = c := by
      intro c hc
      have hupper := (Bool.and_eq_true_iff.mp (List.all_eq_true.mp hrest c hc)).2
      rw [Bool.not_eq_true'] at hupper
      exact dif_neg fun hletter =>
        absurd (decide_eq_true hletter) (Bool.eq_false_iff.mp hupper)
    rw [List.map_congr_left hchar, List.map_id']
  apply String.toList_injective
  rw [String.toList_append, hlower, hlower, String.toList_append, List.map_append, hkept]

/-- The fused projection of the first layer's MLP. -/
def fusedMlp : ProjectionModule :=
  { start := "model.layers.0.mlp."
    projection := .gateUpProj
    start_ends := by decide +kernel
    no_weight := by decide +kernel
    no_bias := by decide +kernel }

theorem shardsMatch_fusedMlp :
    0 < 2 ∧ (ShardsMatch String.toLower fusedMlp 2 3 (.int 4) (.int 2) (.int 8) (.int 2) ↔
      2 = 1 ∨ shouldNotShard String.toLower fusedMlp.weightName = true ∨
        if fusedMlp.projection = .gateUpProj then 3 % 2 = 1 else 0 < 3) :=
  ⟨by decide, shardsMatch_iff lowersStarts_toLower (by decide)⟩

/-- Two gate rows and two up rows on two ranks: the weight goes by halves, the bias does not. -/
theorem not_shardsMatch_fusedMlp :
    ¬ShardsMatch String.toLower fusedMlp 2 4 (.int 4) (.int 2) (.int 8) (.int 2) := by
  intro h
  have hodd := h.odd_of_fused (by decide) (by decide) (by decide +kernel) (by decide +kernel) rfl
  cases hodd

end Belayer.Weights
