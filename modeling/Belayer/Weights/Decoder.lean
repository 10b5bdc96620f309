import Belayer.Weights.LayerNames

namespace Belayer.Weights

open Belayer.Framework

variable {α : Type}

/-- The names and shapes of the tensors, in the dict's order. -/
def shapes (weights : TensorDict α) : Dict String (List Nat) := weights.mapValues Tensor.shape

/-- The sizes of a decoder's attention; `headSize` is the number of rows of a head. -/
structure Attention where
  numLayers : Nat
  numHeads : Nat
  numKvHeads : Nat
  headSize : Nat
  hiddenSize : Nat
  numLayers_pos : 0 < numLayers
  numHeads_pos : 0 < numHeads
  numKvHeads_pos : 0 < numKvHeads
  headSize_pos : 0 < headSize
  hiddenSize_pos : 0 < hiddenSize

def weightParts : List Part := [.qWeight, .kWeight, .vWeight]

def biasParts : List Part := [.qBias, .kBias, .vBias]

def mlpParts : List Part := [.gateProj, .upProj, .gateProjBias, .upProjBias]

/-- The name of a projection of a layer's attention. -/
def attnName (layer : Nat) (part : Part) : String := layerName layer ("self_attn." ++ part.text)

/-- The name of an embedding table. -/
def isEmbedding (name : String) : Bool :=
  Text.contains "embed_tokens.weight" name || Text.contains "wte.weight" name

/-- The name of a tensor that is cut along its second dimension. -/
def isRowParallel (name : String) : Bool :=
  containsAny ["o_proj.weight", "down_proj.weight", "attn.proj.weight", "linear_fc2.weight"] name

namespace Attention

/-- The rows of a projection. -/
def rows (a : Attention) : Part → Nat
  | .qWeight | .qBias => a.numHeads * a.headSize
  | _ => a.numKvHeads * a.headSize

/-- The shape of a row: a weight has one column for each hidden value, a bias has one value. -/
def inner (a : Attention) : Part → List Nat
  | .qWeight | .kWeight | .vWeight | .gateProj | .upProj => [a.hiddenSize]
  | .qBias | .kBias | .vBias | .gateProjBias | .upProjBias => []

end Attention

/-- The names and shapes of a dense decoder: each layer has the three projections of its
attention, with all three biases or none, and no other tensor of a layer is taken for one of
them. What is taken for a gate or up projection is in a layer of the decoder and has rows of
the hidden size, and so has the embedding table, where there is one. -/
structure DenseDecoder (a : Attention) (arch : Dict String (List Nat)) : Prop where
  weights : ∀ layer < a.numLayers, ∀ part ∈ weightParts,
    arch.lookup (attnName layer part) = some (a.rows part :: a.inner part)
  biases : ∀ layer < a.numLayers,
    (∀ part ∈ biasParts, arch.lookup (attnName layer part) = some (a.rows part :: a.inner part)) ∨
      ∀ part ∈ biasParts, arch.lookup (attnName layer part) = none
  attention : ∀ name ∈ arch, (getLayerId name).isSome → ∀ part ∈ weightParts ++ biasParts,
    Part.of name = some part → ∃ layer < a.numLayers, name = attnName layer part
  gateUp : ∀ name shape, arch.lookup name = some shape → (getLayerId name).isSome →
    ∀ part ∈ mlpParts, Part.of name = some part →
      (∃ layer, layerKey name = some ("model.", layer)) ∧ ∃ rows, shape = rows :: a.inner part
  regular : ∀ name shape, arch.lookup name = some shape →
    shape ≠ [] ∧ 0 ∉ shape ∧ (isRowParallel name = true → 2 ≤ shape.length)
  embedding : ∀ name shape, arch.lookup name = some shape → isEmbedding name = true →
    ∃ vocab, shape = [vocab, a.hiddenSize]

variable {a : Attention} {weights : TensorDict α}

theorem lookup_shapes (weights : TensorDict α) (name : String) :
    (shapes weights).lookup name = (weights.lookup name).map Tensor.shape :=
  Dict.lookup_mapValues Tensor.shape weights name

theorem mem_shapes {name : String} : name ∈ shapes weights ↔ name ∈ weights :=
  Dict.mem_mapValues

theorem mem_of_mem_items {e : String × Tensor α} (he : e ∈ weights.items) : e.1 ∈ weights :=
  AList.lookup_isSome.mp (by rw [Dict.mem_items.mp he]; rfl)

/-! The names of the attention -/

theorem part_of_attnName {part : Part} (hpart : part ∈ weightParts ++ biasParts) (layer : Nat) :
    Part.of (attnName layer part) = some part := by
  rw [attnName, Part.of_layerName]
  revert part
  decide

/-- A tensor with the text of a weight is taken for one of the three weights. -/
theorem exists_weightPart {name : String} {part : Part} (hpart : part ∈ weightParts)
    (h : Text.contains part.text name = true) : ∃ p ∈ weightParts, Part.of name = some p := by
  have hall : Part.all = weightParts ++ [.qBias, .kBias, .vBias, .gateProj, .upProj, .gateProjBias,
    .upProjBias] := rfl
  obtain ⟨p, hp⟩ : ∃ p, (weightParts.find? fun part => Text.contains part.text name) = some p := by
    rw [← Option.isSome_iff_exists, List.find?_isSome]
    exact ⟨part, hpart, h⟩
  refine ⟨p, List.mem_of_find?_eq_some hp, ?_⟩
  rw [Part.of, hall, List.find?_append, hp]
  rfl

/-- A tensor of the first layer with the text of a weight is one of its attention's. -/
theorem DenseDecoder.eq_attnName (hdec : DenseDecoder a (shapes weights)) {name : String}
    (hname : name ∈ weights) (hlayer : Text.contains ".layers.0." name = true) {part : Part}
    (hpart : part ∈ weightParts) (h : Text.contains part.text name = true) :
    ∃ p ∈ weightParts, name = attnName 0 p := by
  obtain ⟨p, hp, hof⟩ := exists_weightPart hpart h
  obtain ⟨layer, -, rfl⟩ := hdec.attention name (mem_shapes.mpr hname) (isSome_getLayerId hlayer) p
    (List.mem_append_left _ hp) hof
  have hrest : ∀ p ∈ weightParts,
      Text.contains ".layers.0." ("." ++ ("self_attn." ++ p.text)) = false := by decide
  have hzero : layer = 0 := eq_zero_of_contains hlayer (hrest p hp)
  exact ⟨p, hp, by rw [hzero]⟩

/-- The tensors of the first layer that detection takes for a projection. -/
theorem DenseDecoder.inFirstLayer_iff (hdec : DenseDecoder a (shapes weights)) {name : String}
    (hname : name ∈ weights) {part : Part} (hpart : part ∈ weightParts) :
    inFirstLayer part.text name = true ↔ name = attnName 0 part := by
  constructor
  · intro h
    obtain ⟨hlayer, hcontains⟩ := Bool.and_eq_true_iff.mp h
    obtain ⟨p, hp, rfl⟩ := hdec.eq_attnName hname hlayer hpart hcontains
    have hsame : ∀ p ∈ weightParts, ∀ part ∈ weightParts,
        Text.contains part.text (attnName 0 p) = true → p = part := by decide
    rw [hsame p hp part hpart hcontains]
  · rintro rfl
    have hown : ∀ part ∈ weightParts, inFirstLayer part.text (attnName 0 part) = true := by decide
    exact hown part hpart

/-- No tensor of the first layer is fused. -/
theorem DenseDecoder.not_fused (hdec : DenseDecoder a (shapes weights)) {name : String}
    (hname : name ∈ weights) : inFirstLayer "qkv_proj.weight" name = false := by
  by_contra h
  obtain ⟨hlayer, hcontains⟩ := Bool.and_eq_true_iff.mp (Bool.eq_true_of_not_eq_false h)
  have hv : Text.contains Part.vWeight.text name = true := by
    refine Text.contains_iff.mpr (List.IsInfix.trans ?_ (Text.contains_iff.mp hcontains))
    exact Text.contains_iff.mp (by decide : Text.contains "v_proj.weight" "qkv_proj.weight" = true)
  obtain ⟨p, hp, rfl⟩ := hdec.eq_attnName hname hlayer (by decide) hv
  have hnone : ∀ p ∈ weightParts, Text.contains "qkv_proj.weight" (attnName 0 p) = false := by decide
  rw [hnone p hp] at hcontains
  cases hcontains

/-! What detection finds -/

theorem find?_congr_mem {β : Type} {p q : β → Bool} {l : List β} (h : ∀ b ∈ l, p b = q b) :
    l.find? p = l.find? q := by
  induction l with
  | nil => rfl
  | cons b l ih =>
    obtain ⟨hb, hl⟩ := List.forall_mem_cons.mp h
    rw [List.find?_cons, List.find?_cons, hb, ih hl]

/-- The projection of the first layer, as detection meets it. -/
theorem DenseDecoder.find?_inFirstLayer (hdec : DenseDecoder a (shapes weights)) {part : Part}
    (hpart : part ∈ weightParts) :
    ∃ tensor, weights.lookup (attnName 0 part) = some tensor ∧
      tensor.shape = a.rows part :: a.inner part ∧
      (weights.items.find? fun e => inFirstLayer part.text e.1) =
        some (attnName 0 part, tensor) := by
  have hshape := hdec.weights 0 a.numLayers_pos part hpart
  rw [lookup_shapes] at hshape
  obtain ⟨tensor, htensor, hshape⟩ := Option.map_eq_some_iff.mp hshape
  refine ⟨tensor, htensor, hshape, ?_⟩
  rw [← Dict.find?_items htensor]
  refine find?_congr_mem fun e he => ?_
  rw [Bool.eq_iff_iff, hdec.inFirstLayer_iff (mem_of_mem_items he) hpart, decide_eq_true_iff]

/-- The width of the embedding table that detection finds; zero where there is none. -/
def embeddingWidth (a : Attention) (arch : Dict String (List Nat)) : Nat :=
  if arch.keys.any isEmbedding then a.hiddenSize else 0

theorem DenseDecoder.detectHiddenSize_eq (hdec : DenseDecoder a (shapes weights)) :
    ∃ width, detectHiddenSize weights = some width ∧
      width.getD 0 = embeddingWidth a (shapes weights) := by
  unfold detectHiddenSize embeddingWidth
  cases hfind : weights.items.find? fun e => isEmbedding e.1 with
  | none =>
    have hnone : (shapes weights).keys.any isEmbedding = false := by
      rw [shapes, Dict.keys_mapValues, ← Dict.map_fst_items, List.any_map]
      rw [List.find?_eq_none] at hfind
      simpa using hfind
    refine ⟨none, ?_, by simp [hnone]⟩
    unfold isEmbedding at hfind
    rw [hfind]
  | some e =>
    have he := List.mem_of_find?_eq_some hfind
    have hembedding : isEmbedding e.1 = true :=
      List.find?_some (p := fun e : String × Tensor α => isEmbedding e.1) hfind
    have hany : (shapes weights).keys.any isEmbedding = true :=
      List.any_eq_true.mpr ⟨e.1, AList.mem_keys.mp (mem_shapes.mpr (mem_of_mem_items he)), hembedding⟩
    have hlookup : (shapes weights).lookup e.1 = some e.2.shape := by
      rw [lookup_shapes, Dict.mem_items.mp he]
      rfl
    obtain ⟨vocab, hshape⟩ := hdec.embedding e.1 e.2.shape hlookup hembedding
    refine ⟨some a.hiddenSize, ?_, by simp [hany]⟩
    unfold isEmbedding at hfind
    rw [hfind]
    dsimp only
    rw [hshape]
    rfl

theorem rowsPer_of_shape {t : Tensor α} {n size : Nat} {inner : List Nat}
    (h : t.shape = n :: inner) :
    rowsPer t size = some (if 0 < size then some (n / size) else none) := by
  unfold rowsPer
  rw [h]
  split_ifs <;> rfl

/-- The head count that detection finds for a projection: its rows over the embedding width. -/
def detectedHeads (a : Attention) (arch : Dict String (List Nat)) (part : Part) : Option Nat :=
  if 0 < embeddingWidth a arch then some (a.rows part / embeddingWidth a arch) else none

theorem DenseDecoder.detectNumHeads_eq (hdec : DenseDecoder a (shapes weights)) :
    detectNumHeads weights (embeddingWidth a (shapes weights)) =
      some (detectedHeads a (shapes weights) .qWeight) := by
  have hq : Part.qWeight ∈ weightParts := by decide
  obtain ⟨tensor, -, hshape, hfind⟩ := hdec.find?_inFirstLayer hq
  have hsame : (weights.items.find? fun e =>
      inFirstLayer "qkv_proj.weight" e.1 || inFirstLayer "q_proj.weight" e.1) =
        some (attnName 0 .qWeight, tensor) := by
    rw [← hfind]
    refine find?_congr_mem fun e he => ?_
    rw [hdec.not_fused (mem_of_mem_items he), Bool.false_or]
    rfl
  have hnot : inFirstLayer "qkv_proj.weight" (attnName 0 .qWeight) = false := by decide
  unfold detectNumHeads
  rw [hsame]
  dsimp only
  rw [hnot, if_neg Bool.false_ne_true, rowsPer_of_shape hshape]
  rfl

theorem DenseDecoder.detectNumKvHeads_eq (hdec : DenseDecoder a (shapes weights)) :
    detectNumKvHeads weights (embeddingWidth a (shapes weights)) =
      some (detectedHeads a (shapes weights) .kWeight) := by
  have hk : Part.kWeight ∈ weightParts := by decide
  obtain ⟨tensor, -, hshape, hfind⟩ := hdec.find?_inFirstLayer hk
  have hsame : (weights.items.find? fun e => inFirstLayer "k_proj.weight" e.1) =
      some (attnName 0 .kWeight, tensor) := hfind
  unfold detectNumKvHeads
  rw [hsame]
  dsimp only
  rw [rowsPer_of_shape hshape]
  rfl

/-- The rows of the first layer's Q or K projection, whichever the dict has first. -/
def firstRows (arch : Dict String (List Nat)) : Nat :=
  ((arch.items.find? fun e => e.1 = attnName 0 .qWeight || e.1 = attnName 0 .kWeight).map
    fun e => e.2.headD 0).getD 0

/-- The head size that detection finds; zero where it finds none. -/
def detectedHeadDim (a : Attention) (arch : Dict String (List Nat)) : Nat :=
  if 0 < embeddingWidth a arch then
    let heads := firstRows arch / embeddingWidth a arch
    if 0 < heads then firstRows arch / heads else 0
  else 0

/-- The first of the first layer's Q and K projections. -/
theorem DenseDecoder.exists_first (hdec : DenseDecoder a (shapes weights)) :
    ∃ part tensor, (part = .qWeight ∨ part = .kWeight) ∧
      tensor.shape = a.rows part :: a.inner part ∧ firstRows (shapes weights) = a.rows part ∧
      (weights.items.find? fun e =>
        inFirstLayer "q_proj.weight" e.1 || inFirstLayer "k_proj.weight" e.1) =
          some (attnName 0 part, tensor) := by
  have hqWeight : Part.qWeight ∈ weightParts := by decide
  have hkWeight : Part.kWeight ∈ weightParts := by decide
  have hsame : (weights.items.find? fun e =>
      inFirstLayer "q_proj.weight" e.1 || inFirstLayer "k_proj.weight" e.1) =
      weights.items.find? fun e => e.1 = attnName 0 .qWeight || e.1 = attnName 0 .kWeight := by
    refine find?_congr_mem fun e he => ?_
    have hq := hdec.inFirstLayer_iff (mem_of_mem_items he) hqWeight
    have hk := hdec.inFirstLayer_iff (mem_of_mem_items he) hkWeight
    rw [Bool.eq_iff_iff, Bool.or_eq_true, Bool.or_eq_true, decide_eq_true_iff, decide_eq_true_iff]
    exact or_congr hq hk
  obtain ⟨q, hq, -, -⟩ := hdec.find?_inFirstLayer hqWeight
  obtain ⟨e, he⟩ : ∃ e, (weights.items.find? fun e =>
      e.1 = attnName 0 .qWeight || e.1 = attnName 0 .kWeight) = some e := by
    rw [← Option.isSome_iff_exists, List.find?_isSome]
    exact ⟨(attnName 0 .qWeight, q), Dict.mem_items.mpr hq, by simp⟩
  have hname : e.1 = attnName 0 .qWeight ∨ e.1 = attnName 0 .kWeight := by
    have htrue := List.find?_some (p := fun e : String × Tensor α =>
      decide (e.1 = attnName 0 .qWeight) || decide (e.1 = attnName 0 .kWeight)) he
    simpa using htrue
  have hmem := Dict.mem_items.mp (List.mem_of_find?_eq_some he)
  obtain ⟨part, hpart, hweight, hpartName⟩ : ∃ part, (part = .qWeight ∨ part = .kWeight) ∧
      part ∈ weightParts ∧ e.1 = attnName 0 part := by
    rcases hname with h | h
    · exact ⟨.qWeight, .inl rfl, by decide, h⟩
    · exact ⟨.kWeight, .inr rfl, by decide, h⟩
  have hshape := hdec.weights 0 a.numLayers_pos part hweight
  rw [lookup_shapes, ← hpartName, hmem, Option.map_some, Option.some.injEq] at hshape
  have hfirst : firstRows (shapes weights) = a.rows part := by
    rw [firstRows, shapes, Dict.items_mapValues, List.find?_map]
    simp only [Function.comp_def]
    rw [he, Option.map_some, Option.map_some, Option.getD_some, hshape]
    rfl
  exact ⟨part, e.2, hpart, hshape, hfirst, by rw [hsame, he, ← hpartName]⟩

theorem DenseDecoder.detectHeadDim_eq (hdec : DenseDecoder a (shapes weights)) :
    ∃ headDim, detectHeadDim weights (detectedHeads a (shapes weights) .qWeight)
        (detectedHeads a (shapes weights) .kWeight) = some headDim ∧
      headDim.getD 0 = detectedHeadDim a (shapes weights) := by
  unfold detectHeadDim detectedHeadDim detectedHeads
  by_cases hwidth : 0 < embeddingWidth a (shapes weights)
  · simp only [if_pos hwidth, Option.isSome_some, Bool.and_true, Option.getD_some]
    obtain ⟨part, tensor, hpart, hshape, hfirst, hfind⟩ := hdec.exists_first
    rw [hfind, hfirst]
    dsimp only
    rcases hpart with rfl | rfl
    · rw [if_pos (by decide), rowsPer_of_shape hshape]
      refine ⟨_, rfl, ?_⟩
      split_ifs <;> rfl
    · rw [if_neg (by decide), rowsPer_of_shape hshape]
      refine ⟨_, rfl, ?_⟩
      split_ifs <;> rfl
  · simp only [if_neg hwidth, Option.isSome_none, Bool.and_false, Bool.or_self]
    have hnone : (weights.items.find? fun _ => false) = none :=
      List.find?_eq_none.mpr fun _ _ => Bool.false_ne_true
    rw [hnone]
    exact ⟨none, rfl, rfl⟩

theorem le_foldl_max {l : List Nat} {i n : Nat} (h : i ∈ l ∨ i < n) :
    i < l.foldl (fun n i => max n (i + 1)) n := by
  induction l generalizing n with
  | nil => exact h.resolve_left List.not_mem_nil
  | cons j l ih =>
    refine ih ?_
    rcases h with h | h
    · rcases List.mem_cons.mp h with rfl | h
      · exact .inr (Nat.lt_of_lt_of_le (Nat.lt_succ_self i) (Nat.le_max_right ..))
      · exact .inl h
    · exact .inr (Nat.lt_of_lt_of_le h (Nat.le_max_left ..))

/-- Detection sees each of the decoder's layers. -/
theorem DenseDecoder.le_detectNumLayers (hdec : DenseDecoder a (shapes weights)) :
    a.numLayers ≤ detectNumLayers weights := by
  have hlast : a.numLayers - 1 < a.numLayers := Nat.sub_lt a.numLayers_pos Nat.one_pos
  have hlookup := hdec.weights _ hlast .qWeight (by decide)
  have hmem : attnName (a.numLayers - 1) .qWeight ∈ weights :=
    mem_shapes.mp (AList.lookup_isSome.mp (by rw [hlookup]; rfl))
  have hlayer : a.numLayers - 1 ∈ weights.keys.filterMap getLayerId :=
    List.mem_filterMap.mpr ⟨_, hmem, getLayerId_layerName _ _⟩
  have hlt : a.numLayers - 1 < detectNumLayers weights := le_foldl_max (.inl hlayer)
  omega

/-- Detection does not raise, and finds a head size from the shapes. -/
theorem DenseDecoder.detectModelConfig_eq (hdec : DenseDecoder a (shapes weights)) :
    ∃ detected, detectModelConfig weights = some detected ∧
      detected.headDim.getD 0 = detectedHeadDim a (shapes weights) ∧
      a.numLayers ≤ detected.numHiddenLayers := by
  obtain ⟨width, hwidth, hvalue⟩ := hdec.detectHiddenSize_eq
  obtain ⟨headDim, hdetect, hheadDim⟩ := hdec.detectHeadDim_eq
  unfold detectModelConfig
  rw [hwidth]
  simp only [Option.bind_eq_bind, Option.bind_some, hvalue, hdec.detectNumHeads_eq,
    hdec.detectNumKvHeads_eq, hdetect]
  exact ⟨_, rfl, hheadDim, hdec.le_detectNumLayers⟩

end Belayer.Weights
