import Belayer.Weights.QkvLayout

namespace Belayer.Weights

open Belayer.Framework

variable {α : Type} {a : Attention} {arch : Dict String (List Nat)} {tp pp : Nat}
  {lower : String → String} {str : Json → String} {modelConfig : Option Json}

/-! Weights in which each tensor has its first element marked -/

/-- One element at the start and another one after it. -/
def marked (x y : α) (i : Nat) : α := if i = 0 then x else y

/-- The weights of an architecture, all with the same elements in their order. -/
def fillWeights (g : Nat → α) (arch : Dict String (List Nat)) : TensorDict α :=
  arch.mapValues (Tensor.fill g)

theorem shapes_fillWeights (g : Nat → α) (arch : Dict String (List Nat)) :
    shapes (fillWeights g arch) = arch := by
  refine AList.ext ?_
  simp [shapes, fillWeights, Dict.mapValues, Tensor.fill, Function.comp_def]

theorem lookup_fillWeights {g : Nat → α} {name : String} {shape : List Nat}
    (h : arch.lookup name = some shape) :
    (fillWeights g arch).lookup name = some (Tensor.fill g shape) := by
  rw [fillWeights, Dict.lookup_mapValues, h]
  rfl

theorem fill_data_getElem? {g : Nat → α} {n width i : Nat} (h : i < n * width) :
    (Tensor.fill g [n, width]).data[i]? = some (g i) := by
  have hprod : [n, width].prod = n * width := by simp
  rw [Tensor.fill]
  dsimp only
  rw [hprod, range_map_getElem? g h]

/-! The engine's first rank -/

theorem shardSize_pos (htp : 0 < tp) (hheads : tp ∣ a.numHeads) (part : Part) :
    0 < shardSize a tp part := by
  have hq : 0 < a.numHeads / tp := Nat.div_pos (Nat.le_of_dvd a.numHeads_pos hheads) htp
  have hkv : 0 < rankKvHeads a tp := by
    unfold rankKvHeads
    split_ifs with h
    · exact Nat.one_pos
    · exact Nat.div_pos (Nat.le_of_lt (Nat.lt_of_not_le h)) htp
  cases part <;> exact Nat.mul_pos (by assumption) a.headSize_pos

theorem shardSize_le (tp : Nat) (part : Part) : shardSize a tp part ≤ a.rows part := by
  have hkv : rankKvHeads a tp ≤ a.numKvHeads := by
    unfold rankKvHeads
    split_ifs
    · exact a.numKvHeads_pos
    · exact Nat.div_le_self _ _
  have hq : a.numHeads / tp ≤ a.numHeads := Nat.div_le_self _ _
  cases part <;> exact Nat.mul_le_mul_right _ (by assumption)

/-- The first rank has the first rows of a projection. -/
theorem loadedShard_zero (tp : Nat) {part : Part} {t : Tensor α} {inner : List Nat}
    (h : t.shape = a.rows part :: inner) :
    (loadedShard a tp 0 part t).shape = shardSize a tp part :: inner ∧
      (loadedShard a tp 0 part t).data = t.data.take (shardSize a tp part * inner.prod) := by
  have hid : shardId a tp 0 part = 0 := by cases part <;> simp [shardId]
  have hslice := Tensor.slice_rows_of_le h (Nat.zero_le _) (shardSize_le tp part)
  rw [Nat.sub_zero, Nat.zero_mul, List.drop_zero] at hslice
  rwa [loadedShard, hid, Nat.zero_mul, Nat.zero_add]

/-- A plain split of Q, K and V over several ranks is not the engine's: either the first rank
has other rows, or it has a row of Q where the engine has the first one of K. -/
theorem ne_of_split {x y : α} {q k v t expected : Tensor α} (hxy : x ≠ y) (htp : 1 < tp)
    (hheads : tp ∣ a.numHeads)
    (hq : q = Tensor.fill (marked x y) [a.numHeads * a.headSize, a.hiddenSize])
    (hk : k = Tensor.fill (marked x y) [a.numKvHeads * a.headSize, a.hiddenSize])
    (hv : v.shape = [a.numKvHeads * a.headSize, a.hiddenSize])
    (ht : Tensor.cat [q, k, v] = some t)
    (hexpected : Tensor.cat [loadedShard a tp 0 .qWeight q, loadedShard a tp 0 .kWeight k,
      loadedShard a tp 0 .vWeight v] = some expected) :
    (if fusedRows a % tp = 0 then t.slice 0 (0 * (fusedRows a / tp)) ((0 + 1) * (fusedRows a / tp))
      else t) ≠ expected := by
  have hpos : 0 < tp := Nat.zero_lt_of_lt htp
  have hqSize := shardSize_pos hpos hheads .qWeight
  have hkSize := shardSize_pos hpos hheads .kWeight
  have hkLe : shardSize a tp .kWeight ≤ a.numKvHeads * a.headSize := shardSize_le tp .kWeight
  have hqLt : shardSize a tp .qWeight < a.numHeads * a.headSize :=
    Nat.mul_lt_mul_of_pos_right (Nat.div_lt_self a.numHeads_pos htp) a.headSize_pos
  have hE := a.hiddenSize_pos
  have hqShape : q.shape = a.rows .qWeight :: [a.hiddenSize] := by rw [hq]; rfl
  have hkShape : k.shape = a.rows .kWeight :: [a.hiddenSize] := by rw [hk]; rfl
  have hvShape : v.shape = a.rows .vWeight :: [a.hiddenSize] := hv
  obtain ⟨hqRows, hqData⟩ := loadedShard_zero tp hqShape
  obtain ⟨hkRows, hkData⟩ := loadedShard_zero tp hkShape
  obtain ⟨hvRows, -⟩ := loadedShard_zero tp hvShape
  obtain ⟨hshape, hdata⟩ := Tensor.cat_three ht hqShape hkShape hvShape
  obtain ⟨heshape, hedata⟩ := Tensor.cat_three hexpected hqRows hkRows hvRows
  have hrows : fusedRows a = a.rows .qWeight + a.rows .kWeight + a.rows .vWeight := rfl
  have hvSize : shardSize a tp .vWeight = shardSize a tp .kWeight := rfl
  rw [← hrows] at hshape
  split_ifs with hmod
  · rw [Nat.zero_mul, Nat.zero_add, Nat.one_mul]
    intro heq
    obtain ⟨hsliced, hslice⟩ := Tensor.slice_rows_of_le hshape (Nat.zero_le _)
      (Nat.div_le_self (fusedRows a) tp)
    rw [Nat.sub_zero, Nat.zero_mul, List.drop_zero] at hslice
    rw [Nat.sub_zero, heq, heshape, List.cons.injEq] at hsliced
    -- the element after the rows of Q: one of Q in the split, the first one of K in the engine
    have hindex : shardSize a tp .qWeight * a.hiddenSize <
        a.numHeads * a.headSize * a.hiddenSize := Nat.mul_lt_mul_of_pos_right hqLt hE
    have hsplit : (t.slice 0 0 (fusedRows a / tp)).data[shardSize a tp .qWeight * a.hiddenSize]? =
        some y := by
      have hin : shardSize a tp .qWeight * a.hiddenSize < fusedRows a / tp * a.hiddenSize := by
        refine Nat.mul_lt_mul_of_pos_right ?_ hE
        omega
      have hq' : shardSize a tp .qWeight * a.hiddenSize < q.data.length := by
        rw [Tensor.length_data_of_shape hqShape, List.prod_singleton]
        exact hindex
      rw [hslice, List.prod_singleton, List.getElem?_take_of_lt hin, hdata,
        List.getElem?_append_left hq', hq, fill_data_getElem? hindex, marked,
        if_neg (Nat.pos_iff_ne_zero.mp (Nat.mul_pos hqSize hE))]
    have hengine : expected.data[shardSize a tp .qWeight * a.hiddenSize]? = some x := by
      have hlength : (loadedShard a tp 0 .qWeight q).data.length =
          shardSize a tp .qWeight * a.hiddenSize := by
        rw [Tensor.length_data_of_shape hqRows, List.prod_singleton]
      have hfirst : 0 < (loadedShard a tp 0 .kWeight k).data.length := by
        rw [Tensor.length_data_of_shape hkRows, List.prod_singleton]
        exact Nat.mul_pos hkSize hE
      have hin : 0 < shardSize a tp .kWeight * a.hiddenSize := Nat.mul_pos hkSize hE
      rw [hedata, ← hlength, List.getElem?_append_right (Nat.le_refl _), Nat.sub_self,
        List.getElem?_append_left hfirst, hkData, List.prod_singleton,
        List.getElem?_take_of_lt hin, hk,
        fill_data_getElem? (Nat.lt_of_lt_of_le hin (Nat.mul_le_mul_right _ hkLe)), marked,
        if_pos rfl]
    rw [heq, hengine] at hsplit
    exact hxy (Option.some.inj hsplit)
  · intro heq
    rw [heq, heshape, List.cons.injEq] at hshape
    have hkRowsLe : shardSize a tp .kWeight ≤ a.rows .kWeight := hkLe
    have hqRowsLt : shardSize a tp .qWeight < a.rows .qWeight := hqLt
    have hvRows : a.rows .vWeight = a.rows .kWeight := rfl
    omega

/-! The head size -/

/-- A fused tensor of the decoder is only split where there is a head size. -/
theorem exists_resolveHeadDim {t : Tensor α} {headDim : Json} {shards : List (Tensor α)}
    (h : shardQkvFused t tp (.int a.numHeads) (.int a.numKvHeads) (.int a.hiddenSize) headDim =
      some shards) :
    ∃ size, resolveHeadDim (.int a.numHeads) (.int a.hiddenSize) headDim = some size := by
  unfold shardQkvFused at h
  rw [if_neg (not_isZero_sizes a headDim)] at h
  obtain ⟨size, hsize, -⟩ := Option.bind_eq_some_iff.mp h
  exact ⟨size, hsize⟩

/-- Over several ranks only the head size of the rows gives the engine's shards. -/
theorem headSizeGiven_of_qkvMatches [Nontrivial α]
    (hdec : DenseDecoder a (normalizeWeightNames lower str arch modelConfig))
    (hconfig : GivesHeads a modelConfig) (hlower : KeepsLower lower) (htp : 1 < tp)
    (hheads : tp ∣ a.numHeads)
    (h : ∀ weights : TensorDict α, shapes weights = arch →
      QkvMatches lower str a weights tp pp modelConfig) :
    HeadSizeGiven a (normalizeWeightNames lower str arch modelConfig) modelConfig := by
  obtain ⟨x, y, hxy⟩ := exists_pair_ne α
  have hpos : 0 < tp := Nat.zero_lt_of_lt htp
  have hne : tp ≠ 1 := Nat.ne_of_gt htp
  have hnames : normalizeWeightNames lower str (fillWeights (marked x y) arch) modelConfig =
      fillWeights (marked x y) (normalizeWeightNames lower str arch modelConfig) :=
    normalizeWeightNames_mapValues lower str _ arch modelConfig
  have hshapes : shapes (normalizeWeightNames lower str (fillWeights (marked x y) arch)
      modelConfig) = normalizeWeightNames lower str arch modelConfig := by
    rw [hnames, shapes_fillWeights]
  have hfilled := hdec
  rw [← hshapes] at hfilled
  obtain ⟨packed, detected, hpack, hheadDim, -, hprepare⟩ := hfilled.exists_prepareWeights
  rw [hshapes] at hheadDim
  -- the projections of the first layer, and what the engine has of them on the first rank
  have hlookup : ∀ part ∈ weightParts, (normalizeWeightNames lower str
      (fillWeights (marked x y) arch) modelConfig).lookup (attnName 0 part) =
        some (Tensor.fill (marked x y) (a.rows part :: a.inner part)) := by
    intro part hpart
    rw [hnames]
    exact lookup_fillWeights (hdec.weights 0 a.numLayers_pos part hpart)
  have hparts : (Fused.qkvWeight.parts.mapM fun part => (normalizeWeightNames lower str
      (fillWeights (marked x y) arch) modelConfig).lookup (attnName 0 part)) =
        some [Tensor.fill (marked x y) [a.rows .qWeight, a.hiddenSize],
          Tensor.fill (marked x y) [a.rows .kWeight, a.hiddenSize],
          Tensor.fill (marked x y) [a.rows .vWeight, a.hiddenSize]] :=
    mapM_triple_eq_some_iff.mpr ⟨_, _, _, hlookup .qWeight (by decide),
      hlookup .kWeight (by decide), hlookup .vWeight (by decide), rfl⟩
  obtain ⟨t, ht, hfused⟩ := hfilled.lookup_fused hpack (.inl rfl) hparts
  obtain ⟨hshape, -⟩ := Tensor.cat_three ht rfl rfl rfl
  have hloaded : ∀ part, ∃ n, (loadedShard a tp 0 part
      (Tensor.fill (marked x y) [a.rows part, a.hiddenSize])).shape = n :: [a.hiddenSize] :=
    fun part => ⟨_, (loadedShard_zero tp rfl).1⟩
  obtain ⟨expected, hexpected, -⟩ := Tensor.cat_of_shapes (List.cons_ne_nil _ _)
    (List.forall_mem_cons.mpr ⟨hloaded .qWeight, List.forall_mem_cons.mpr
      ⟨hloaded .kWeight, List.forall_mem_singleton.mpr (hloaded .vWeight)⟩⟩)
  -- what resharding has there
  obtain ⟨sharded, hreshard, hranks⟩ := h _ (shapes_fillWeights (marked x y) arch)
  obtain ⟨p, hp, hmatches⟩ := hranks 0 a.numLayers_pos 0 hpos
  have hengine := hmatches .qkvWeight (by simp) expected
    ((engineShard_eq_some_iff (by simp)).mpr ⟨_, _, _, hparts, hexpected⟩)
  rw [reshardWeights, hprepare] at hreshard
  obtain ⟨numLayers, -, -, hspec⟩ := shardWeights_spec (fun hone => hne hone.1) hreshard
  rw [hspec p hp 0 hpos] at hengine
  split_ifs at hengine with hmem
  rw [hfused, Option.bind_some, rankShard, hconfig.shardConfig_eq] at hengine
  dsimp only at hengine
  rw [shardForTp_fused hlower (by simp) hne] at hengine
  obtain ⟨shards, hshards, hfirst⟩ := Option.bind_eq_some_iff.mp hengine
  obtain ⟨size, hsize⟩ := exists_resolveHeadDim hshards
  refine (resolveHeadDim_iff hheadDim).mp ?_
  rw [hsize]
  by_contra hwrong
  rw [shardQkvFused_of_ne hshape hsize fun heq => hwrong (congrArg some heq)] at hshards
  have hget : t.shape[0]? = some (fusedRows a) := by rw [hshape]; rfl
  have hrows : 0 < fusedRows a := by
    have hq := Nat.mul_pos a.numHeads_pos a.headSize_pos
    unfold fusedRows
    omega
  obtain ⟨split, hsplit, -, heach⟩ := exists_shardParallel hget hrows hpos
  obtain rfl := Option.some.inj (hsplit.symm.trans hshards)
  rw [heach 0 hpos, Option.some.injEq] at hfirst
  exact ne_of_split hxy htp hheads rfl rfl rfl ht hexpected hfirst

/-- Each rank has the engine's heads of Q, K and V, whatever the weights are, exactly with a
single rank in the tensor group or with the head size of the rows. -/
theorem qkvMatches_iff [Nontrivial α]
    (hdec : DenseDecoder a (normalizeWeightNames lower str arch modelConfig))
    (hconfig : GivesHeads a modelConfig) (hlower : KeepsLower lower) (htp : 0 < tp) (hpp : 0 < pp)
    (hheads : tp ∣ a.numHeads) (hkv : tp ∣ a.numKvHeads ∨ a.numKvHeads ∣ tp) :
    (∀ weights : TensorDict α, shapes weights = arch →
        QkvMatches lower str a weights tp pp modelConfig) ↔
      tp = 1 ∨ HeadSizeGiven a (normalizeWeightNames lower str arch modelConfig) modelConfig := by
  constructor
  · intro h
    by_cases hone : tp = 1
    · exact .inl hone
    · exact .inr (headSizeGiven_of_qkvMatches hdec hconfig hlower (by omega) hheads h)
  · intro hsize weights hweights
    have hshapes : shapes (normalizeWeightNames lower str weights modelConfig) =
        normalizeWeightNames lower str arch modelConfig := by
      rw [← hweights, shapes, shapes, normalizeWeightNames_mapValues]
    rw [← hshapes] at hdec hsize
    exact qkvMatches_of_headSizeGiven hdec hconfig hlower htp hpp hheads hkv hsize

/-- Two heads of two rows each, as many of K and of V. -/
def twoHeads : Attention where
  numLayers := 1
  numHeads := 2
  numKvHeads := 2
  headSize := 2
  hiddenSize := 4
  numLayers_pos := Nat.one_pos
  numHeads_pos := Nat.two_pos
  numKvHeads_pos := Nat.two_pos
  headSize_pos := Nat.two_pos
  hiddenSize_pos := by decide

def twoHeadsArch : Dict String (List Nat) :=
  [("model.embed_tokens.weight", [8, 4]), ("model.layers.0.self_attn.q_proj.weight", [4, 4]),
    ("model.layers.0.self_attn.k_proj.weight", [4, 4]),
    ("model.layers.0.self_attn.v_proj.weight", [4, 4])].foldl (fun d e => d.set e.1 e.2) ∅

/-- A config without a head size. -/
def twoHeadsConfig : Option Json :=
  some (.obj [("num_hidden_layers", .int 1), ("num_attention_heads", .int 2),
    ("num_key_value_heads", .int 2), ("hidden_size", .int 4)])

theorem normalize_twoHeads :
    normalizeWeightNames (fun s => s) (fun _ => "") twoHeadsArch twoHeadsConfig = twoHeadsArch :=
  AList.ext (by decide)

theorem denseDecoder_twoHeads : DenseDecoder twoHeads twoHeadsArch where
  weights := by decide
  biases := by decide
  attention := by
    intro name hname hid part hpart hof
    obtain ⟨shape, hshape⟩ := Option.isSome_iff_exists.mp (AList.lookup_isSome.mpr hname)
    have hall : ∀ e ∈ twoHeadsArch.items, ∀ part ∈ weightParts ++ biasParts,
        Part.of e.1 = some part → e.1 = attnName 0 part := by decide
    exact ⟨0, by decide, hall (name, shape) (Dict.mem_items.mpr hshape) part hpart hof⟩
  gateUp := by
    intro name shape hshape hid part hpart hof
    have hnone : ∀ e ∈ twoHeadsArch.items, ∀ part ∈ mlpParts, Part.of e.1 ≠ some part := by decide
    exact absurd hof (hnone (name, shape) (Dict.mem_items.mpr hshape) part hpart)
  regular := by
    intro name shape hshape
    have hall : ∀ e ∈ twoHeadsArch.items,
        e.2 ≠ [] ∧ 0 ∉ e.2 ∧ (isRowParallel e.1 = true → 2 ≤ e.2.length) := by decide
    exact hall (name, shape) (Dict.mem_items.mpr hshape)
  embedding := by
    intro name shape hshape hembedding
    have hall : ∀ e ∈ twoHeadsArch.items, isEmbedding e.1 = true → e.2 = [8, 4] := by decide
    exact ⟨8, hall (name, shape) (Dict.mem_items.mpr hshape) hembedding⟩

theorem givesHeads_twoHeads : GivesHeads twoHeads twoHeadsConfig where
  numHeads := rfl
  numKvHeads := rfl
  hiddenSize := rfl
  numLayers := by
    intro v hv
    exact (Option.some.inj hv).symm

theorem qkvMatches_iff_twoHeads :
    (∀ weights : TensorDict Bool, shapes weights = twoHeadsArch →
        QkvMatches (fun s => s) (fun _ => "") twoHeads weights 2 1 twoHeadsConfig) ↔
      2 = 1 ∨ HeadSizeGiven twoHeads (normalizeWeightNames (fun s => s) (fun _ => "") twoHeadsArch
        twoHeadsConfig) twoHeadsConfig :=
  qkvMatches_iff (by rw [normalize_twoHeads]; exact denseDecoder_twoHeads) givesHeads_twoHeads
    (fun _ _ => rfl) (by decide) (by decide) (by decide) (by decide)

/-- With the embedding table among the weights the head size is taken to be the hidden size,
and Q, K and V are split as one tensor. -/
theorem not_qkvMatches_twoHeads :
    ¬∀ weights : TensorDict Bool, shapes weights = twoHeadsArch →
      QkvMatches (fun s => s) (fun _ => "") twoHeads weights 2 1 twoHeadsConfig := by
  intro h
  have hdec : DenseDecoder twoHeads
      (normalizeWeightNames (fun s => s) (fun _ => "") twoHeadsArch twoHeadsConfig) := by
    rw [normalize_twoHeads]
    exact denseDecoder_twoHeads
  have hgiven := headSizeGiven_of_qkvMatches hdec givesHeads_twoHeads (fun _ _ => rfl) (by decide)
    (by decide) h
  rw [normalize_twoHeads] at hgiven
  have hdetected : detectedHeadDim twoHeads twoHeadsArch = 4 := by decide
  have habsent : (extractDecoderConfig twoHeadsConfig).get "head_dim" = none := rfl
  rw [HeadSizeGiven, habsent] at hgiven
  dsimp only at hgiven
  rw [hdetected] at hgiven
  revert hgiven
  decide

end Belayer.Weights
