import Belayer.Weights.QkvShards

namespace Belayer.Weights

open Belayer.Framework

section Shapes

variable {β γ : Type}

theorem normalizeWeightNames_mapValues (lower : String → String) (str : Json → String) (f : β → γ)
    (weights : Dict String β) (modelConfig : Option Json) :
    normalizeWeightNames lower str (weights.mapValues f) modelConfig =
      (normalizeWeightNames lower str weights modelConfig).mapValues f := by
  have hfold : ∀ (l : List (String × β)) (normalized : Dict String β),
      (l.map fun e => (e.1, f e.2)).foldl (fun normalized e =>
          normalized.set (normalizeSingleWeightName lower str e.1 modelConfig) e.2)
          (normalized.mapValues f) =
        (l.foldl (fun normalized e =>
          normalized.set (normalizeSingleWeightName lower str e.1 modelConfig) e.2)
          normalized).mapValues f := by
    intro l
    induction l with
    | nil => exact fun _ => rfl
    | cons e l ih =>
      intro normalized
      rw [List.map_cons, List.foldl_cons, List.foldl_cons, ← Dict.mapValues_set, ih]
  rw [normalizeWeightNames, Dict.items_mapValues]
  exact hfold weights.items ∅

end Shapes

variable {α : Type} {a : Attention} {arch : Dict String (List Nat)} {tp pp : Nat}
  {lower : String → String} {str : Json → String} {modelConfig : Option Json}

/-- A config that gives the decoder's head counts and hidden size; where it gives a layer count,
this is the decoder's. -/
structure GivesHeads (a : Attention) (modelConfig : Option Json) : Prop where
  numHeads : (extractDecoderConfig modelConfig).get "num_attention_heads" = some (.int a.numHeads)
  numKvHeads :
    (extractDecoderConfig modelConfig).get "num_key_value_heads" = some (.int a.numKvHeads)
  hiddenSize : (extractDecoderConfig modelConfig).get "hidden_size" = some (.int a.hiddenSize)
  numLayers : ∀ v, (extractDecoderConfig modelConfig).get "num_hidden_layers" = some v →
    v = .int a.numLayers

/-- The head size that the config gives is that of the rows. Where it gives none, this is so of
the head size that detection makes of the shapes, and where that is none either, of the hidden
size over the head count. -/
def HeadSizeGiven (a : Attention) (arch : Dict String (List Nat)) (modelConfig : Option Json) :
    Prop :=
  match (extractDecoderConfig modelConfig).get "head_dim" with
  | some v =>
    if v.truthy then number v = some (a.headSize : Int) else a.hiddenSize / a.numHeads = a.headSize
  | none =>
    if detectedHeadDim a arch = 0 then a.hiddenSize / a.numHeads = a.headSize
    else detectedHeadDim a arch = a.headSize

/-- Resharding a decoder does not raise, and each rank of the tensor group has the fused weight
and bias of each layer as the engine lays them out, at the layer's rank of the pipeline. -/
def QkvMatches (lower : String → String) (str : Json → String) (a : Attention)
    (weights : TensorDict α) (tp pp : Nat) (modelConfig : Option Json) : Prop :=
  ∃ sharded, reshardWeights lower str weights tp pp modelConfig = some sharded ∧
    ∀ layer < a.numLayers, ∀ tpRank < tp, ∃ ppRank < pp,
      ∀ fused ∈ [Fused.qkvWeight, .qkvBias], ∀ shard,
        engineShard a tp tpRank layer fused (normalizeWeightNames lower str weights modelConfig) =
            some shard →
          (shardOf sharded tp ppRank tpRank).lookup (fusedName layer fused) = some shard

/-! The projections of a layer -/

variable {weights packed : TensorDict α} {layer tpRank : Nat} {fused : Fused} {shard : Tensor α}

theorem mem_attention (hfused : fused ∈ [Fused.qkvWeight, .qkvBias]) :
    ∀ part ∈ fused.parts, part ∈ weightParts ++ biasParts := by
  revert fused
  decide

/-- The projections that an engine's shard is made of. -/
theorem engineShard_eq_some_iff (hfused : fused ∈ [Fused.qkvWeight, .qkvBias]) :
    engineShard a tp tpRank layer fused weights = some shard ↔
      ∃ q k v, (fused.parts.mapM fun part => weights.lookup (attnName layer part)) =
          some [q, k, v] ∧
        Tensor.cat [loadedShard a tp tpRank .qWeight q, loadedShard a tp tpRank .kWeight k,
          loadedShard a tp tpRank .vWeight v] = some shard := by
  have hparts : ∃ p₁ p₂ p₃, fused.parts = [p₁, p₂, p₃] ∧
      (∀ t : Tensor α, loadedShard a tp tpRank p₁ t = loadedShard a tp tpRank .qWeight t) ∧
      (∀ t : Tensor α, loadedShard a tp tpRank p₂ t = loadedShard a tp tpRank .kWeight t) ∧
      ∀ t : Tensor α, loadedShard a tp tpRank p₃ t = loadedShard a tp tpRank .vWeight t := by
    simp only [List.mem_cons, List.not_mem_nil, or_false] at hfused
    rcases hfused with rfl | rfl
    · exact ⟨.qWeight, .kWeight, .vWeight, rfl, fun _ => rfl, fun _ => rfl, fun _ => rfl⟩
    · exact ⟨.qBias, .kBias, .vBias, rfl, fun _ => rfl, fun _ => rfl, fun _ => rfl⟩
  obtain ⟨p₁, p₂, p₃, hlist, hq, hk, hv⟩ := hparts
  unfold engineShard
  rw [hlist, Option.bind_eq_bind, Option.bind_eq_some_iff]
  constructor
  · rintro ⟨parts, hparts, hcat⟩
    obtain ⟨_, _, _, h₁, h₂, h₃, rfl⟩ := mapM_triple_eq_some_iff.mp hparts
    obtain ⟨q, hq', rfl⟩ := Option.map_eq_some_iff.mp h₁
    obtain ⟨k, hk', rfl⟩ := Option.map_eq_some_iff.mp h₂
    obtain ⟨v, hv', rfl⟩ := Option.map_eq_some_iff.mp h₃
    rw [hq, hk, hv] at hcat
    exact ⟨q, k, v, mapM_triple_eq_some_iff.mpr ⟨q, k, v, hq', hk', hv', rfl⟩, hcat⟩
  · rintro ⟨q, k, v, hparts, hcat⟩
    obtain ⟨_, _, _, h₁, h₂, h₃, heq⟩ := mapM_triple_eq_some_iff.mp hparts
    cases heq
    rw [← hq, ← hk, ← hv] at hcat
    exact ⟨_, mapM_triple_eq_some_iff.mpr ⟨_, _, _, by rw [h₁]; rfl, by rw [h₂]; rfl,
      by rw [h₃]; rfl, rfl⟩, hcat⟩

/-- The shapes of a layer's projections: one row shape, and the rows of the heads. -/
theorem DenseDecoder.shapes_of_projections (hdec : DenseDecoder a (shapes weights))
    (hlayer : layer < a.numLayers) (hfused : fused ∈ [Fused.qkvWeight, .qkvBias])
    {q k v : Tensor α} (hparts : (fused.parts.mapM fun part =>
      weights.lookup (attnName layer part)) = some [q, k, v]) :
    ∃ inner, q.shape = a.numHeads * a.headSize :: inner ∧
      k.shape = a.numKvHeads * a.headSize :: inner ∧
      v.shape = a.numKvHeads * a.headSize :: inner := by
  have hattention := mem_attention hfused
  simp only [List.mem_cons, List.not_mem_nil, or_false] at hfused
  rcases hfused with rfl | rfl
  all_goals
    obtain ⟨_, _, _, hq, hk, hv, heq⟩ := mapM_triple_eq_some_iff.mp hparts
    cases heq
    exact ⟨_, hdec.shape_of_lookup hlayer (hattention _ (by simp [Fused.parts])) hq,
      hdec.shape_of_lookup hlayer (hattention _ (by simp [Fused.parts])) hk,
      hdec.shape_of_lookup hlayer (hattention _ (by simp [Fused.parts])) hv⟩

/-- A fused tensor of the heads' projections is cut into them again. -/
theorem headShards_cat (tp tpRank : Nat) {q k v : Tensor α} {inner : List Nat}
    (hcat : Tensor.cat [q, k, v] = some shard) (hq : q.shape = a.numHeads * a.headSize :: inner)
    (hk : k.shape = a.numKvHeads * a.headSize :: inner)
    (hv : v.shape = a.numKvHeads * a.headSize :: inner) :
    shard.shape = fusedRows a :: inner ∧ headShards a tp tpRank shard =
      [loadedShard a tp tpRank .qWeight q, loadedShard a tp tpRank .kWeight k,
        loadedShard a tp tpRank .vWeight v] := by
  have hshapes : ∀ t ∈ [q, k, v], ∃ n, t.shape = n :: inner :=
    List.forall_mem_cons.mpr ⟨⟨_, hq⟩, List.forall_mem_cons.mpr ⟨⟨_, hk⟩,
      List.forall_mem_singleton.mpr ⟨_, hv⟩⟩⟩
  have hqRows : q.rows = a.numHeads * a.headSize := by rw [Tensor.rows, hq]; rfl
  have hkRows : k.rows = a.numKvHeads * a.headSize := by rw [Tensor.rows, hk]; rfl
  have hvRows : v.rows = a.numKvHeads * a.headSize := by rw [Tensor.rows, hv]; rfl
  obtain ⟨hshape, -⟩ := Tensor.cat_three hcat hq hk hv
  have hqSlice := Tensor.slice_cat (l := []) hcat hshapes
  have hkSlice := Tensor.slice_cat (l := [q]) hcat hshapes
  have hvSlice := Tensor.slice_cat (l := [q, k]) hcat hshapes
  simp only [List.map_cons, List.map_nil, List.sum_cons, List.sum_nil, hqRows, hkRows, hvRows,
    Nat.zero_add, Nat.add_zero] at hqSlice hkSlice hvSlice
  exact ⟨hshape, by rw [headShards, hqSlice, hkSlice, hvSlice]⟩

/-- A single rank has all of a projection. -/
theorem loadedShard_one {part : Part} {t : Tensor α} {inner : List Nat}
    (h : t.shape = a.rows part :: inner) : loadedShard a 1 0 part t = t := by
  have hsize : shardSize a 1 part = a.rows part := by
    have hheads : rankKvHeads a 1 = a.numKvHeads := by
      have hpos := a.numKvHeads_pos
      unfold rankKvHeads
      split_ifs
      · omega
      · exact Nat.div_one _
    cases part <;> simp [shardSize, Attention.rows, hheads]
  have hid : shardId a 1 0 part = 0 := by cases part <;> simp [shardId]
  obtain ⟨hshape, hdata⟩ := Tensor.slice_rows_of_le h (Nat.zero_le _) (Nat.le_refl _)
  rw [loadedShard, hid, hsize, Nat.zero_mul, Nat.zero_add]
  refine Tensor.ext_data (by rw [hshape, h, Nat.sub_zero]) ?_
  rw [hdata, Nat.zero_mul, List.drop_zero, Nat.sub_zero, ← Tensor.length_data_of_shape h,
    List.take_length]

/-! The fused names and the head size -/

/-- What `str.lower` does to a text of which no character is an upper-case letter. -/
def KeepsLower (lower : String → String) : Prop :=
  ∀ s : String, (s.toList.all fun c => c.toNat < 128 && !c.isUpper) = true → lower s = s

theorem shouldNotShard_fusedName (hlower : KeepsLower lower)
    (hfused : fused ∈ [Fused.qkvWeight, .qkvBias]) :
    shouldNotShard lower (fusedName layer fused) = false := by
  have hkeep : lower (fusedName layer fused) = fusedName layer fused := by
    have hends : ∀ fused ∈ [Fused.qkvWeight, .qkvBias], (("model.layers.".toList ++
        '.' :: (fused.path ++ fused.text).toList).all fun c => c.toNat < 128 && !c.isUpper) = true := by
      decide
    have hdigits : ∀ c ∈ Nat.toDigits 10 layer, (c.toNat < 128 && !c.isUpper) = true := by
      intro c hc
      have hdigit := isDigit_of_mem hc
      rw [Char.isDigit, Bool.and_eq_true, decide_eq_true_iff, decide_eq_true_iff] at hdigit
      have hle : c.toNat ≤ 57 := UInt32.le_iff_toNat_le.mp hdigit.2
      have hupper : ¬c.val ≥ 'A'.val := fun h =>
        absurd ((UInt32.le_iff_toNat_le.mp h).trans hle) (by decide)
      have hnot : c.isUpper = false := decide_eq_false fun h => hupper h.1
      rw [hnot, Bool.not_false, Bool.and_true, decide_eq_true_iff]
      exact Nat.lt_of_le_of_lt hle (by decide)
    refine hlower _ (List.all_eq_true.mpr fun c hc => ?_)
    rw [fusedName_eq, toList_layerName, List.append_assoc, List.mem_append, List.mem_append] at hc
    rcases hc with hc | hc | hc
    · exact List.all_eq_true.mp (hends fused hfused) c (List.mem_append_left _ hc)
    · exact hdigits c hc
    · exact List.all_eq_true.mp (hends fused hfused) c (List.mem_append_right _ hc)
  have htexts : ∀ text ∈ ["layernorm", "layer_norm", "ln_", "norm.weight", ".norm.bias",
      "input_layernorm", "post_attention_layernorm"],
      text ≠ "" ∧ (text.toList.all fun c => !c.isDigit) ∧ ∀ fused ∈ [Fused.qkvWeight, .qkvBias],
        Text.contains text (layerName 0 (fused.path ++ fused.text)) = false := by decide
  rw [shouldNotShard, hkeep, List.any_eq_false]
  intro text htext
  obtain ⟨hne, hdigits, hzero⟩ := htexts text htext
  rw [fusedName_eq, contains_layerName hne hdigits, hzero fused hfused]
  exact Bool.false_ne_true

/-- Over several ranks a fused attention tensor is split by heads. -/
theorem shardForTp_fused (hlower : KeepsLower lower) (hfused : fused ∈ [Fused.qkvWeight, .qkvBias])
    (htp : tp ≠ 1) (t : Tensor α) (numHeads numKvHeads hiddenSize headDim : Json) :
    shardForTp lower (fusedName layer fused) t tp numHeads numKvHeads hiddenSize headDim =
      shardQkvFused t tp numHeads numKvHeads hiddenSize headDim := by
  have hcontains : ∀ text : String, text ≠ "" → (text.toList.all fun c => !c.isDigit) = true →
      Text.contains text (fusedName layer fused) =
        Text.contains text (layerName 0 (fused.path ++ fused.text)) := by
    intro text hne hdigits
    rw [fusedName_eq, contains_layerName hne hdigits]
  rw [shardForTp, if_neg htp, shouldNotShard_fusedName hlower hfused, if_neg Bool.false_ne_true,
    hcontains "qkv_proj.weight" (by decide) (by decide),
    hcontains "qkv_proj.bias" (by decide) (by decide)]
  simp only [List.mem_cons, List.not_mem_nil, or_false] at hfused
  rcases hfused with rfl | rfl
  · rw [if_pos (by decide)]
  · rw [if_neg (by decide), if_pos (by decide)]

/-- The numbers that a decoder's config leads to. -/
theorem GivesHeads.shardConfig_eq (hconfig : GivesHeads a modelConfig) (detected : DetectedConfig) :
    shardConfig modelConfig detected =
      { numLayers := ((extractDecoderConfig modelConfig).get "num_hidden_layers").getD
          (.int detected.numHiddenLayers)
        numHeads := .int a.numHeads
        numKvHeads := .int a.numKvHeads
        hiddenSize := .int a.hiddenSize
        headDim := ((extractDecoderConfig modelConfig).get "head_dim").getD
          (.int (detected.headDim.getD 0 : Nat)) } := by
  rw [shardConfig]
  simp only [hconfig.numHeads, hconfig.numKvHeads, hconfig.hiddenSize, Option.getD_some]

theorem resolveHeadDim_iff {detected : DetectedConfig}
    (hdetected : detected.headDim.getD 0 = detectedHeadDim a arch) :
    resolveHeadDim (.int a.numHeads) (.int a.hiddenSize)
        (((extractDecoderConfig modelConfig).get "head_dim").getD
          (.int (detected.headDim.getD 0 : Nat))) = some (a.headSize : Int) ↔
      HeadSizeGiven a arch modelConfig := by
  have hquotient : Int.fdiv (a.hiddenSize : Int) a.numHeads = (a.headSize : Int) ↔
      a.hiddenSize / a.numHeads = a.headSize := by
    rw [← Int.ofNat_fdiv]
    exact Int.ofNat_inj
  unfold HeadSizeGiven
  cases (extractDecoderConfig modelConfig).get "head_dim" with
  | some v =>
    simp only [Option.getD_some, resolveHeadDim]
    split_ifs
    · rfl
    · simpa [number] using hquotient
  | none =>
    simp only [Option.getD_none, resolveHeadDim, hdetected, Json.truthy]
    by_cases hzero : detectedHeadDim a arch = 0
    · simpa [hzero, number] using hquotient
    · simp [hzero, number]

/-! Resharding -/

/-- What is sharded of a decoder, and with which numbers. -/
theorem DenseDecoder.exists_prepareWeights
    (hdec : DenseDecoder a (shapes (normalizeWeightNames lower str weights modelConfig))) :
    ∃ packed detected,
      packLayers (normalizeWeightNames lower str weights modelConfig) = some packed ∧
      detected.headDim.getD 0 =
        detectedHeadDim a (shapes (normalizeWeightNames lower str weights modelConfig)) ∧
      a.numLayers ≤ detected.numHiddenLayers ∧
      prepareWeights lower str weights modelConfig =
        some (packed, shardConfig modelConfig detected) := by
  obtain ⟨detected, hdetect, hheadDim, hle⟩ := hdec.detectModelConfig_eq
  obtain ⟨packed, hpack⟩ := hdec.exists_packLayers
  refine ⟨packed, detected, hpack, hheadDim, hle, ?_⟩
  unfold prepareWeights
  dsimp only
  rw [hdetect, hpack]
  rfl

theorem GivesHeads.exists_numLayers (hconfig : GivesHeads a modelConfig) {detected : DetectedConfig}
    (hle : a.numLayers ≤ detected.numHiddenLayers) :
    ∃ numLayers : Nat, number (shardConfig modelConfig detected).numLayers = some (numLayers : Int) ∧
      a.numLayers ≤ numLayers := by
  rw [hconfig.shardConfig_eq]
  cases hget : (extractDecoderConfig modelConfig).get "num_hidden_layers" with
  | none => exact ⟨detected.numHiddenLayers, rfl, hle⟩
  | some v =>
    rw [hconfig.numLayers v hget]
    exact ⟨a.numLayers, rfl, Nat.le_refl _⟩

/-- With the head size of the rows each rank has the heads of the engine. -/
theorem qkvMatches_of_headSizeGiven
    (hdec : DenseDecoder a (shapes (normalizeWeightNames lower str weights modelConfig)))
    (hconfig : GivesHeads a modelConfig) (hlower : KeepsLower lower) (htp : 0 < tp) (hpp : 0 < pp)
    (hheads : tp ∣ a.numHeads) (hkv : tp ∣ a.numKvHeads ∨ a.numKvHeads ∣ tp)
    (hsize : tp = 1 ∨ HeadSizeGiven a
      (shapes (normalizeWeightNames lower str weights modelConfig)) modelConfig) :
    QkvMatches lower str a weights tp pp modelConfig := by
  obtain ⟨packed, detected, hpack, hheadDim, hle, hprepare⟩ := hdec.exists_prepareWeights
  obtain ⟨numLayers, hnumber, hlayers⟩ := hconfig.exists_numLayers hle
  have hresolve := hsize.imp_right (resolveHeadDim_iff hheadDim).mpr
  have hsplit : ∀ name t, packed.lookup name = some t → IsSplit tp (shardForTp lower name t tp
      (shardConfig modelConfig detected).numHeads (shardConfig modelConfig detected).numKvHeads
      (shardConfig modelConfig detected).hiddenSize (shardConfig modelConfig detected).headDim) := by
    intro name t ht
    obtain ⟨rows, inner, hrows, hshape, hinner, hrow⟩ := hdec.regular_of_packed hpack ht
    rw [hconfig.shardConfig_eq]
    exact exists_shardForTp htp hheads hkv hshape hrows hinner hrow hresolve
  obtain ⟨sharded, hsharded⟩ : ∃ sharded, shardWeights lower tp pp packed
      (shardConfig modelConfig detected) = some sharded := exists_shardWeights hnumber hsplit
  have hreshard : reshardWeights lower str weights tp pp modelConfig = some sharded := by
    rw [reshardWeights, hprepare]
    exact hsharded
  refine ⟨sharded, hreshard, fun layer hlayer tpRank hrank => ?_⟩
  obtain ⟨ppRank, ⟨hppRank, hstart, hstop⟩, -⟩ := existsUnique_rank hpp (hlayer.trans_le hlayers)
  refine ⟨ppRank, hppRank, fun fused hfused shard hshard => ?_⟩
  obtain ⟨q, k, v, hparts, hcat⟩ := (engineShard_eq_some_iff hfused).mp hshard
  obtain ⟨inner, hq, hk, hv⟩ := hdec.shapes_of_projections hlayer hfused hparts
  obtain ⟨t, ht, hlookup⟩ := hdec.lookup_fused hpack (by simpa using hfused) hparts
  obtain ⟨hshape, hcut⟩ := headShards_cat tp tpRank ht hq hk hv
  have hone : tp = 1 → tpRank = 0 ∧ t = shard := by
    rintro rfl
    obtain rfl : tpRank = 0 := Nat.lt_one_iff.mp hrank
    have hqAll : loadedShard a 1 0 .qWeight q = q := loadedShard_one hq
    have hkAll : loadedShard a 1 0 .kWeight k = k := loadedShard_one hk
    have hvAll : loadedShard a 1 0 .vWeight v = v := loadedShard_one hv
    rw [hqAll, hkAll, hvAll, ht] at hcat
    exact ⟨rfl, Option.some.inj hcat⟩
  by_cases hranks : tp = 1 ∧ pp = 1
  · obtain ⟨rfl, rfl⟩ := hranks
    obtain rfl : ppRank = 0 := Nat.lt_one_iff.mp hppRank
    obtain ⟨rfl, rfl⟩ := hone rfl
    rw [shardWeights, if_pos ⟨rfl, rfl⟩] at hsharded
    cases hsharded
    exact hlookup
  · obtain ⟨_, hnumber', -, hspec⟩ := shardWeights_spec hranks hsharded
    obtain rfl := Option.some.inj (hnumber.symm.trans hnumber')
    have hid : getLayerId (fusedName layer fused) = some layer := by
      rw [fusedName_eq, getLayerId_layerName]
    have hmem : ppRank ∈ targetPpRanks (computePpBoundaries numLayers pp)
        (fusedName layer fused) := by
      rw [targetPpRanks_of_layer hid hppRank hstart hstop]
      exact List.mem_singleton_self _
    rw [hspec ppRank hppRank tpRank hrank, if_pos hmem, hlookup, Option.bind_some, rankShard,
      hconfig.shardConfig_eq]
    dsimp only
    by_cases h : tp = 1
    · obtain ⟨rfl, rfl⟩ := hone h
      rw [shardForTp, if_pos h]
      rfl
    · obtain ⟨shards, hshards, -, heach⟩ := exists_shardQkvFused_of_rows htp hheads hkv hshape
        (hresolve.resolve_left h)
      rw [shardForTp_fused hlower hfused h, hshards]
      dsimp only [Option.bind_eq_bind, Option.bind_some]
      rw [heach tpRank hrank, hcut, hcat]

end Belayer.Weights
