import Belayer.Framework.Json
import Belayer.Framework.Ordered
import Belayer.Framework.Tensor
import Belayer.Framework.Text

namespace Belayer.Weights

open Belayer.Framework

variable {α : Type}

/-- The tensors of a checkpoint or of a shard under their names. -/
abbrev TensorDict (α : Type) := Dict String (Tensor α)

/-- The text between `layers.` and the next dot, where it stands at the start and consists
of digits. -/
def layerIdAt (s : List Char) : Option Nat :=
  if "layers.".toList.isPrefixOf s then
    let rest := s.drop "layers.".toList.length
    let digits := rest.takeWhile Text.isDecimal
    if digits ≠ [] ∧ (rest.drop digits.length).head? = some '.' then
      some (Text.decimalValue digits)
    else none
  else none

/-- `get_layer_id`. -/
def getLayerId (weightName : String) : Option Nat := weightName.toList.tails.findSome? layerIdAt

/-- `_get_layer_prefix`. -/
def getLayerPrefix (weightName : String) (layerId : Nat) : String :=
  match Text.find s!"layers.{layerId}." weightName with
  | none => "model."
  | some i => Text.take weightName i

/-- `_compute_pp_boundaries`. -/
def computePpBoundaries (numLayers : Int) (ppSize : Nat) : List (Int × Int) :=
  if ppSize = 1 ∨ numLayers = 0 then List.replicate ppSize (0, numLayers)
  else
    let layersPerRank := numLayers / ppSize
    (List.range ppSize).map fun rank : Nat =>
      (rank * layersPerRank, if rank < ppSize - 1 then (rank + 1) * layersPerRank else numLayers)

/-! Model config -/

/-- The number that a value of the config is in a computation; `none` where Python raises. -/
def number : Json → Option Int
  | .int n => some n
  | .bool b => some b.toNat
  | _ => none

/-- `x == 0`. -/
def isZero : Json → Bool
  | .int n => n = 0
  | .bool b => !b
  | .float x => x = 0
  | _ => false

/-- The dict of a model config that has one. -/
def configFields : Option Json → Option JsonObject
  | some (.obj fields) => some fields
  | _ => none

section Names

variable (lower : String → String) (str : Json → String)

/-- `_is_qwen3_vl_family`. -/
def isQwen3VlFamily (modelConfig : Option Json) : Bool :=
  match configFields modelConfig with
  | none => false
  | some fields =>
    let modelType := lower (str ((fields.get "model_type").getD (.str "")))
    let architectures :=
      match (fields.get "architectures").getD (.arr []) with
      | .arr xs => xs
      | x => [x]
    let archStr := " ".intercalate (architectures.map fun x => lower (str x))
    Text.contains "qwen3_vl" modelType || Text.contains "qwen3vl" modelType ||
      Text.contains "qwen3_vl" archStr || Text.contains "qwen3vl" archStr

/-- `_normalize_single_weight_name`. -/
def normalizeSingleWeightName (name : String) (modelConfig : Option Json) : String :=
  let newName :=
    if ["layers.", "embed_tokens.", "norm."].any (Text.startsWith · name) then s!"model.{name}"
    else name
  if isQwen3VlFamily lower str modelConfig then
    let newName :=
      if Text.startsWith "model.language_model.model." newName then
        Text.replaceFirst "model.language_model.model." "model." newName
      else if Text.startsWith "model.language_model." newName then
        Text.replaceFirst "model.language_model." "model." newName
      else if Text.startsWith "language_model.model." newName then
        Text.replaceFirst "language_model.model." "model." newName
      else if Text.startsWith "language_model.lm_head." newName then
        Text.replaceFirst "language_model.lm_head." "lm_head." newName
      else newName
    let newName :=
      if Text.startsWith "model.visual." newName then
        Text.replaceFirst "model.visual." "visual." newName
      else newName
    if Text.contains ".attn.qkv." newName then
      Text.replace ".attn.qkv." ".attn.qkv_proj." newName
    else newName
  else newName

/-- `_normalize_weight_names`; of the tensors it only looks at the shapes, to log. -/
def normalizeWeightNames {β : Type} (weights : Dict String β) (modelConfig : Option Json) :
    Dict String β :=
  weights.items.foldl
    (fun normalized e => normalized.set (normalizeSingleWeightName lower str e.1 modelConfig) e.2)
    ∅

end Names

/-- The dict of `_detect_model_config`; the layer count stands under two keys. -/
structure DetectedConfig where
  numHiddenLayers : Nat
  hiddenSize : Option Nat
  numAttentionHeads : Option Nat
  numKeyValueHeads : Option Nat
  headDim : Option Nat

/-- One more than the last layer that a name has. -/
def detectNumLayers (weights : TensorDict α) : Nat :=
  (weights.keys.filterMap getLayerId).foldl (fun n i => max n (i + 1)) 0

/-- `config["hidden_size"]`, from the embedding; `none` inside where there is none. -/
def detectHiddenSize (weights : TensorDict α) : Option (Option Nat) :=
  match weights.items.find? fun e =>
      Text.contains "embed_tokens.weight" e.1 || Text.contains "wte.weight" e.1 with
  | none => some none
  | some e => e.2.shape[1]?.map some

/-- `tensor.shape[0] // size`, not computed for a size of zero. -/
def rowsPer (t : Tensor α) (size : Nat) : Option (Option Nat) :=
  if 0 < size then t.shape[0]?.map fun n => some (n / size) else some none

def inFirstLayer (text name : String) : Bool :=
  Text.contains ".layers.0." name && Text.contains text name

/-- `config["num_attention_heads"]`. -/
def detectNumHeads (weights : TensorDict α) (hidden : Nat) : Option (Option Nat) :=
  match weights.items.find? fun e =>
      inFirstLayer "qkv_proj.weight" e.1 || inFirstLayer "q_proj.weight" e.1 with
  | none => some none
  | some e =>
    if inFirstLayer "qkv_proj.weight" e.1 then do
      let outputDim ← e.2.shape[0]?
      return if 0 < hidden then some (outputDim / hidden) else none
    else rowsPer e.2 hidden

/-- `config["num_key_value_heads"]`. -/
def detectNumKvHeads (weights : TensorDict α) (hidden : Nat) : Option (Option Nat) :=
  match weights.items.find? fun e => inFirstLayer "k_proj.weight" e.1 with
  | none => some none
  | some e => rowsPer e.2 hidden

/-- `config["head_dim"]`. -/
def detectHeadDim (weights : TensorDict α) (numHeads numKvHeads : Option Nat) :
    Option (Option Nat) :=
  match weights.items.find? fun e =>
      (inFirstLayer "q_proj.weight" e.1 && numHeads.isSome) ||
        (inFirstLayer "k_proj.weight" e.1 && numKvHeads.isSome) with
  | none => some none
  | some e =>
    if inFirstLayer "q_proj.weight" e.1 && numHeads.isSome then rowsPer e.2 (numHeads.getD 0)
    else rowsPer e.2 (numKvHeads.getD 0)

/-- `_detect_model_config`; `none` where a shape has too few dimensions. -/
def detectModelConfig (weights : TensorDict α) : Option DetectedConfig := do
  let hiddenSize ← detectHiddenSize weights
  let hidden := hiddenSize.getD 0
  let numHeads ← detectNumHeads weights hidden
  let numKvHeads ← detectNumKvHeads weights hidden
  let headDim ← detectHeadDim weights numHeads numKvHeads
  return {
    numHiddenLayers := detectNumLayers weights
    hiddenSize
    numAttentionHeads := numHeads
    numKeyValueHeads := numKvHeads <|> numHeads
    headDim }

/-- The keys of a config and those they are read under. -/
def decoderKeys : List (String × String) :=
  [("num_hidden_layers", "num_hidden_layers"),
    ("num_layers", "num_hidden_layers"),
    ("hidden_size", "hidden_size"),
    ("num_attention_heads", "num_attention_heads"),
    ("num_key_value_heads", "num_key_value_heads"),
    ("head_dim", "head_dim")]

/-- `_extract_decoder_config`. -/
def extractDecoderConfig (modelConfig : Option Json) : JsonObject :=
  match configFields modelConfig with
  | none => []
  | some fields =>
    let nested := ["text_config", "language_config", "llm_config", "model_config"].filterMap
      fun key => configFields (fields.get key)
    (fields :: nested).foldl (fun resolved candidate =>
      decoderKeys.foldl (fun resolved key =>
        match resolved.get key.2, candidate.get key.1 with
        | none, some v => resolved.set key.2 v
        | _, _ => resolved) resolved) []

/-! Packing -/

/-- The projections that `pack_layers` looks for, in the order of its tests. -/
inductive Part where
  | qWeight | kWeight | vWeight | qBias | kBias | vBias
  | gateProj | upProj | gateProjBias | upProjBias
  deriving DecidableEq

namespace Part

def all : List Part :=
  [qWeight, kWeight, vWeight, qBias, kBias, vBias, gateProj, upProj, gateProjBias, upProjBias]

/-- The text that a name is searched for. -/
def text : Part → String
  | qWeight => "q_proj.weight"
  | kWeight => "k_proj.weight"
  | vWeight => "v_proj.weight"
  | qBias => "q_proj.bias"
  | kBias => "k_proj.bias"
  | vBias => "v_proj.bias"
  | gateProj => "gate_proj.weight"
  | upProj => "up_proj.weight"
  | gateProjBias => "gate_proj.bias"
  | upProjBias => "up_proj.bias"

/-- The part that a tensor is taken for: the first one of which the name has the text. -/
def of (name : String) : Option Part := all.find? fun part => Text.contains part.text name

end Part

/-- The fused tensors, in the order in which they are built. -/
inductive Fused where
  | qkvWeight | gateUpWeight | qkvBias | gateUpBias
  deriving DecidableEq

namespace Fused

def all : List Fused := [qkvWeight, gateUpWeight, qkvBias, gateUpBias]

def parts : Fused → List Part
  | qkvWeight => [.qWeight, .kWeight, .vWeight]
  | gateUpWeight => [.gateProj, .upProj]
  | qkvBias => [.qBias, .kBias, .vBias]
  | gateUpBias => [.gateProjBias, .upProjBias]

def text : Fused → String
  | qkvWeight => "qkv_proj.weight"
  | gateUpWeight => "gate_up_proj.weight"
  | qkvBias => "qkv_proj.bias"
  | gateUpBias => "gate_up_proj.bias"

/-- The place of a fused tensor in its layer. -/
def path : Fused → String
  | qkvWeight | qkvBias => "self_attn."
  | gateUpWeight | gateUpBias => "mlp."

end Fused

abbrev NamedTensors (α : Type) := List (String × Tensor α)

/-- The layer that a tensor is collected in. -/
def layerKey (name : String) : Option (String × Nat) :=
  (getLayerId name).map fun layerId => (getLayerPrefix name layerId, layerId)

/-- `layer_to_tensors`. -/
def layerToTensors (tensors : TensorDict α) : Dict (String × Nat) (NamedTensors α) :=
  Dict.groupBy (fun e : String × Tensor α => layerKey e.1) tensors.items

/-- A tensor that is taken for a part becomes the value of its variable. -/
def collectEntry (found : Part → Option (Tensor α)) (e : String × Tensor α) :
    Part → Option (Tensor α) :=
  match Part.of e.1 with
  | none => found
  | some part => Function.update found part (some e.2)

/-- The variables of a layer, each the last tensor that was taken for its part. -/
def collect (layerTensors : NamedTensors α) : Part → Option (Tensor α) :=
  layerTensors.foldl collectEntry fun _ => none

/-- The tensors of a layer that were taken for a part are deleted. -/
def deleteParts (layerTensors : NamedTensors α) (tensors : TensorDict α) : TensorDict α :=
  layerTensors.foldl (fun tensors e =>
    if (Part.of e.1).isSome then AList.erase e.1 tensors else tensors) tensors

/-- The start of a layer's fused names. -/
def layerStart (layerKey : String × Nat) : String :=
  let start :=
    if layerKey.1 ≠ "" ∧ ¬Text.endsWith "." layerKey.1 then layerKey.1 ++ "." else layerKey.1
  start ++ s!"layers.{layerKey.2}."

def packedName (layerKey : String × Nat) (fused : Fused) : String :=
  layerStart layerKey ++ fused.path ++ fused.text

/-- One fused tensor of a layer, where all its parts were found. -/
def packFused (layerKey : String × Nat) (found : Part → Option (Tensor α)) (tensors : TensorDict α)
    (fused : Fused) : Option (TensorDict α) :=
  match fused.parts.mapM found with
  | none => some tensors
  | some parts => (Tensor.cat parts).map (tensors.set (packedName layerKey fused))

def packLayer (tensors : TensorDict α) (layer : (String × Nat) × NamedTensors α) :
    Option (TensorDict α) :=
  Fused.all.foldlM (packFused layer.1 (collect layer.2)) (deleteParts layer.2 tensors)

/-- `pack_layers`: the tensors after it, `none` where it raises. -/
def packLayers (tensors : TensorDict α) : Option (TensorDict α) :=
  (layerToTensors tensors).items.foldlM packLayer tensors

/-! Sharding -/

/-- An index of a slice as Python reads it for a dimension of `n`. -/
def sliceIndex (n : Nat) (i : Int) : Nat := if i < 0 then (i + n).toNat else i.toNat

/-- `tensor[start:stop]`. -/
def sliceRows (t : Tensor α) (start stop : Int) : Tensor α :=
  t.slice 0 (sliceIndex t.rows start) (sliceIndex t.rows stop)

/-- `_shard_column_parallel` and `_shard_row_parallel`. -/
def shardParallel (tensor : Tensor α) (tpSize dim : Nat) : Option (List (Tensor α)) := do
  let n ← tensor.shape[dim]?
  if n % tpSize ≠ 0 then return List.replicate tpSize tensor
  return tensor.split (n / tpSize) dim

/-- The Q shards of `_shard_qkv_fused`. -/
def shardQ (qTensor : Tensor α) (tpSize : Nat) (qSize : Int) : List (Tensor α) :=
  let qShardSize := qSize / tpSize
  (List.range tpSize).map fun i : Nat =>
    sliceRows qTensor (i * qShardSize) ((i + 1) * qShardSize)

/-- The shards of K, or of V, where every rank has heads of its own. -/
def shardKvHeads (kTensor : Tensor α) (tpSize : Nat) (numKvHeads headDim : Int) :
    List (Tensor α) :=
  let kShardSize := headDim * (numKvHeads / tpSize)
  (List.range tpSize).map fun i : Nat =>
    sliceRows kTensor (i * kShardSize) ((i + 1) * kShardSize)

/-- The shards of K, or of V, where several ranks have the same head. -/
def replicateKvHeads (kTensor : Tensor α) (tpSize : Nat) (numKvHeads headDim : Int) :
    List (Tensor α) :=
  let replicasPerHead := (tpSize : Int).fdiv numKvHeads
  (List.range tpSize).map fun i : Nat =>
    let kStart := (i : Int).fdiv replicasPerHead * headDim
    sliceRows kTensor kStart (kStart + headDim)

/-- The last step of `_shard_qkv_fused`: each rank's shards one after the other. -/
def combineShards (q k v : List (Tensor α)) : Option (List (Tensor α)) :=
  (List.zip q (List.zip k v)).mapM fun e => Tensor.cat [e.1, e.2.1, e.2.2]

/-- `head_dim or (hidden_size // num_heads)`. -/
def resolveHeadDim (numHeads hiddenSize headDim : Json) : Option Int :=
  if headDim.truthy then number headDim
  else do return Int.fdiv (← number hiddenSize) (← number numHeads)

/-- `_shard_qkv_fused`. -/
def shardQkvFused (tensor : Tensor α) (tpSize : Nat) (numHeads numKvHeads hiddenSize headDim : Json) :
    Option (List (Tensor α)) := do
  if (isZero hiddenSize && isZero headDim) || isZero numHeads then
    return List.replicate tpSize tensor
  let headDim ← resolveHeadDim numHeads hiddenSize headDim
  let qSize := (← number numHeads) * headDim
  let numKvHeads ← number numKvHeads
  let kSize := numKvHeads * headDim
  let vSize := numKvHeads * headDim
  let actualSize : Nat ← tensor.shape[0]?
  if (actualSize : Int) ≠ qSize + kSize + vSize then shardParallel tensor tpSize 0
  else if qSize % tpSize ≠ 0 then shardParallel tensor tpSize 0
  else
    let qTensor := sliceRows tensor 0 qSize
    let kTensor := sliceRows tensor qSize (qSize + kSize)
    let vTensor := sliceRows tensor (qSize + kSize) actualSize
    let qShards := shardQ qTensor tpSize qSize
    if (tpSize : Int) ≤ numKvHeads then
      if numKvHeads % tpSize ≠ 0 then shardParallel tensor tpSize 0
      else
        combineShards qShards (shardKvHeads kTensor tpSize numKvHeads headDim)
          (shardKvHeads vTensor tpSize numKvHeads headDim)
    else if numKvHeads = 0 then none
    else if Int.fmod tpSize numKvHeads ≠ 0 then shardParallel tensor tpSize 0
    else
      combineShards qShards (replicateKvHeads kTensor tpSize numKvHeads headDim)
        (replicateKvHeads vTensor tpSize numKvHeads headDim)

/-- `_shard_gate_up_fused`. -/
def shardGateUpFused (tensor : Tensor α) (tpSize : Nat) : Option (List (Tensor α)) := do
  let totalSize ← tensor.shape[0]?
  if totalSize % 2 ≠ 0 then shardParallel tensor tpSize 0
  else
    let gateSize := totalSize / 2
    let gateTensor := tensor.slice 0 0 gateSize
    let upTensor := tensor.slice 0 gateSize totalSize
    let gateShardSize := gateSize / tpSize
    (List.range tpSize).mapM fun i =>
      Tensor.cat [gateTensor.slice 0 (i * gateShardSize) ((i + 1) * gateShardSize),
        upTensor.slice 0 (i * gateShardSize) ((i + 1) * gateShardSize)]

section Shards

variable (lower : String → String)

/-- `_should_not_shard`. -/
def shouldNotShard (name : String) : Bool :=
  ["layernorm", "layer_norm", "ln_", "norm.weight", ".norm.bias", "input_layernorm",
    "post_attention_layernorm"].any fun pattern => Text.contains pattern (lower name)

def containsAny (texts : List String) (name : String) : Bool := texts.any (Text.contains · name)

/-- `_shard_for_tp`. -/
def shardForTp (name : String) (tensor : Tensor α) (tpSize : Nat)
    (numHeads numKvHeads hiddenSize headDim : Json) : Option (List (Tensor α)) :=
  if tpSize = 1 then some [tensor]
  else if shouldNotShard lower name then some (List.replicate tpSize tensor)
  else if Text.contains "qkv_proj.weight" name then
    shardQkvFused tensor tpSize numHeads numKvHeads hiddenSize headDim
  else if Text.contains "qkv_proj.bias" name then
    shardQkvFused tensor tpSize numHeads numKvHeads hiddenSize headDim
  else if Text.contains "gate_up_proj.weight" name then shardGateUpFused tensor tpSize
  else if containsAny ["q_proj.weight", "k_proj.weight", "v_proj.weight"] name then
    shardParallel tensor tpSize 0
  else if containsAny ["o_proj.weight", "down_proj.weight", "attn.proj.weight",
      "linear_fc2.weight"] name then
    shardParallel tensor tpSize 1
  else if containsAny ["gate_proj.weight", "up_proj.weight", "linear_fc1.weight"] name then
    shardParallel tensor tpSize 0
  else if containsAny ["embed_tokens.weight", "lm_head.weight", "wte.weight"] name then
    shardParallel tensor tpSize 0
  else if Text.contains ".bias" name then
    let weightName := Text.replace ".bias" ".weight" name
    if containsAny ["q_proj", "k_proj", "v_proj", "gate_proj", "up_proj", "gate_up_proj",
        "linear_fc1"] weightName then
      shardParallel tensor tpSize 0
    else some (List.replicate tpSize tensor)
  else some (List.replicate tpSize tensor)

/-- The numbers that `reshard_weights` works with. -/
structure ShardConfig where
  numLayers : Json
  numHeads : Json
  numKvHeads : Json
  hiddenSize : Json
  headDim : Json

/-- The config where it has a field, else what the tensors show. -/
def shardConfig (modelConfig : Option Json) (detected : DetectedConfig) : ShardConfig :=
  let configured := extractDecoderConfig modelConfig
  let orDetected (key : String) (value : Nat) : Json := (configured.get key).getD (.int value)
  let numHeads := orDetected "num_attention_heads" (detected.numAttentionHeads.getD 0)
  { numLayers := orDetected "num_hidden_layers" detected.numHiddenLayers
    numHeads
    numKvHeads := (configured.get "num_key_value_heads").getD
      ((detected.numKeyValueHeads.map fun n : Nat => .int n).getD numHeads)
    hiddenSize := orDetected "hidden_size" (detected.hiddenSize.getD 0)
    headDim := orDetected "head_dim" (detected.headDim.getD 0) }

/-- The ranks of the pipeline that get a tensor: those of its layer, or all. -/
def targetPpRanks (ppBoundaries : List (Int × Int)) (name : String) : List Nat :=
  match getLayerId name with
  | none => List.range ppBoundaries.length
  | some layerIdx =>
    (ppBoundaries.findIdx? fun b => b.1 ≤ (layerIdx : Int) ∧ (layerIdx : Int) < b.2).toList

/-- `sharded_weights[shard_idx][name] = tp_shards[tp_rank]`; `none` where the shard is missing. -/
def assignShard (tp : Nat) (name : String) (tpShards : List (Tensor α)) (ppRank : Nat)
    (sharded : List (TensorDict α)) (tpRank : Nat) : Option (List (TensorDict α)) :=
  tpShards[tpRank]?.map fun shard =>
    sharded.modify (ppRank * tp + tpRank) fun weights => weights.set name shard

/-- A tensor's shards go to its ranks. -/
def assignShards (tp : Nat) (name : String) (tpShards : List (Tensor α)) (ppRanks : List Nat)
    (sharded : List (TensorDict α)) : Option (List (TensorDict α)) :=
  ppRanks.foldlM
    (fun sharded ppRank => (List.range tp).foldlM (assignShard tp name tpShards ppRank) sharded)
    sharded

/-- One turn of the loop of `reshard_weights`. -/
def reshardTensor (tp : Nat) (config : ShardConfig) (ppBoundaries : List (Int × Int))
    (sharded : List (TensorDict α)) (e : String × Tensor α) : Option (List (TensorDict α)) :=
  let ppRanks := targetPpRanks ppBoundaries e.1
  if ppRanks = [] then some sharded
  else do
    let tpShards ← shardForTp lower e.1 e.2 tp config.numHeads config.numKvHeads
      config.hiddenSize config.headDim
    assignShards tp e.1 tpShards ppRanks sharded

/-- What `reshard_weights` does before it shards: the packed tensors and its numbers. -/
def prepareWeights (str : Json → String) (weights : TensorDict α) (modelConfig : Option Json) :
    Option (TensorDict α × ShardConfig) := do
  let weights := normalizeWeightNames lower str weights modelConfig
  let detected ← detectModelConfig weights
  let packed ← packLayers weights
  return (packed, shardConfig modelConfig detected)

/-- The shards of the packed tensors, with that of a rank at `pp_rank * tp + tp_rank`. -/
def shardWeights (tp pp : Nat) (packed : TensorDict α) (config : ShardConfig) :
    Option (List (TensorDict α)) :=
  if tp = 1 ∧ pp = 1 then some [packed]
  else do
    let numLayers ← number config.numLayers
    packed.items.foldlM (reshardTensor lower tp config (computePpBoundaries numLayers pp))
      (List.replicate (tp * pp) ∅)

/-- `reshard_weights`; `none` where it raises. Both sizes are positive. -/
def reshardWeights (str : Json → String) (weights : TensorDict α) (tp pp : Nat)
    (modelConfig : Option Json) : Option (List (TensorDict α)) := do
  let (packed, config) ← prepareWeights lower str weights modelConfig
  shardWeights lower tp pp packed config

end Shards

end Belayer.Weights
