import Belayer.Framework.Json

namespace Belayer.Router

open Belayer.Framework

/-- The knobs of `/generate` recovery; the constructor clamps the two sizes at 1. -/
structure GenerateConfig where
  maxAttempts : Nat
  checkpointTokens : Nat
  coalesceChunks : Nat
  disableTokenLevelRecovery : Bool
  checkpointTokens_pos : 0 < checkpointTokens
  coalesceChunks_pos : 0 < coalesceChunks

structure ResponseHead where
  statusCode : Nat
  headers : List (String × String)
  deriving DecidableEq

structure JsonResponse where
  content : JsonObject
  statusCode : Nat
  headers : List (String × String)

inductive GenerateError where
  | jsonDecodeError
  | httpStatusError (statusCode : Nat)
  | transportError
  | runtimeError (text : String)
  | pyError (error : PyError)
  deriving DecidableEq

inductive GenerateResult where
  | returned (response : JsonResponse)
  | raised (error : GenerateError)

/-- `_GenerateCheckpoint`. -/
structure GenerateCheckpoint where
  outputIds : List Int := []
  outputTokenLogprobs : List Json := []
  outputTokenIdsLogprobs : List Json := []
  outputTopLogprobs : List Json := []
  textPrefix : String := ""
  count : Nat := 0

/-- The variables of `_proxy_generate` that chunks change. A pending chunk is `none`
where its text is not a JSON object. -/
structure GenerateState where
  aggregatedOutputIds : List Int
  aggregatedOutputTokenLogprobs : List Json
  aggregatedOutputTokenIdsLogprobs : List Json
  aggregatedOutputTopLogprobs : List Json
  checkpoint : GenerateCheckpoint
  firstPromptTokens : Option Json
  completedTextPrefix : String
  nextCheckpointTokenTarget : Nat
  pendingChunkData : Option (Option JsonObject)
  pendingChunkCount : Nat
  currentAttemptText : String
  currentAttemptOutputIds : List Int
  latestMetaInfo : Option JsonObject

/-- What one turn of the stream loop meets: the registry sends the request elsewhere,
the poll times out, the stream ends or fails, or a line arrives. -/
inductive StreamEvent where
  | reroute (newUrl : Option String)
  | timeout
  | closed
  | failed
  | other
  | done
  | data (text : Option JsonObject)

/-- How the stream loop of one attempt ends; `waiting` where no more events come. -/
inductive StreamEnd where
  | waiting
  | finished (result : GenerateResult)
  | rerouted (newUrl : Option String)
  | failed (error : GenerateError)

/-! ### Token ids of a chunk -/

/-- `_to_int_token_id`. -/
def toIntTokenId : Json → Option Int
  | .int n => some n
  | .float x => if x.den = 1 then some x.num else none
  | .str s =>
    match Json.strip s.toList with
    | '-' :: body => (Json.parseDigits body).map fun n : Nat => -(n : Int)
    | body => (Json.parseDigits body).map fun n : Nat => (n : Int)
  | .null | .bool _ | .arr _ | .obj _ => none

def normalizeOutputIds : Option Json → List Int
  | some (.arr ids) => ids.filterMap toIntTokenId
  | _ => []

/-- The token id in an entry of `output_token_logprobs`. -/
def entryTokenId : Json → Option Int
  | .arr (_ :: id :: _) => toIntTokenId id
  | .obj entry =>
    match JsonObject.get entry "token_id" with
    | some id => toIntTokenId id
    | none => (JsonObject.get entry "id").bind toIntTokenId
  | _ => none

def extractOutputIdsFromMetaInfo (metaInfo : JsonObject) : List Int :=
  (Json.listOrEmpty (metaInfo.get "output_token_logprobs")).filterMap entryTokenId

def extractChunkOutputIds (data metaInfo : JsonObject) : List Int × String :=
  let chunkOutputIds := normalizeOutputIds (data.get "output_ids")
  if chunkOutputIds ≠ [] then (chunkOutputIds, "output_ids")
  else
    let extractedIds := extractOutputIdsFromMetaInfo metaInfo
    if extractedIds ≠ [] then (extractedIds, "meta_info.output_token_logprobs") else ([], "none")

/-- `data.get("meta_info", {})`. -/
def chunkMetaInfo (data : JsonObject) : JsonObject :=
  match data.get "meta_info" with
  | some (.obj metaInfo) => metaInfo
  | _ => []

/-! ### Flushing a chunk -/

/-- Append the entries of the new tokens, the last ones when the chunk reports fewer
entries than it has tokens. -/
def extendLogprobs (aggregated entries : List Json) (startIdx endIdx newTokens : Nat) :
    List Json :=
  if entries.isEmpty then aggregated
  else if endIdx ≤ entries.length then aggregated ++ (entries.take endIdx).drop startIdx
  else aggregated ++ entries.drop (entries.length - newTokens)

/-- `while target <= tokens: target += interval`. -/
def advanceTarget (interval tokens : Nat) : Nat → Nat → Nat
  | 0, target => target
  | fuel + 1, target =>
    if target ≤ tokens then advanceTarget interval tokens fuel (target + interval) else target

namespace GenerateState

/-- `_capture_generate_checkpoint`. -/
def captureGenerateCheckpoint (s : GenerateState) (textPrefix : String) : GenerateCheckpoint where
  outputIds := s.aggregatedOutputIds
  outputTokenLogprobs := s.aggregatedOutputTokenLogprobs
  outputTokenIdsLogprobs := s.aggregatedOutputTokenIdsLogprobs
  outputTopLogprobs := s.aggregatedOutputTopLogprobs
  textPrefix := textPrefix
  count := s.checkpoint.count + 1

/-- Take a checkpoint when the next target is reached, and move the target on. -/
def reachTarget (cfg : GenerateConfig) (s : GenerateState) : GenerateState :=
  let tokens := s.aggregatedOutputIds.length
  if s.nextCheckpointTokenTarget ≤ tokens then
    { s with
      checkpoint := s.captureGenerateCheckpoint (s.completedTextPrefix ++ s.currentAttemptText)
      nextCheckpointTokenTarget :=
        advanceTarget cfg.checkpointTokens tokens (tokens + 1) s.nextCheckpointTokenTarget }
  else s

/-- The text and the metadata of a chunk, whether or not it has new tokens. -/
def noteChunk (s : GenerateState) (data : JsonObject) : GenerateState :=
  { s with
    latestMetaInfo := some (chunkMetaInfo data)
    firstPromptTokens := s.firstPromptTokens <|> (chunkMetaInfo data).getNotNone "prompt_tokens"
    currentAttemptText :=
      match data.get "text" with
      | some (.str text) => text
      | _ => s.currentAttemptText }

/-- The tokens that a chunk adds: those past the tokens of the attempt when it extends
them, and all of its own otherwise. -/
def newOutputIds (s : GenerateState) (chunkOutputIds : List Int) : List Int :=
  if s.currentAttemptOutputIds.isPrefixOf chunkOutputIds then
    chunkOutputIds.drop s.currentAttemptOutputIds.length
  else chunkOutputIds

def extendAttempt (s : GenerateState) (chunkOutputIds : List Int) : GenerateState :=
  { s with
    currentAttemptOutputIds :=
      if s.currentAttemptOutputIds.isPrefixOf chunkOutputIds then chunkOutputIds
      else s.currentAttemptOutputIds ++ chunkOutputIds }

/-- Append the new tokens of a chunk and their entries. -/
def appendTokens (s : GenerateState) (chunkOutputIds : List Int) (metaInfo : JsonObject) :
    GenerateState :=
  let startIdx :=
    if s.currentAttemptOutputIds.isPrefixOf chunkOutputIds then s.currentAttemptOutputIds.length
    else 0
  let endIdx := chunkOutputIds.length
  let newOutputIds := s.newOutputIds chunkOutputIds
  let extend (aggregated : List Json) (field : String) : List Json :=
    extendLogprobs aggregated (Json.listOrEmpty (metaInfo.get field)) startIdx endIdx
      newOutputIds.length
  { s.extendAttempt chunkOutputIds with
    aggregatedOutputIds := s.aggregatedOutputIds ++ newOutputIds
    aggregatedOutputTokenLogprobs := extend s.aggregatedOutputTokenLogprobs "output_token_logprobs"
    aggregatedOutputTokenIdsLogprobs :=
      extend s.aggregatedOutputTokenIdsLogprobs "output_token_ids_logprobs"
    aggregatedOutputTopLogprobs := extend s.aggregatedOutputTopLogprobs "output_top_logprobs" }

/-- The part of a flush that follows the check for an error. -/
def absorbChunk (cfg : GenerateConfig) (s : GenerateState) (data : JsonObject) : GenerateState :=
  let metaInfo := chunkMetaInfo data
  let s := s.noteChunk data
  let chunkOutputIds := (extractChunkOutputIds data metaInfo).1
  if chunkOutputIds = [] then s
  else if s.newOutputIds chunkOutputIds = [] then s.extendAttempt chunkOutputIds
  else (s.appendTokens chunkOutputIds metaInfo).reachTarget cfg

/-- `flush_pending_chunk`: the pending chunk waits until enough chunks have come,
unless the flush is forced. A result ends the request. -/
def flushPendingChunk (cfg : GenerateConfig) (response : Option ResponseHead) (s : GenerateState)
    (force : Bool) : GenerateState × Option GenerateResult :=
  match s.pendingChunkData with
  | none => (s, none)
  | some text =>
    if !force && s.pendingChunkCount < cfg.coalesceChunks then (s, none)
    else
      match text with
      | none => (s, some (.raised .jsonDecodeError))
      | some data =>
        let s := { s with pendingChunkData := none, pendingChunkCount := 0 }
        if (data.get "error").isSome then
          (s, some (.returned ⟨data, (response.map (·.statusCode)).getD 500,
            (response.map (·.headers)).getD []⟩))
        else (s.absorbChunk cfg data, none)

/-- Replace a field of the metadata unless the list is empty. -/
def setLogprobs (metaInfo : JsonObject) (field : String) (aggregated : List Json) : JsonObject :=
  if aggregated.isEmpty then metaInfo else metaInfo.set field (.arr aggregated)

def finalMetaInfo (s : GenerateState) : JsonObject :=
  let metaInfo := s.latestMetaInfo.getD []
  let metaInfo :=
    match s.firstPromptTokens with
    | some promptTokens => metaInfo.set "prompt_tokens" promptTokens
    | none => metaInfo
  let metaInfo := metaInfo.set "completion_tokens" (.int s.aggregatedOutputIds.length)
  let metaInfo := setLogprobs metaInfo "output_token_logprobs" s.aggregatedOutputTokenLogprobs
  let metaInfo :=
    setLogprobs metaInfo "output_token_ids_logprobs" s.aggregatedOutputTokenIdsLogprobs
  setLogprobs metaInfo "output_top_logprobs" s.aggregatedOutputTopLogprobs

/-- The answer to the caller. -/
def answer (s : GenerateState) (response : ResponseHead) : JsonResponse where
  content :=
    [("text", .str (s.completedTextPrefix ++ s.currentAttemptText)),
      ("output_ids", .arr (s.aggregatedOutputIds.map .int)), ("meta_info", .obj s.finalMetaInfo)]
  statusCode := response.statusCode
  headers := response.headers

def receiveChunk (s : GenerateState) (text : Option JsonObject) : GenerateState :=
  { s with pendingChunkData := some text, pendingChunkCount := s.pendingChunkCount + 1 }

def streamEndedUnexpectedly (workerKey : String) : GenerateError :=
  .runtimeError ("[slime-router] /generate stream ended unexpectedly for worker_key=" ++ workerKey)

/-- The stream loop of one attempt. -/
def streamLoop (cfg : GenerateConfig) (workerKey : String) (response : ResponseHead) :
    GenerateState → List StreamEvent → GenerateState × StreamEnd
  | s, [] => (s, .waiting)
  | s, .reroute newUrl :: _ => (s, .rerouted newUrl)
  | s, .failed :: _ => (s, .failed .transportError)
  | s, .other :: events => streamLoop cfg workerKey response s events
  | s, .timeout :: events =>
    match s.flushPendingChunk cfg (some response) false with
    | (s, some result) => (s, .finished result)
    | (s, none) => streamLoop cfg workerKey response s events
  | s, .closed :: _ =>
    match s.flushPendingChunk cfg (some response) true with
    | (s, some result) => (s, .finished result)
    | (s, none) => (s, .failed (streamEndedUnexpectedly workerKey))
  | s, .done :: _ =>
    match s.flushPendingChunk cfg (some response) true with
    | (s, some result) => (s, .finished result)
    | (s, none) => (s, .finished (.returned (s.answer response)))
  | s, .data text :: events =>
    match (s.receiveChunk text).flushPendingChunk cfg (some response) false with
    | (s, some result) => (s, .finished result)
    | (s, none) => streamLoop cfg workerKey response s events

end GenerateState

end Belayer.Router
