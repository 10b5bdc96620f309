import Belayer.Router.Stream

namespace Belayer.Router

open Belayer.Framework

/-- The cap that is left after the generated tokens. -/
def reduceMaxNewTokens (cfg : GenerateConfig) (samplingParams : JsonObject)
    (generatedTokens : Nat) : Except PyError JsonObject :=
  match samplingParams.getNotNone "max_new_tokens" with
  | none => .ok samplingParams
  | some maxNewTokens =>
    if cfg.disableTokenLevelRecovery then .ok samplingParams
    else
      maxNewTokens.toInt.map fun n =>
        samplingParams.set "max_new_tokens" (.int (max 0 (n - generatedTokens)))

/-- `_build_generate_recovery_payload`. -/
def buildGenerateRecoveryPayload (cfg : GenerateConfig) (originalPayload : JsonObject)
    (generatedOutputIds : List Int) : Except PyError JsonObject := do
  let payload := originalPayload.set "stream" (.bool true)
  let inputIds ← Json.toList (payload.get "input_ids")
  let generated := if cfg.disableTokenLevelRecovery then [] else generatedOutputIds.map Json.int
  let payload := payload.set "input_ids" (.arr (inputIds ++ generated))
  let samplingParams ← Json.toDict (payload.get "sampling_params")
  let samplingParams ← reduceMaxNewTokens cfg samplingParams generatedOutputIds.length
  pure (payload.set "sampling_params" (.obj samplingParams))

/-- What the outside world does in one attempt: `response` is `none` when no connection
is made, and `resolved` is what `_resolve_failed_worker_url` finds after a fault. -/
structure Attempt where
  response : Option ResponseHead
  events : List StreamEvent
  resolved : Option String

namespace ResponseHead

/-- `raise_for_status` lets the response pass. -/
def isSuccess (r : ResponseHead) : Bool := 200 ≤ r.statusCode && r.statusCode < 300

end ResponseHead

namespace GenerateState

def init (cfg : GenerateConfig) : GenerateState where
  aggregatedOutputIds := []
  aggregatedOutputTokenLogprobs := []
  aggregatedOutputTokenIdsLogprobs := []
  aggregatedOutputTopLogprobs := []
  checkpoint := {}
  firstPromptTokens := none
  completedTextPrefix := ""
  nextCheckpointTokenTarget := cfg.checkpointTokens
  pendingChunkData := none
  pendingChunkCount := 0
  currentAttemptText := ""
  currentAttemptOutputIds := []
  latestMetaInfo := none

/-- The locals of a new attempt. -/
def beginAttempt (s : GenerateState) : GenerateState :=
  { s with currentAttemptText := "", currentAttemptOutputIds := [], latestMetaInfo := none }

/-- `_reset_generate_recovery_state`, and the first target again. -/
def resetGenerateRecoveryState (cfg : GenerateConfig) (s : GenerateState) : GenerateState :=
  { s with
    aggregatedOutputIds := []
    aggregatedOutputTokenLogprobs := []
    aggregatedOutputTokenIdsLogprobs := []
    aggregatedOutputTopLogprobs := []
    completedTextPrefix := ""
    checkpoint := {}
    nextCheckpointTokenTarget := cfg.checkpointTokens }

/-- `_restore_generate_checkpoint`. -/
def restoreGenerateCheckpoint (s : GenerateState) : GenerateState :=
  { s with
    aggregatedOutputIds := s.checkpoint.outputIds
    aggregatedOutputTokenLogprobs := s.checkpoint.outputTokenLogprobs
    aggregatedOutputTokenIdsLogprobs := s.checkpoint.outputTokenIdsLogprobs
    aggregatedOutputTopLogprobs := s.checkpoint.outputTopLogprobs
    completedTextPrefix := s.checkpoint.textPrefix }

/-- The text of the attempt that ends joins the completed text. -/
def completeText (s : GenerateState) : GenerateState :=
  { s with completedTextPrefix := s.completedTextPrefix ++ s.currentAttemptText }

/-- What a reroute keeps: everything, unless recovery restarts from scratch. -/
def afterReroute (cfg : GenerateConfig) (s : GenerateState) : GenerateState :=
  if cfg.disableTokenLevelRecovery ∧ s.aggregatedOutputIds ≠ [] then
    s.completeText.resetGenerateRecoveryState cfg
  else s.completeText

/-- What a failure keeps: the last checkpoint, unless recovery restarts from scratch. -/
def afterFailure (cfg : GenerateConfig) (s : GenerateState) : GenerateState :=
  if cfg.disableTokenLevelRecovery ∧ s.aggregatedOutputIds ≠ [] then
    s.completeText.resetGenerateRecoveryState cfg
  else s.completeText.restoreGenerateCheckpoint

end GenerateState

def rerouteExhausted (workerKey : String) : GenerateError :=
  .runtimeError ("[slime-router] /generate reroute exhausted for worker_key=" ++ workerKey)

def noReplacement (workerKey : String) : GenerateError :=
  .runtimeError ("[slime-router] /generate failed to find replacement worker for worker_key=" ++
    workerKey)

/-- What an attempt leaves to its successor: the end of the request, or the url, the
payload and the variables of the next attempt. `none` while it still runs. -/
inductive AttemptEnd where
  | waiting
  | finished (result : GenerateResult)
  | retry (url : String) (payload : JsonObject) (s : GenerateState)

/-- The end of both handlers: the payload for the worker that takes over. -/
def takeOver (cfg : GenerateConfig) (payload : JsonObject) (url : String) (s : GenerateState) :
    AttemptEnd :=
  match buildGenerateRecoveryPayload cfg payload s.aggregatedOutputIds with
  | .ok currentPayload => .retry url currentPayload s
  | .error error => .finished (.raised (.pyError error))

/-- The handler of the reroute signal. -/
def handleReroute (cfg : GenerateConfig) (workerKey : String) (payload : JsonObject)
    (response : Option ResponseHead) (resolved newUrl : Option String) (lastAttempt : Bool)
    (s : GenerateState) : AttemptEnd :=
  match s.flushPendingChunk cfg response true with
  | (_, some result) => .finished result
  | (s, none) =>
    if lastAttempt then .finished (.raised (rerouteExhausted workerKey))
    else
      match newUrl <|> resolved with
      | none => .finished (.raised (noReplacement workerKey))
      | some url => takeOver cfg payload url (s.afterReroute cfg)

/-- The handler of a failed stream. -/
def handleFailure (cfg : GenerateConfig) (payload : JsonObject) (response : Option ResponseHead)
    (resolved : Option String) (error : GenerateError) (lastAttempt : Bool) (s : GenerateState) :
    AttemptEnd :=
  match s.flushPendingChunk cfg response true with
  | (_, some result) => .finished result
  | (s, none) =>
    if lastAttempt then .finished (.raised error)
    else
      match resolved with
      | none => .finished (.raised error)
      | some url => takeOver cfg payload url (s.afterFailure cfg)

/-- One turn of the attempt loop. -/
def runAttempt (cfg : GenerateConfig) (workerKey : String) (payload : JsonObject)
    (attempt : Attempt) (lastAttempt : Bool) (s : GenerateState) : AttemptEnd :=
  let s := s.beginAttempt
  match attempt.response with
  | none => handleFailure cfg payload none attempt.resolved .transportError lastAttempt s
  | some response =>
    if !response.isSuccess then
      .finished (.raised (.httpStatusError response.statusCode))
    else
      match s.streamLoop cfg workerKey response attempt.events with
      | (_, .waiting) => .waiting
      | (_, .finished result) => .finished result
      | (s, .rerouted newUrl) =>
        handleReroute cfg workerKey payload (some response) attempt.resolved newUrl lastAttempt s
      | (s, .failed error) =>
        handleFailure cfg payload (some response) attempt.resolved error lastAttempt s

/-- The attempt loop with `left` more attempts after this one. The outside world may
answer each attempt as it likes, by its number, its url and the request it sends. -/
def attemptLoop (cfg : GenerateConfig) (workerKey : String) (payload : JsonObject)
    (serve : Nat → String → JsonObject → Attempt) :
    Nat → Nat → String → JsonObject → GenerateState → Option GenerateResult
  | 0, number, url, currentPayload, s =>
    match runAttempt cfg workerKey payload (serve number url currentPayload) true s with
    | .finished result => some result
    | .waiting | .retry _ _ _ => none
  | left + 1, number, url, currentPayload, s =>
    match runAttempt cfg workerKey payload (serve number url currentPayload) false s with
    | .finished result => some result
    | .waiting => none
    | .retry url currentPayload s =>
      attemptLoop cfg workerKey payload serve left (number + 1) url currentPayload s

/-- `_proxy_generate` from the choice of the first worker on; `none` while it waits. -/
def proxyGenerate (cfg : GenerateConfig) (workerKey url : String) (body : JsonObject)
    (serve : Nat → String → JsonObject → Attempt) : Option GenerateResult :=
  let payload := body.set "stream" (.bool true)
  attemptLoop cfg workerKey payload serve cfg.maxAttempts 0 url payload (.init cfg)

end Belayer.Router
