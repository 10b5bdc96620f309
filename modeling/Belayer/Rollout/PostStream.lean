import Belayer.Framework.LineBuffer
import Belayer.Framework.Text
import Belayer.Router.Stream

namespace Belayer.Rollout.PostStream

open Belayer.Framework

abbrev Bytes := List UInt8

/-- What an attempt to stream raises. -/
inductive StreamError where
  | jsonDecodeError
  | pyError (error : PyError)
  | transportError
  | httpStatusError
  | streamConsumed
  | responseNotRead
  | runtimeError (text : String)
  deriving DecidableEq

inductive AttemptEnd where
  | returned (output : Json)
  | raised (error : StreamError)

/-- The variables of `_post_stream` that a line changes. -/
structure StreamState where
  aggregatedOutputIds : List Json := []
  aggregatedOutputTokenLogprobs : List Json := []
  latestMetaInfo : JsonObject := []
  latestText : Json := .str ""
  currentChunkOutputIds : List Json := []
  allDataLines : List String := []

/-! Chunks -/

/-- `_extract_output_ids_from_meta_info`. -/
def extractOutputIdsFromMetaInfo (metaInfo : JsonObject) : List Json :=
  (Json.listOrEmpty (metaInfo.get "output_token_logprobs")).filterMap fun
    | .arr (_ :: id :: _) => some id
    | _ => none

/-- `x or []`, used as a list. -/
def listOrRaise (x : Option Json) : Except PyError (List Json) :=
  match x.filter Json.truthy with
  | none => .ok []
  | some (.arr xs) => .ok xs
  | some _ => .error .typeError

/-- `_extract_chunk_output_ids`. -/
def extractChunkOutputIds (data metaInfo : JsonObject) : Except PyError (List Json) := do
  let outputIds ← listOrRaise (data.get "output_ids")
  return if outputIds.isEmpty then extractOutputIdsFromMetaInfo metaInfo else outputIds

/-- The chunk's ids start with those known so far. -/
def extendsKnown (known chunkOutputIds : List Json) : Bool :=
  known.length ≤ chunkOutputIds.length &&
    Json.pyEqList (chunkOutputIds.take known.length) known

/-- The new ids of a chunk and their logprobs are appended: a chunk that extends the ids known so
far is taken for a cumulative one. -/
def appendChunk (s : StreamState) (metaInfo : JsonObject) (chunkOutputIds : List Json) :
    Except PyError StreamState := do
  let known := s.currentChunkOutputIds
  let isCumulative := extendsKnown known chunkOutputIds
  let newOutputIds := if isCumulative then chunkOutputIds.drop known.length else chunkOutputIds
  let startIdx := if isCumulative then known.length else 0
  let s := { s with
    currentChunkOutputIds := if isCumulative then chunkOutputIds else known ++ chunkOutputIds }
  if newOutputIds.isEmpty then return s
  let outputTokenLogprobs ← listOrRaise (metaInfo.get "output_token_logprobs")
  return { s with
    aggregatedOutputIds := s.aggregatedOutputIds ++ newOutputIds
    aggregatedOutputTokenLogprobs :=
      Router.extendLogprobs s.aggregatedOutputTokenLogprobs outputTokenLogprobs startIdx
        chunkOutputIds.length newOutputIds.length }

/-- What a line's dict changes, where it has no error. -/
def takeChunk (s : StreamState) (data : JsonObject) : Except PyError StreamState := do
  let metaInfo ← Json.toDict (data.get "meta_info")
  let s := { s with
    latestText := (data.get "text").getD s.latestText
    latestMetaInfo := metaInfo }
  let chunkOutputIds ← extractChunkOutputIds data metaInfo
  if chunkOutputIds.isEmpty then return s else appendChunk s metaInfo chunkOutputIds

/-! Lines -/

def newline : UInt8 := UInt8.ofNat '\n'.toNat

/-- The text of a line without spaces and `data:`; empty where the line is not UTF-8. -/
def lineText (line : Bytes) : String :=
  match Text.decode line with
  | none => ""
  | some text =>
    let dataStr := Text.strip text
    if Text.startsWith "data:" dataStr then Text.strip (String.ofList (dataStr.toList.drop 5))
    else dataStr

/-- `"error" in data`. -/
def hasError : Json → Except PyError Bool
  | .obj fields => .ok (JsonObject.get fields "error").isSome
  | .arr xs => .ok (xs.any (Json.pyEq (.str "error")))
  | .str text => .ok (Text.contains "error" text)
  | .null | .bool _ | .int _ | .float _ => .error .typeError

/-- The output at the end marker. -/
def finalOutput (s : StreamState) : JsonObject :=
  let finalMetaInfo := s.latestMetaInfo.set "completion_tokens" (.int s.aggregatedOutputIds.length)
  let finalMetaInfo :=
    if s.aggregatedOutputTokenLogprobs.isEmpty then finalMetaInfo
    else finalMetaInfo.set "output_token_logprobs" (.arr s.aggregatedOutputTokenLogprobs)
  [("text", s.latestText), ("output_ids", .arr s.aggregatedOutputIds),
    ("meta_info", .obj finalMetaInfo)]

section Reader

variable (loads : String → Option Json)

/-- What `json.loads` makes of a line, taken up. -/
def takeData (s : StreamState) (data : Json) : Except AttemptEnd StreamState :=
  match hasError data, data with
  | .error error, _ => .error (.raised (.pyError error))
  | .ok true, _ => .error (.returned data)
  | .ok false, .obj fields =>
    match takeChunk s fields with
    | .error error => .error (.raised (.pyError error))
    | .ok s => .ok s
  | .ok false, _ => .error (.raised (.pyError .attributeError))

/-- One turn of the loop over the lines; an error is how the attempt ends. -/
def handleLine (s : StreamState) (line : Bytes) : Except AttemptEnd StreamState :=
  let dataStr := lineText line
  if dataStr = "" then .ok s
  else if dataStr = "[DONE]" then .error (.returned (.obj (finalOutput s)))
  else
    match loads dataStr with
    | none => .error (.raised .jsonDecodeError)
    | some data => takeData { s with allDataLines := s.allDataLines ++ [dataStr] } data

/-- What follows the loop when the stream is closed: the last line that is JSON is returned. The
body has been read by then, so that reading it again raises. -/
def closedOutput (s : StreamState) (buffer : Bytes) : AttemptEnd :=
  let dataStr := lineText buffer
  let allDataLines :=
    if dataStr = "" ∨ dataStr = "[DONE]" then s.allDataLines else s.allDataLines ++ [dataStr]
  match allDataLines.reverse.findSome? loads with
  | some data => .returned data
  | none => .raised .streamConsumed

inductive StreamEnding where
  | closed
  | failed
  deriving DecidableEq

/-- What an attempt meets: no connection, a status that is an error, or a stream in some reads. -/
inductive StreamAttempt where
  | connectionFailed
  | badStatus
  | streamed (reads : List Bytes) (ending : StreamEnding)

/-- The body of the `try` in `_post_stream`. -/
def runAttempt : StreamAttempt → AttemptEnd
  | .connectionFailed => .raised .transportError
  | .badStatus => .raised .httpStatusError
  | .streamed reads ending =>
    match LineBuffer.feed newline (handleLine loads) {} [] reads with
    | .error attemptEnd => attemptEnd
    | .ok (s, buffer) =>
      match ending with
      | .failed => .raised .transportError
      | .closed => closedOutput loads s buffer

/-- `_post_stream` after `retryCount` attempts, with `left` more. For an error status the handler
itself raises: the text of a streamed response has not been read. -/
def retryFrom (attempts : Nat → StreamAttempt) : Nat → Nat → AttemptEnd
  | 0, _ => .raised (.runtimeError "Stream request finished unexpectedly without [DONE]")
  | left + 1, retryCount =>
    match runAttempt loads (attempts retryCount) with
    | .returned output => .returned output
    | .raised .httpStatusError => .raised .responseNotRead
    | .raised error => if left = 0 then .raised error else retryFrom attempts left (retryCount + 1)

/-- `_post_stream`. -/
def postStream (attempts : Nat → StreamAttempt) (maxRetries : Nat) : AttemptEnd :=
  retryFrom loads attempts maxRetries 0

end Reader

/-! Retries -/

section Retries

variable {loads : String → Option Json} {attempts : Nat → StreamAttempt} {output : Json}

/-- An attempt fails in a way after which there is another one. -/
def Retried (loads : String → Option Json) (attempt : StreamAttempt) : Prop :=
  ∃ error, runAttempt loads attempt = .raised error ∧ error ≠ .httpStatusError

theorem retryFrom_of_retried {left retryCount : Nat} (hleft : 0 < left)
    (h : Retried loads (attempts retryCount)) :
    retryFrom loads attempts (left + 1) retryCount =
      retryFrom loads attempts left (retryCount + 1) := by
  obtain ⟨error, hrun, hne⟩ := h
  rw [retryFrom, hrun]
  cases error with
  | httpStatusError => exact absurd rfl hne
  | _ => exact if_neg (Nat.ne_of_gt hleft)

theorem retryFrom_of_returned {left retryCount : Nat} (hleft : 0 < left)
    (h : runAttempt loads (attempts retryCount) = .returned output) :
    retryFrom loads attempts left retryCount = .returned output := by
  obtain ⟨left, rfl⟩ := Nat.exists_eq_succ_of_ne_zero (Nat.ne_of_gt hleft)
  rw [retryFrom, h]

/-- What the first attempt that does not fail returns is the output. -/
theorem postStream_of_returned {k maxRetries : Nat} (hk : k < maxRetries)
    (hbefore : ∀ j < k, Retried loads (attempts j))
    (h : runAttempt loads (attempts k) = .returned output) :
    postStream loads attempts maxRetries = .returned output := by
  have hfrom : ∀ j ≤ k, postStream loads attempts maxRetries =
      retryFrom loads attempts (maxRetries - j) j := by
    intro j
    induction j with
    | zero => exact fun _ => rfl
    | succ j ih =>
      intro hj
      have hleft : maxRetries - j = maxRetries - (j + 1) + 1 := by omega
      rw [ih (Nat.le_of_succ_le hj), hleft, retryFrom_of_retried (by omega) (hbefore j hj)]
  rw [hfrom k le_rfl, retryFrom_of_returned (by omega) h]

/-- A stream is read by its lines, in whatever reads they come. -/
theorem runAttempt_streamed {reads lines : List Bytes} {rest : Bytes} {ending : StreamEnding}
    (h : LineBuffer.IsLines newline reads.flatten lines rest) :
    runAttempt loads (.streamed reads ending) =
      match lines.foldlM (handleLine loads) {} with
      | .error attemptEnd => attemptEnd
      | .ok s =>
        match ending with
        | .failed => .raised .transportError
        | .closed => closedOutput loads s rest := by
  rw [runAttempt, LineBuffer.feed_eq List.not_mem_nil h]
  cases lines.foldlM (handleLine loads) {} with
  | error attemptEnd => rfl
  | ok s => rfl

end Retries

end Belayer.Rollout.PostStream
