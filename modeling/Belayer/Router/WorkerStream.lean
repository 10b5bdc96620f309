import Belayer.Framework.Generator
import Belayer.Router.Generate

namespace Belayer.Router

open Belayer.Framework

/-- A deterministic worker: next token, its entry in `output_token_logprobs`, and when
a generation stops. -/
abbrev Worker := Generator Int Json

/-- The tokens of a generation and their logprob entries. -/
def tokenIds (g : List (Int × Json)) : List Int := g.map Prod.fst

def tokenEntries (g : List (Int × Json)) (logprobs : Bool) : List Json :=
  if logprobs then g.map Prod.snd else []

/-- The payload gives the prompt as `input_ids` and the cap as `max_new_tokens`, and
asks for logprobs or not. -/
structure Carries (payload : JsonObject) (ids : List Int) (n : Nat) (logprobs : Bool) : Prop where
  inputIds : payload.get "input_ids" = some (.arr (ids.map .int))
  maxNewTokens : ∃ params : JsonObject, payload.get "sampling_params" = some (.obj params) ∧
    params.get "max_new_tokens" = some (.int n)
  returnLogprob : payload.get "return_logprob" = some (.bool true) ↔ logprobs = true

/-- The chunk carries a `finish_reason`. -/
def FinishDelivered (data : JsonObject) : Prop :=
  ((chunkMetaInfo data).getNotNone "finish_reason").isSome

/-- A chunk with the first `cut` tokens of a generation. The worker sets the
`finish_reason` together with the last token. -/
structure CumulativeChunk (g : List (Int × Json)) (logprobs : Bool) (cut : Nat)
    (data : JsonObject) : Prop where
  le : cut ≤ g.length
  noError : data.get "error" = none
  outputIds : data.get "output_ids" = some (.arr ((tokenIds (g.take cut)).map .int))
  entries : (chunkMetaInfo data).get "output_token_logprobs" =
    if logprobs then some (.arr ((g.take cut).map Prod.snd)) else none
  finish : FinishDelivered data ↔ cut = g.length

/-- What a chunk says about its tokens: the ids and the logprobs of the first `cut` ones. -/
structure TokensUpTo (g : List (Int × Json)) (logprobs : Bool) (cut : Nat) (data : JsonObject) :
    Prop where
  le : cut ≤ g.length
  outputIds : data.get "output_ids" = some (.arr ((tokenIds (g.take cut)).map .int))
  entries : (chunkMetaInfo data).get "output_token_logprobs" =
    if logprobs then some (.arr ((g.take cut).map Prod.snd)) else none

theorem CumulativeChunk.tokens {g : List (Int × Json)} {logprobs : Bool} {cut : Nat}
    {data : JsonObject} (h : CumulativeChunk g logprobs cut data) : TokensUpTo g logprobs cut data :=
  ⟨h.le, h.outputIds, h.entries⟩

/-- What a chunk says with `stream_output`: the ids after the first `d` tokens up to the `cut`-th,
and the logprobs of all first `cut` ones. -/
structure TokensBetween (g : List (Int × Json)) (logprobs : Bool) (d cut : Nat) (data : JsonObject) :
    Prop where
  le : cut ≤ g.length
  outputIds : data.get "output_ids" = some (.arr ((tokenIds ((g.take cut).drop d)).map .int))
  entries : (chunkMetaInfo data).get "output_token_logprobs" =
    if logprobs then some (.arr ((g.take cut).map Prod.snd)) else none

/-- A stream in any chunking: every chunk holds the tokens so far, and the end marker
follows a chunk with the `finish_reason`. `last` is what the latest chunk held. -/
def CumulativeStream (g : List (Int × Json)) (logprobs : Bool) :
    Option Nat → List StreamEvent → Prop
  | _, [] | _, .reroute _ :: _ | _, .closed :: _ | _, .failed :: _ => True
  | last, .timeout :: events | last, .other :: events => CumulativeStream g logprobs last events
  | last, .done :: _ => last = some g.length
  | last, .data text :: events =>
    ∃ data cut, text = some data ∧ last.getD 0 ≤ cut ∧ CumulativeChunk g logprobs cut data ∧
      CumulativeStream g logprobs (some cut) events

/-- Whatever request the worker gets, it streams its own generation. -/
def Serves (w : Worker) (serve : Nat → String → JsonObject → Attempt) : Prop :=
  ∀ number url payload ids n logprobs, Carries payload ids n logprobs →
    CumulativeStream (w.run ids n) logprobs none (serve number url payload).events

/-- A failure or a reroute strikes before a `finish_reason` is delivered, and there is
a worker to go on with. -/
def FaultStrikes (resolved : Option String) : List StreamEvent → Prop
  | [] | .done :: _ => False
  | .reroute newUrl :: _ => (newUrl <|> resolved).isSome
  | .closed :: _ | .failed :: _ => resolved.isSome
  | .timeout :: events | .other :: events => FaultStrikes resolved events
  | .data text :: events =>
    (∀ data, text = some data → ¬FinishDelivered data) ∧ FaultStrikes resolved events

/-- The stream reaches its end marker without a fault. -/
def RunsThrough : List StreamEvent → Prop
  | .done :: _ => True
  | [] | .reroute _ :: _ | .closed :: _ | .failed :: _ => False
  | .timeout :: events | .other :: events | .data _ :: events => RunsThrough events

/-- No connection is made, or a fault strikes mid-stream. -/
def Attempt.Faulted (a : Attempt) : Prop :=
  match a.response with
  | none => a.resolved.isSome
  | some response => response.isSuccess ∧ FaultStrikes a.resolved a.events

def Attempt.Unfaulted (a : Attempt) : Prop :=
  ∃ response, a.response = some response ∧ response.isSuccess ∧ RunsThrough a.events

namespace JsonResponse

def outputIds (r : JsonResponse) : Option Json := r.content.get "output_ids"

def outputTokenLogprobs (r : JsonResponse) : Option Json :=
  match r.content.get "meta_info" with
  | some (.obj metaInfo) => JsonObject.get metaInfo "output_token_logprobs"
  | _ => none

end JsonResponse

/-! ### The recovery payload -/

theorem toList_int (ids : List Int) :
    Json.toList (some (.arr (ids.map .int))) = .ok (ids.map .int) := by
  cases ids <;> simp [Json.toList, Json.truthy, Option.filter]

theorem toDict_of_get {params : JsonObject} {k : String} {v : Json} (h : params.get k = some v) :
    Json.toDict (some (.obj params)) = .ok params := by
  cases params with
  | nil => simp at h
  | cons p params => simp [Json.toDict, Json.truthy, Option.filter]

theorem reduceMaxNewTokens_of_get (cfg : GenerateConfig) {params : JsonObject} {n k : Nat}
    (h : params.get "max_new_tokens" = some (.int n)) (hd : cfg.disableTokenLevelRecovery → k = 0) :
    ∃ params', reduceMaxNewTokens cfg params k = .ok params' ∧
      params'.get "max_new_tokens" = some (.int (n - k : Nat)) := by
  have hcap : params.getNotNone "max_new_tokens" = some (.int n) := by
    simp [JsonObject.getNotNone, h]
  unfold reduceMaxNewTokens
  rw [hcap]
  by_cases hdis : cfg.disableTokenLevelRecovery
  · obtain rfl := hd hdis
    exact ⟨params, if_pos hdis, h⟩
  · refine ⟨_, if_neg hdis, ?_⟩
    have hrest : max 0 ((n : Int) - k) = ((n - k : Nat) : Int) := by omega
    rw [JsonObject.get_set_same, hrest]

/-- The recovery payload asks for the rest of the generation. -/
theorem buildGenerateRecoveryPayload_carries {payload : JsonObject} {ids : List Int} {n : Nat}
    {logprobs : Bool} (h : Carries payload ids n logprobs) (cfg : GenerateConfig)
    (generated : List Int) (hd : cfg.disableTokenLevelRecovery → generated = []) :
    ∃ recovery, buildGenerateRecoveryPayload cfg payload generated = .ok recovery ∧
      Carries recovery (ids ++ generated) (n - generated.length) logprobs := by
  obtain ⟨params, hparams, hmax⟩ := h.maxNewTokens
  obtain ⟨params', hreduce, hmax'⟩ := reduceMaxNewTokens_of_get cfg
    (k := generated.length) hmax (fun hdis => by rw [hd hdis]; rfl)
  have hids : (payload.set "stream" (.bool true)).get "input_ids" = some (.arr (ids.map .int)) := by
    rw [JsonObject.get_set_other _ _ (by decide), h.inputIds]
  have hsampling (v : Json) : ((payload.set "stream" (.bool true)).set "input_ids" v).get
      "sampling_params" = some (.obj params) := by
    rw [JsonObject.get_set_other _ _ (by decide), JsonObject.get_set_other _ _ (by decide), hparams]
  have hgenerated : (if cfg.disableTokenLevelRecovery then [] else generated.map Json.int) =
      generated.map .int := by
    split_ifs with hdis
    · rw [hd hdis]
      rfl
    · rfl
  refine ⟨((payload.set "stream" (.bool true)).set "input_ids"
    (.arr ((ids ++ generated).map .int))).set "sampling_params" (.obj params'), ?_, ?_, ?_, ?_⟩
  · simp only [buildGenerateRecoveryPayload, hids, toList_int, hsampling, toDict_of_get hmax, hreduce,
      hgenerated, List.map_append, bind, Except.bind, pure, Except.pure]
  · rw [JsonObject.get_set_other _ _ (by decide), JsonObject.get_set_same]
  · exact ⟨params', JsonObject.get_set_same _ _ _, hmax'⟩
  · rw [JsonObject.get_set_other _ _ (by decide), JsonObject.get_set_other _ _ (by decide),
      JsonObject.get_set_other _ _ (by decide), h.returnLogprob]

end Belayer.Router
