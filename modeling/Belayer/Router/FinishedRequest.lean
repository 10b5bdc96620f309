import Belayer.Router.RequestRun

namespace Belayer.Router

open Belayer.Framework

variable {cfg : GenerateConfig} {logprobs : Bool}

/-! ### The cap -/

/-- The request asks for at most `n` tokens. -/
def CapIs (payload : JsonObject) (n : Int) : Prop :=
  ∃ params : JsonObject, payload.get "sampling_params" = some (.obj params) ∧
    params.get "max_new_tokens" = some (.int n)

/-- The recovery payload asks for as many tokens less. -/
theorem CapIs.recovery {payload recovery : JsonObject} {n : Nat} {generated : List Int}
    (h : CapIs payload n)
    (hbuild : buildGenerateRecoveryPayload cfg payload generated = .ok recovery) :
    CapIs recovery (if cfg.disableTokenLevelRecovery then n else (n - generated.length : Nat)) := by
  obtain ⟨params, hparams, hcap⟩ := h
  have hsampling (v : Json) : ((payload.set "stream" (.bool true)).set "input_ids" v).get
      "sampling_params" = some (.obj params) := by
    rw [JsonObject.get_set_other _ _ (by decide), JsonObject.get_set_other _ _ (by decide), hparams]
  have hreduced : params.getNotNone "max_new_tokens" = some (.int n) := by
    simp [JsonObject.getNotNone, hcap]
  cases hids : Json.toList ((payload.set "stream" (.bool true)).get "input_ids") with
  | error e => simp [buildGenerateRecoveryPayload, hids, bind, Except.bind] at hbuild
  | ok inputIds =>
    simp only [buildGenerateRecoveryPayload, hids, hsampling, toDict_of_get hcap, reduceMaxNewTokens,
      hreduced, bind, Except.bind] at hbuild
    by_cases hdis : cfg.disableTokenLevelRecovery = true
    · rw [if_pos hdis] at hbuild ⊢
      cases hbuild
      exact ⟨params, JsonObject.get_set_same _ _ _, hcap⟩
    · rw [if_neg hdis] at hbuild ⊢
      cases hbuild
      refine ⟨_, JsonObject.get_set_same _ _ _, ?_⟩
      have hrest : max 0 ((n : Int) - generated.length) = ((n - generated.length : Nat) : Int) := by
        omega
      rw [JsonObject.get_set_same, hrest]

/-! ### How many tokens a flush adds -/

/-- The tokens that a chunk adds to the request are those that it adds to the attempt. -/
theorem length_newOutputIds (v : GenerateState) (ids : List Int) :
    v.currentAttemptOutputIds.length + (v.newOutputIds ids).length =
      (v.extendAttempt ids).currentAttemptOutputIds.length := by
  unfold GenerateState.newOutputIds GenerateState.extendAttempt
  dsimp only
  split_ifs with hextends
  · have hle := (List.isPrefixOf_iff_prefix.mp hextends).length_le
    rw [List.length_drop]
    omega
  · rw [List.length_append]

/-- A chunk adds at most its own tokens. -/
theorem length_extendAttempt_le (v : GenerateState) (ids : List Int) :
    (v.extendAttempt ids).currentAttemptOutputIds.length ≤
      v.currentAttemptOutputIds.length + ids.length := by
  unfold GenerateState.extendAttempt
  dsimp only
  split_ifs
  · omega
  · exact Nat.le_of_eq List.length_append

theorem length_checkpoint_absorbChunk {v : GenerateState} (data : JsonObject)
    (h : v.checkpoint.outputIds.length ≤ v.aggregatedOutputIds.length) :
    (v.absorbChunk cfg data).checkpoint.outputIds.length ≤
      (v.absorbChunk cfg data).aggregatedOutputIds.length := by
  unfold GenerateState.absorbChunk GenerateState.reachTarget
  dsimp only
  split_ifs
  · exact h
  · exact h
  · exact Nat.le_refl _
  · simp only [GenerateState.appendTokens, List.length_append]
    exact Nat.le_add_right_of_le h

/-- The attempt began after `a` tokens, and its chunks held `d` of the worker's `g`. What is
flushed of it, and what it is with the pending chunk, is no more than that. -/
structure Tallied (g : List (Int × Json)) (logprobs streamOutput : Bool) (a d : Nat)
    (v : GenerateState) : Prop where
  tally : v.aggregatedOutputIds.length = a + v.currentAttemptOutputIds.length
  delivered : d ≤ g.length
  current : v.currentAttemptOutputIds.length ≤ d
  pending : ∀ data, v.pendingChunkData = some (some data) →
    (v.extendAttempt (extractChunkOutputIds data (chunkMetaInfo data)).1).currentAttemptOutputIds.length
      ≤ d
  cumulative : streamOutput = false → (∃ c ≤ d, v.currentAttemptOutputIds = tokenIds (g.take c)) ∧
    ∀ data, v.pendingChunkData = some (some data) → TokensUpTo g logprobs d data

section

variable {g : List (Int × Json)} {streamOutput : Bool} {a d : Nat} {v : GenerateState}

theorem Tallied.le (h : Tallied g logprobs streamOutput a d v) :
    v.aggregatedOutputIds.length ≤ a + g.length := by
  have htally := h.tally
  have hdelivered := h.delivered
  have hcurrent := h.current
  omega

/-- A chunk of ids so far continues those that were flushed. -/
theorem extendAttempt_cumulative {c : Nat} {data : JsonObject} (hc : c ≤ d)
    (hcurrent : v.currentAttemptOutputIds = tokenIds (g.take c))
    (hd : TokensUpTo g logprobs d data) :
    (v.extendAttempt (extractChunkOutputIds data (chunkMetaInfo data)).1).currentAttemptOutputIds =
      tokenIds (g.take d) := by
  have hextends : v.currentAttemptOutputIds.isPrefixOf (tokenIds (g.take d)) = true :=
    (newOutputIds_cumulative (G := g) (a := 0) hc hd.le hcurrent).1
  rw [hd.extract, GenerateState.extendAttempt]
  exact if_pos hextends

theorem Tallied.absorbChunk (h : Tallied g logprobs streamOutput a d v) {data : JsonObject}
    (hpending : v.pendingChunkData = some (some data)) :
    Tallied g logprobs streamOutput a d
      ({ v with pendingChunkData := none, pendingChunkCount := 0 }.absorbChunk cfg data) := by
  have hcurrent := @currentAttemptOutputIds_absorbChunk cfg
    { v with pendingChunkData := none, pendingChunkCount := 0 } data
  have haggregated := @aggregatedOutputIds_absorbChunk cfg
    { v with pendingChunkData := none, pendingChunkCount := 0 } data
  have hnone := @pendingChunkData_absorbChunk cfg
    { v with pendingChunkData := none, pendingChunkCount := 0 } data
  have hnew := length_newOutputIds v (extractChunkOutputIds data (chunkMetaInfo data)).1
  have htally := h.tally
  have hle := h.pending data hpending
  refine ⟨?_, h.delivered, ?_, ?_, ?_⟩
  · rw [haggregated, hcurrent, List.length_append]
    change v.aggregatedOutputIds.length + (v.newOutputIds _).length =
      a + (v.extendAttempt _).currentAttemptOutputIds.length
    omega
  · rw [hcurrent]
    exact hle
  · intro data' he
    rw [hnone] at he
    cases he
  · intro hmode
    obtain ⟨⟨c, hc, hc'⟩, htokens⟩ := h.cumulative hmode
    refine ⟨⟨d, Nat.le_refl d, ?_⟩, ?_⟩
    · rw [hcurrent]
      exact extendAttempt_cumulative hc hc' (htokens data hpending)
    · intro data' he
      rw [hnone] at he
      cases he

end

/-! ### The request -/

/-- A worker honours the cap of the request that it gets, and its lines are chunks of its tokens. -/
def WorkerLine (logprobs : Bool) (s : RequestState) : RequestAction → Prop
  | .connect _ generation _ => ∀ n, CapIs s.currentPayload n → (generation.length : Int) ≤ n
  | .receive (.data text) => s.HoldsTokens logprobs text
  | .receive _ | .recover _ => True

namespace RequestState

/-- The handler that runs after a `finish_reason` ends the request with the tokens up to it. -/
def ReturnsDelivered (cfg : GenerateConfig) (workerKey : String) (payload : JsonObject)
    (logprobs : Bool) (s : RequestState) (a : RequestAction) : Prop :=
  ∀ resolved G, a = .recover resolved → s.finished = some G →
    ∃ t r, next cfg workerKey payload s a = some t ∧ t.phase = .ended (.returned r) ∧
      Answers G logprobs r

/-- No handler runs after a `finish_reason` of the attempt. -/
def Unfinished (s : RequestState) : RequestAction → Prop
  | .recover _ => s.finished = none
  | .connect _ _ _ | .receive _ => True

/-- With `stream_output`, a chunk without tokens of its own holds no logprobs either. -/
def PiecesOnly (s : RequestState) : RequestAction → Prop
  | .receive (.data (some data)) => s.streamOutput = true →
    normalizeOutputIds (data.get "output_ids") = [] →
      extractOutputIdsFromMetaInfo (chunkMetaInfo data) = []
  | .connect _ _ _ | .receive _ | .recover _ => True

variable {workerKey : String} {payload : JsonObject} {s t : RequestState} {a : RequestAction}

theorem clean_receiveEvent (h : Clean s.vars) {e : StreamEvent}
    (hline : WorkerLine logprobs s (.receive e)) : Clean (s.vars.receiveEvent e) := by
  cases e with
  | data text =>
    obtain ⟨data, cut, rfl, herror, -⟩ := hline
    intro text he
    cases he
    exact ⟨data, rfl, herror⟩
  | _ => exact h

theorem clean_next (h : Clean s.vars) (hline : WorkerLine logprobs s a)
    (hnext : next cfg workerKey payload s a = some t) : Clean t.vars := by
  cases a with
  | connect response generation streamOutput =>
    simp only [next] at hnext
    split at hnext
    · split at hnext
      · cases hnext
        exact h
      · split at hnext <;> cases hnext <;> exact h
    · cases hnext
  | receive e =>
    simp only [next] at hnext
    split at hnext
    · rename_i response hphase
      cases hnext
      exact (streamLoop_clean cfg workerKey response (clean_receiveEvent h hline)).1
    · cases hnext
  | recover resolved =>
    rcases next_recover_cases hnext with ⟨result, rfl⟩ |
      ⟨response, u, w, recovery, hflush, hw, -, rfl⟩
    · exact h
    · obtain ⟨u', hflush', hclean, -⟩ := h.flushPendingChunk cfg response true
      rw [hflush] at hflush'
      cases hflush'
      have hpending : w.pendingChunkData = u.pendingChunkData := by
        rcases hw with ⟨-, -, -, -, rfl⟩ | ⟨-, rfl⟩
        · exact pendingChunkData_afterReroute cfg u
        · exact pendingChunkData_afterFailure cfg u
      intro text he
      exact hclean text (hpending ▸ he)

/-! ### The handlers -/

theorem takeOver_ne_returned (url : String) (v : GenerateState) (r : JsonResponse) :
    takeOver cfg payload url v ≠ .finished (.returned r) := by
  unfold takeOver
  split <;> simp

/-- A handler whose flush does not end the request raises or tries again. -/
theorem handleReroute_ne_returned {response : Option ResponseHead} {v u : GenerateState}
    (hflush : v.flushPendingChunk cfg response true = (u, none)) (resolved newUrl : Option String)
    (lastAttempt : Bool) (r : JsonResponse) :
    handleReroute cfg workerKey payload response resolved newUrl lastAttempt v ≠
      .finished (.returned r) := by
  simp only [handleReroute, hflush]
  split
  · simp
  · split
    · simp
    · exact takeOver_ne_returned _ _ r

theorem handleFailure_ne_returned {response : Option ResponseHead} {v u : GenerateState}
    (hflush : v.flushPendingChunk cfg response true = (u, none)) (resolved : Option String)
    (error : GenerateError) (lastAttempt : Bool) (r : JsonResponse) :
    handleFailure cfg payload response resolved error lastAttempt v ≠ .finished (.returned r) := by
  simp only [handleFailure, hflush]
  split
  · simp
  · split
    · simp
    · exact takeOver_ne_returned _ _ r

theorem resume_ne_returned {e : AttemptEnd} {r : JsonResponse} (he : e ≠ .finished (.returned r))
    (hresume : s.resume e = some t) : t.phase ≠ .ended (.returned r) := by
  intro hphase
  cases e with
  | waiting => cases hresume
  | finished result =>
    cases hresume
    cases hphase
    exact he rfl
  | retry url recovery vars =>
    cases hresume
    cases hphase

theorem recover_ne_returned (h : Clean s.vars) {resolved : Option String}
    (hnext : next cfg workerKey payload s (.recover resolved) = some t) (r : JsonResponse) :
    t.phase ≠ .ended (.returned r) := by
  simp only [next] at hnext
  split at hnext
  · rename_i head newUrl hphase
    obtain ⟨u, hflush, -⟩ := h.flushPendingChunk cfg (some head) true
    exact resume_ne_returned (handleReroute_ne_returned hflush _ _ _ r) hnext
  · rename_i response error hphase
    obtain ⟨u, hflush, -⟩ := h.flushPendingChunk cfg response true
    exact resume_ne_returned (handleFailure_ne_returned hflush _ _ _ r) hnext
  · cases hnext

/-- A handler that runs after a `finish_reason` never returns what was delivered. -/
theorem returnsDelivered_iff (h : Clean s.vars) (hnext : next cfg workerKey payload s a = some t) :
    ReturnsDelivered cfg workerKey payload logprobs s a ↔ Unfinished s a := by
  cases a with
  | connect response generation streamOutput =>
    exact iff_of_true (fun _ _ ha _ => by cases ha) trivial
  | receive e => exact iff_of_true (fun _ _ ha _ => by cases ha) trivial
  | recover resolved =>
    constructor
    · intro hreturns
      by_contra hfinished
      obtain ⟨G, hG⟩ := Option.ne_none_iff_exists'.mp hfinished
      obtain ⟨t', r, hnext', hphase, -⟩ := hreturns resolved G rfl hG
      exact recover_ne_returned h hnext' r hphase
    · intro hfinished _ G _ hG
      have hnone : s.finished = none := hfinished
      rw [hnone] at hG
      cases hG

/-! ### The total -/

/-- What a handler keeps of `u` for the next attempt. -/
structure Resumes (cfg : GenerateConfig) (u w : GenerateState) : Prop where
  tokens : w.aggregatedOutputIds.length ≤ u.aggregatedOutputIds.length
  checkpoint : w.checkpoint.outputIds.length ≤ w.aggregatedOutputIds.length
  scratch : cfg.disableTokenLevelRecovery → w.aggregatedOutputIds = []
  pending : w.pendingChunkData = u.pendingChunkData

theorem resumes_afterReroute {u : GenerateState}
    (h : u.checkpoint.outputIds.length ≤ u.aggregatedOutputIds.length) :
    Resumes cfg u (u.afterReroute cfg) := by
  have hpending := pendingChunkData_afterReroute cfg u
  unfold GenerateState.afterReroute at hpending ⊢
  split_ifs at hpending ⊢ with hscratch
  · exact ⟨Nat.zero_le _, Nat.le_refl 0, fun _ => rfl, hpending⟩
  · refine ⟨Nat.le_refl _, h, ?_, hpending⟩
    intro hdis
    rw [not_and, not_not] at hscratch
    exact hscratch hdis

theorem resumes_afterFailure {u : GenerateState}
    (h : u.checkpoint.outputIds.length ≤ u.aggregatedOutputIds.length) :
    Resumes cfg u (u.afterFailure cfg) := by
  have hpending := pendingChunkData_afterFailure cfg u
  unfold GenerateState.afterFailure at hpending ⊢
  split_ifs at hpending ⊢ with hscratch
  · exact ⟨Nat.zero_le _, Nat.le_refl 0, fun _ => rfl, hpending⟩
  · refine ⟨h, Nat.le_refl _, ?_, hpending⟩
    intro hdis
    rw [not_and, not_not] at hscratch
    rw [hscratch hdis, List.length_nil, Nat.le_zero] at h
    exact List.eq_nil_of_length_eq_zero h

/-- Whatever the request holds is within the cap `n`, and while it connects it asks for no more
than what is left of it. -/
structure Budgeted (n : Nat) (logprobs : Bool) (s : RequestState) : Prop where
  spent : s.vars.aggregatedOutputIds.length ≤ s.reported.length
  total : s.reported.length ≤ n
  checkpoint : s.vars.checkpoint.outputIds.length ≤ s.vars.aggregatedOutputIds.length
  connecting : s.phase = .connecting → s.vars.pendingChunkData = none ∧
    ∃ left : Nat, CapIs s.currentPayload left ∧ left + s.vars.aggregatedOutputIds.length ≤ n
  streaming : s.phase ≠ .connecting → (∀ result, s.phase ≠ .ended result) →
    s.kept ≤ s.reported.length ∧
      Tallied (s.reported.drop s.kept) logprobs s.streamOutput s.kept s.delivered s.vars

theorem budgeted_init {n : Nat} (logprobs : Bool) (h : CapIs payload n) :
    Budgeted n logprobs (init cfg payload) where
  spent := Nat.le_refl 0
  total := Nat.zero_le n
  checkpoint := Nat.le_refl 0
  connecting _ := ⟨rfl, n, h, Nat.le_refl n⟩
  streaming hphase := absurd rfl hphase

variable {n : Nat}

/-- A request whose stream is open. -/
theorem Budgeted.of_streaming (htotal : t.reported.length ≤ n)
    (hcheckpoint : t.vars.checkpoint.outputIds.length ≤ t.vars.aggregatedOutputIds.length)
    (hphase : t.phase ≠ .connecting) (hkept : t.kept ≤ t.reported.length)
    (h : Tallied (t.reported.drop t.kept) logprobs t.streamOutput t.kept t.delivered t.vars) :
    Budgeted n logprobs t := by
  have hle := h.le
  rw [List.length_drop] at hle
  refine ⟨by omega, htotal, hcheckpoint, fun hconnecting => absurd hconnecting hphase,
    fun _ _ => ⟨hkept, h⟩⟩

/-- A request that is over, or goes on as it is. -/
theorem Budgeted.of_ended (h : Budgeted n logprobs s) (result : GenerateResult) :
    Budgeted n logprobs { s with phase := .ended result } :=
  ⟨h.spent, h.total, h.checkpoint, fun hphase => (by cases hphase),
    fun _ hopen => absurd rfl (hopen result)⟩

/-- A worker that honours its cap has room for its tokens. -/
theorem Budgeted.beginAttempt (h : Budgeted n logprobs s) (hphase : s.phase = .connecting)
    {generation : List (Int × Json)} (streamOutput : Bool)
    (hcap : ∀ n, CapIs s.currentPayload n → (generation.length : Int) ≤ n) {phase : AttemptPhase}
    (hphase' : phase ≠ .connecting) :
    Budgeted n logprobs { s.beginAttempt generation streamOutput with phase := phase } := by
  obtain ⟨hpending, left, hleft, hle⟩ := h.connecting hphase
  have hgeneration := hcap left hleft
  have hspent := h.spent
  have hkept : (s.reported.take s.vars.aggregatedOutputIds.length).length =
      s.vars.aggregatedOutputIds.length := by
    rw [List.length_take, Nat.min_eq_left hspent]
  refine .of_streaming ?_ h.checkpoint hphase' ?_ ⟨?_, Nat.zero_le _, Nat.le_refl 0, ?_, ?_⟩
  · simp only [RequestState.beginAttempt, List.length_append, hkept]
    omega
  · simp only [RequestState.beginAttempt, List.length_append, hkept]
    omega
  · simp [RequestState.beginAttempt, GenerateState.beginAttempt]
  · intro data he
    rw [RequestState.beginAttempt, GenerateState.beginAttempt, hpending] at he
    cases he
  · intro _
    refine ⟨⟨0, Nat.le_refl 0, rfl⟩, ?_⟩
    intro data he
    rw [RequestState.beginAttempt, GenerateState.beginAttempt, hpending] at he
    cases he

theorem Budgeted.connect {response : Option ResponseHead} {generation : List (Int × Json)}
    {streamOutput : Bool} (h : Budgeted n logprobs s)
    (hline : WorkerLine logprobs s (.connect response generation streamOutput))
    (hnext : next cfg workerKey payload s (.connect response generation streamOutput) = some t) :
    Budgeted n logprobs t := by
  simp only [next] at hnext
  split at hnext
  · rename_i hphase
    split at hnext
    · cases hnext
      exact h.beginAttempt hphase streamOutput hline (by simp)
    · split at hnext
      · cases hnext
        exact h.beginAttempt hphase streamOutput hline (by simp)
      · cases hnext
        exact h.beginAttempt hphase streamOutput hline (by simp)
  · cases hnext

/-- The tokens of a line are among those of the worker. -/
theorem tallied_receiveEvent (h : Tallied (s.reported.drop s.kept) logprobs s.streamOutput s.kept
    s.delivered s.vars) {e : StreamEvent} (hline : WorkerLine logprobs s (.receive e))
    (hpieces : s.PiecesOnly (.receive e)) :
    Tallied (s.reported.drop s.kept) logprobs s.streamOutput s.kept (s.note e).delivered
      (s.vars.receiveEvent e) := by
  cases e with
  | data text =>
    obtain ⟨data, cut, rfl, herror, hle, htokens⟩ := hline
    have hcurrent := h.current
    cases hmode : s.streamOutput with
    | false =>
      rw [hmode, if_neg (by simp)] at htokens
      have hcut := htokens.le
      have hdelivered := delivered_note_upTo hmode herror htokens
      obtain ⟨⟨c, hc, hc'⟩, -⟩ := h.cumulative hmode
      rw [hdelivered]
      refine ⟨h.tally, hcut, Nat.le_trans hcurrent hle, ?_, fun _ => ⟨⟨c, Nat.le_trans hc hle, hc'⟩, ?_⟩⟩
      · intro data' he
        cases he
        have hextend := extendAttempt_cumulative (Nat.le_trans hc hle) hc' htokens
        change (s.vars.extendAttempt _).currentAttemptOutputIds.length ≤ cut
        rw [hextend, tokenIds, List.length_map]
        exact List.length_take_le _ _
      · intro data' he
        cases he
        exact htokens
    | true =>
      rw [hmode, if_pos rfl] at htokens
      have hcut := htokens.le
      have hpiece : (normalizeOutputIds (data.get "output_ids")).length = cut - s.delivered := by
        rw [htokens.outputIds, normalizeOutputIds_int, tokenIds, List.length_map, List.length_drop,
          List.length_take, Nat.min_eq_left hcut]
      have hdelivered := delivered_note_between hmode herror hle htokens
      -- without ids of its own the chunk has none at all
      have hextract : (extractChunkOutputIds data (chunkMetaInfo data)).1.length =
          cut - s.delivered := by
        unfold extractChunkOutputIds
        dsimp only
        split_ifs with hids hmeta
        · exact hpiece
        · exact absurd (hpieces hmode (not_not.mp hids)) hmeta
        · rw [← hpiece, not_not.mp hids]
      rw [hdelivered]
      refine ⟨h.tally, hcut, Nat.le_trans hcurrent hle, ?_, fun he => by cases he⟩
      intro data' he
      cases he
      have hextend := length_extendAttempt_le s.vars
        (extractChunkOutputIds data (chunkMetaInfo data)).1
      change (s.vars.extendAttempt _).currentAttemptOutputIds.length ≤ cut
      omega
  | _ => exact h

theorem Budgeted.receive {e : StreamEvent} (h : Budgeted n logprobs s) (hclean : Clean s.vars)
    (hline : WorkerLine logprobs s (.receive e)) (hpieces : s.PiecesOnly (.receive e))
    (hnext : next cfg workerKey payload s (.receive e) = some t) : Budgeted n logprobs t := by
  simp only [next] at hnext
  split at hnext
  · rename_i response hphase
    obtain ⟨hkept, htallied⟩ := h.streaming (by simp [hphase]) (by simp [hphase])
    have hreceived := tallied_receiveEvent htallied hline hpieces
    have hcheckpoint : (s.vars.receiveEvent e).checkpoint.outputIds.length ≤
        (s.vars.receiveEvent e).aggregatedOutputIds.length := by
      cases e <;> exact h.checkpoint
    obtain ⟨-, hcases⟩ := streamLoop_clean cfg workerKey response
      (clean_receiveEvent hclean hline)
    obtain ⟨delivered, finished, hnote⟩ := s.note_frame e
    rw [hnote] at hreceived hnext
    cases hnext
    refine .of_streaming h.total ?_ (phaseAfter_ne_connecting _ _) hkept ?_
    · rcases hcases with hvars | ⟨data, hpending, hvars⟩
      · rw [hvars]
        exact hcheckpoint
      · rw [hvars]
        exact length_checkpoint_absorbChunk data hcheckpoint
    · rcases hcases with hvars | ⟨data, hpending, hvars⟩
      · rw [hvars]
        exact hreceived
      · rw [hvars]
        exact hreceived.absorbChunk hpending
  · cases hnext

/-- What is left of the cap goes to the next worker. -/
theorem Budgeted.recover {resolved : Option String} (h : Budgeted n logprobs s)
    (hclean : Clean s.vars) (hn : CapIs payload n)
    (hnext : next cfg workerKey payload s (.recover resolved) = some t) : Budgeted n logprobs t := by
  rcases next_recover_cases hnext with ⟨result, rfl⟩ |
    ⟨response, u, w, recovery, hflush, hw, hbuild, rfl⟩
  · exact h.of_ended result
  · have hopen : s.phase ≠ .connecting ∧ ∀ result, s.phase ≠ .ended result := by
      rcases hw with ⟨head, newUrl, hphase, -⟩ | ⟨⟨error, hphase⟩, -⟩ <;> simp [hphase]
    obtain ⟨hkept, htallied⟩ := h.streaming hopen.1 hopen.2
    obtain ⟨u', hflush', -, hpending, hcases⟩ := hclean.flushPendingChunk cfg response true
    rw [hflush] at hflush'
    cases hflush'
    -- the flush adds tokens of the worker only
    have hflushed : u.aggregatedOutputIds.length ≤ s.reported.length ∧
        u.checkpoint.outputIds.length ≤ u.aggregatedOutputIds.length := by
      have hlength : s.kept + (s.reported.drop s.kept).length = s.reported.length := by
        rw [List.length_drop]
        omega
      rcases hcases with rfl | ⟨data, hdata, rfl⟩
      · exact ⟨h.spent, h.checkpoint⟩
      · exact ⟨hlength ▸ (htallied.absorbChunk hdata).le,
          length_checkpoint_absorbChunk data h.checkpoint⟩
    have hresumes : Resumes cfg u w := by
      rcases hw with ⟨-, -, -, -, rfl⟩ | ⟨-, rfl⟩
      · exact resumes_afterReroute hflushed.2
      · exact resumes_afterFailure hflushed.2
    have htokens : w.aggregatedOutputIds.length ≤ s.reported.length :=
      Nat.le_trans hresumes.tokens hflushed.1
    have htotal := h.total
    have hrecovery := hn.recovery hbuild
    refine ⟨htokens, htotal, hresumes.checkpoint, fun _ => ⟨?_, ?_⟩, fun hphase => absurd rfl hphase⟩
    · exact hresumes.pending.trans (hpending rfl)
    · by_cases hscratch : cfg.disableTokenLevelRecovery = true
      · rw [if_pos hscratch] at hrecovery
        refine ⟨n, hrecovery, ?_⟩
        have hnone : w.aggregatedOutputIds.length = 0 :=
          List.length_eq_zero_iff.mpr (hresumes.scratch hscratch)
        change n + w.aggregatedOutputIds.length ≤ n
        omega
      · rw [if_neg hscratch] at hrecovery
        refine ⟨n - w.aggregatedOutputIds.length, hrecovery, ?_⟩
        change n - w.aggregatedOutputIds.length + w.aggregatedOutputIds.length ≤ n
        omega

/-- The tokens of the request stay within the cap `n`. -/
def Capped (n : Nat) (s : RequestState) : Prop :=
  s.vars.aggregatedOutputIds.length ≤ n ∧ s.reported.length ≤ n

theorem Budgeted.capped (h : Budgeted n logprobs s) : Capped n s :=
  ⟨Nat.le_trans h.spent h.total, h.total⟩

theorem budgeted_next (hn : CapIs payload n) (h : Clean s.vars ∧ Budgeted n logprobs s)
    (hline : WorkerLine logprobs s a ∧ s.PiecesOnly a)
    (hnext : next cfg workerKey payload s a = some t) :
    Clean t.vars ∧ Budgeted n logprobs t := by
  refine ⟨clean_next h.1 hline.1 hnext, ?_⟩
  cases a with
  | connect response generation streamOutput => exact h.2.connect hline.1 hnext
  | receive e => exact h.2.receive h.1 hline.1 hline.2 hnext
  | recover resolved => exact h.2.recover h.1 hn hnext

theorem clean_init (cfg : GenerateConfig) (payload : JsonObject) : Clean (init cfg payload).vars := by
  intro text he
  cases he

/-- The handlers keep a finished generation exactly where none of them runs after its
`finish_reason`; the tokens stay within the cap where the chunks hold tokens of their own. -/
theorem finished_settled_iff (cfg : GenerateConfig) (workerKey : String) (payload : JsonObject)
    (logprobs : Bool) (n : Nat) (hn : CapIs payload n) (run : List RequestAction)
    (h : Meets (next cfg workerKey payload) (WorkerLine logprobs) (init cfg payload) run) :
    (Meets (next cfg workerKey payload) (ReturnsDelivered cfg workerKey payload logprobs)
        (init cfg payload) run ↔
      Meets (next cfg workerKey payload) Unfinished (init cfg payload) run) ∧
    (Meets (next cfg workerKey payload) PiecesOnly (init cfg payload) run →
      Along (next cfg workerKey payload) (Capped n) (init cfg payload) run) := by
  constructor
  · exact meets_iff_of_invariant (I := fun s => Clean s.vars) (fun _ _ _ => clean_next)
      (fun _ _ _ => returnsDelivered_iff) (clean_init cfg payload) h
  · intro hpieces
    exact (along_of_meets (fun _ _ _ => budgeted_next hn)
      ⟨clean_init cfg payload, budgeted_init logprobs hn⟩ (h.and hpieces)).mono
      fun _ hs => hs.2.capped

/-- The worker generates four tokens, and its connection fails after `cut` of them. -/
def failingRun (cut : Nat) : List RequestAction :=
  [.connect (some ⟨200, []⟩) (countingWorker.run [5, 6] 4) false,
    .receive (.data (some (cutChunk (countingWorker.run [5, 6] 4) true cut))),
    .receive .failed, .recover (some "http://h:2")]

theorem capIs_exampleBody : CapIs exampleBody (4 : Nat) :=
  exampleBody_carries.maxNewTokens

theorem workerLine_connect (response : Option ResponseHead) :
    WorkerLine true (init exampleConfig exampleBody)
      (.connect response (countingWorker.run [5, 6] 4) false) := by
  rintro n ⟨params, hparams, hcap⟩
  have hsampling : exampleBody.get "sampling_params" =
      some (.obj [("max_new_tokens", .int 4)]) := rfl
  have hparams' : (init exampleConfig exampleBody).currentPayload.get "sampling_params" =
      some (.obj params) := hparams
  cases hsampling.symm.trans hparams'
  cases hcap
  decide

theorem finished_settled_iff_oneToken :
    Meets (next exampleConfig "k" exampleBody) (ReturnsDelivered exampleConfig "k" exampleBody true)
        (init exampleConfig exampleBody) (failingRun 1) ∧
      Along (next exampleConfig "k" exampleBody) (Capped 4) (init exampleConfig exampleBody)
        (failingRun 1) := by
  have hline : Meets (next exampleConfig "k" exampleBody) (WorkerLine true)
      (init exampleConfig exampleBody) (failingRun 1) := by
    refine (meets_cons_some rfl).mpr ⟨workerLine_connect _, (meets_cons_some rfl).mpr ⟨?_,
      (meets_cons_some rfl).mpr ⟨trivial, (meets_cons_some rfl).mpr ⟨trivial, trivial⟩⟩⟩⟩
    exact ⟨_, 1, rfl, rfl, Nat.zero_le 1, (cutChunk_cumulative (by decide)).tokens⟩
  have hsettled := finished_settled_iff exampleConfig "k" exampleBody true 4 capIs_exampleBody
    (failingRun 1) hline
  refine ⟨hsettled.1.mpr ?_, hsettled.2 ?_⟩
  · refine (meets_cons_some rfl).mpr ⟨trivial, (meets_cons_some rfl).mpr ⟨trivial,
      (meets_cons_some rfl).mpr ⟨trivial, (meets_cons_some rfl).mpr ⟨?_, trivial⟩⟩⟩⟩
    rfl
  · refine (meets_cons_some rfl).mpr ⟨trivial, (meets_cons_some rfl).mpr ⟨?_,
      (meets_cons_some rfl).mpr ⟨trivial, (meets_cons_some rfl).mpr ⟨trivial, trivial⟩⟩⟩⟩
    intro he
    cases he

/-- All four tokens are delivered with their `finish_reason`, and the request is sent again. -/
theorem not_returnsDelivered_fourTokens :
    Meets (next exampleConfig "k" exampleBody) (WorkerLine true) (init exampleConfig exampleBody)
        (failingRun 4) ∧
      ¬Meets (next exampleConfig "k" exampleBody)
        (ReturnsDelivered exampleConfig "k" exampleBody true) (init exampleConfig exampleBody)
        (failingRun 4) := by
  constructor
  · refine (meets_cons_some rfl).mpr ⟨workerLine_connect _, (meets_cons_some rfl).mpr ⟨?_,
      (meets_cons_some rfl).mpr ⟨trivial, (meets_cons_some rfl).mpr ⟨trivial, trivial⟩⟩⟩⟩
    exact ⟨_, 4, rfl, rfl, Nat.zero_le 4, (cutChunk_cumulative (by decide)).tokens⟩
  · intro h
    have hrest := ((meets_cons_some rfl).mp ((meets_cons_some rfl).mp
      ((meets_cons_some rfl).mp h).2).2).2
    obtain ⟨t, r, hnext, hphase, -⟩ := ((meets_cons_some rfl).mp hrest).1 _ _ rfl rfl
    cases hnext
    cases hphase

end RequestState

end Belayer.Router
