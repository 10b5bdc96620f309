import Belayer.Framework.Run
import Belayer.Router.Transparency

namespace Belayer.Router

open Belayer.Framework

/-- Where a request stands: it sends its payload next, it reads a stream, one of the two handlers
runs next, or it is over. -/
inductive AttemptPhase where
  | connecting
  | streaming (response : ResponseHead)
  | rerouted (response : ResponseHead) (newUrl : Option String)
  | failed (response : Option ResponseHead) (error : GenerateError)
  | ended (result : GenerateResult)

/-- A request with its history: `reported` are the tokens kept so far and those that the worker
of this attempt generates, `kept` is the number of the former and `delivered` that of the latter
which its chunks held so far; with `streamOutput` a chunk holds only the tokens since the one
before. `finished` is what was there with the first `finish_reason` of the attempt. -/
structure RequestState where
  vars : GenerateState
  phase : AttemptPhase
  attempt : Nat
  currentPayload : JsonObject
  reported : List (Int × Json)
  kept : Nat
  streamOutput : Bool
  delivered : Nat
  finished : Option (List (Int × Json))

/-- What a request meets: a connection or none, to a worker that generates certain tokens, an
event of the stream, or the url that takes over. -/
inductive RequestAction where
  | connect (response : Option ResponseHead) (generation : List (Int × Json)) (streamOutput : Bool)
  | receive (e : StreamEvent)
  | recover (resolved : Option String)

instance (data : JsonObject) : Decidable (FinishDelivered data) :=
  inferInstanceAs (Decidable (_ = true))

/-- The phase after the stream loop. -/
def phaseAfter (response : ResponseHead) : StreamEnd → AttemptPhase
  | .waiting => .streaming response
  | .finished result => .ended result
  | .rerouted newUrl => .rerouted response newUrl
  | .failed error => .failed (some response) error

namespace RequestState

def init (cfg : GenerateConfig) (payload : JsonObject) : RequestState :=
  ⟨.init cfg, .connecting, 0, payload, [], 0, false, 0, none⟩

/-- A worker begins to generate behind the tokens that are kept. -/
def beginAttempt (s : RequestState) (generation : List (Int × Json)) (streamOutput : Bool) :
    RequestState :=
  let kept := s.vars.aggregatedOutputIds.length
  { s with
    vars := s.vars.beginAttempt
    reported := s.reported.take kept ++ generation
    kept := kept
    streamOutput := streamOutput
    delivered := 0
    finished := none }

/-- What an event says about the tokens of the attempt. -/
def note (s : RequestState) : StreamEvent → RequestState
  | .data (some data) =>
    if (data.get "error").isSome then s
    else
      let tokens := (normalizeOutputIds (data.get "output_ids")).length
      let delivered := if s.streamOutput then s.delivered + tokens else tokens
      { s with
        delivered := delivered
        finished :=
          if FinishDelivered data then
            s.finished <|> some (s.reported.take (s.kept + delivered))
          else s.finished }
  | _ => s

/-- What a handler makes of the request. -/
def resume (s : RequestState) : AttemptEnd → Option RequestState
  | .waiting => none
  | .finished result => some { s with phase := .ended result }
  | .retry _ payload vars =>
    some { s with
      vars := vars, phase := .connecting, attempt := s.attempt + 1, currentPayload := payload }

variable (cfg : GenerateConfig) (workerKey : String) (payload : JsonObject)

/-- One step of `_proxy_generate`. -/
def next (s : RequestState) : RequestAction → Option RequestState
  | .connect response generation streamOutput =>
    match s.phase with
    | .connecting =>
      let s := s.beginAttempt generation streamOutput
      match response with
      | none => some { s with phase := .failed none .transportError }
      | some response =>
        if response.isSuccess then some { s with phase := .streaming response }
        else some { s with phase := .ended (.raised (.httpStatusError response.statusCode)) }
    | _ => none
  | .receive e =>
    match s.phase with
    | .streaming response =>
      let streamed := s.vars.streamLoop cfg workerKey response [e]
      some { s.note e with vars := streamed.1, phase := phaseAfter response streamed.2 }
    | _ => none
  | .recover resolved =>
    let lastAttempt := decide (s.attempt = cfg.maxAttempts)
    match s.phase with
    | .rerouted response newUrl =>
      s.resume (handleReroute cfg workerKey payload (some response) resolved newUrl lastAttempt
        s.vars)
    | .failed response error =>
      s.resume (handleFailure cfg payload response resolved error lastAttempt s.vars)
    | _ => none

end RequestState

/-! ### What a step can do -/

/-- A flush that ends the request changes the pending chunk at most; another one finds nothing to
do, or absorbs the pending chunk. -/
theorem flushPendingChunk_cases (cfg : GenerateConfig) (response : Option ResponseHead)
    (v : GenerateState) (force : Bool) :
    (∃ u result, v.flushPendingChunk cfg response force = (u, some result) ∧
      (u = v ∨ u = { v with pendingChunkData := none, pendingChunkCount := 0 })) ∨
    v.flushPendingChunk cfg response force = (v, none) ∧
      (force = true → v.pendingChunkData = none) ∨
    ∃ data, v.pendingChunkData = some (some data) ∧ data.get "error" = none ∧
      v.flushPendingChunk cfg response force =
        ({ v with pendingChunkData := none, pendingChunkCount := 0 }.absorbChunk cfg data, none) := by
  unfold GenerateState.flushPendingChunk
  cases hpending : v.pendingChunkData with
  | none => exact .inr (.inl ⟨rfl, fun _ => rfl⟩)
  | some text =>
    dsimp only
    by_cases hwait : (!force && v.pendingChunkCount < cfg.coalesceChunks) = true
    · rw [if_pos hwait]
      refine .inr (.inl ⟨rfl, ?_⟩)
      intro hforce
      subst hforce
      simp at hwait
    · rw [if_neg hwait]
      cases text with
      | none => exact .inl ⟨v, _, rfl, .inl rfl⟩
      | some data =>
        dsimp only
        cases herror : data.get "error" with
        | none => exact .inr (.inr ⟨data, rfl, herror, by rw [if_neg (by simp)]⟩)
        | some error => exact .inl ⟨_, _, by rw [if_pos (by simp)], .inr rfl⟩

theorem pendingChunkData_afterReroute (cfg : GenerateConfig) (v : GenerateState) :
    (v.afterReroute cfg).pendingChunkData = v.pendingChunkData := by
  unfold GenerateState.afterReroute
  split_ifs <;> rfl

theorem pendingChunkData_afterFailure (cfg : GenerateConfig) (v : GenerateState) :
    (v.afterFailure cfg).pendingChunkData = v.pendingChunkData := by
  unfold GenerateState.afterFailure
  split_ifs <;> rfl

/-- A line becomes the pending chunk. -/
def GenerateState.receiveEvent (v : GenerateState) : StreamEvent → GenerateState
  | .data text => v.receiveChunk text
  | _ => v

/-- An event is followed by a flush at most, and ends the request when that does. -/
theorem streamLoop_singleton_cases (cfg : GenerateConfig) (workerKey : String)
    (response : ResponseHead) (v : GenerateState) (e : StreamEvent) :
    (v.streamLoop cfg workerKey response [e]).1 = v.receiveEvent e ∨
    ∃ force, (v.streamLoop cfg workerKey response [e]).1 =
        ((v.receiveEvent e).flushPendingChunk cfg (some response) force).1 ∧
      ((∀ result, (v.streamLoop cfg workerKey response [e]).2 ≠ .finished result) →
        ((v.receiveEvent e).flushPendingChunk cfg (some response) force).2 = none) := by
  cases e with
  | reroute newUrl => exact .inl rfl
  | failed => exact .inl rfl
  | other => exact .inl rfl
  | timeout =>
    refine .inr ⟨false, ?_⟩
    simp only [GenerateState.streamLoop, GenerateState.receiveEvent]
    cases v.flushPendingChunk cfg (some response) false with
    | mk u result => cases result <;> simp
  | closed =>
    refine .inr ⟨true, ?_⟩
    simp only [GenerateState.streamLoop, GenerateState.receiveEvent]
    cases v.flushPendingChunk cfg (some response) true with
    | mk u result => cases result <;> simp
  | done =>
    refine .inr ⟨true, ?_⟩
    simp only [GenerateState.streamLoop, GenerateState.receiveEvent]
    cases v.flushPendingChunk cfg (some response) true with
    | mk u result => cases result <;> simp
  | data text =>
    refine .inr ⟨false, ?_⟩
    simp only [GenerateState.streamLoop, GenerateState.receiveEvent]
    cases (v.receiveChunk text).flushPendingChunk cfg (some response) false with
    | mk u result => cases result <;> simp

/-- The pending chunk, if any, is a chunk of tokens. -/
def Clean (v : GenerateState) : Prop :=
  ∀ text, v.pendingChunkData = some text → ∃ data, text = some data ∧ data.get "error" = none

/-- No flush of such chunks ends the request. -/
theorem Clean.flushPendingChunk {v : GenerateState} (h : Clean v) (cfg : GenerateConfig)
    (response : Option ResponseHead) (force : Bool) :
    ∃ u, v.flushPendingChunk cfg response force = (u, none) ∧ Clean u ∧
      (force = true → u.pendingChunkData = none) ∧
      (u = v ∨ ∃ data, v.pendingChunkData = some (some data) ∧
        u = { v with pendingChunkData := none, pendingChunkCount := 0 }.absorbChunk cfg data) := by
  rcases flushPendingChunk_cases cfg response v force with
    ⟨u, result, hflush, -⟩ | ⟨hflush, hforce⟩ | ⟨data, hpending, -, hflush⟩
  · exfalso
    unfold GenerateState.flushPendingChunk at hflush
    cases hpending : v.pendingChunkData with
    | none =>
      rw [hpending] at hflush
      cases hflush
    | some text =>
      obtain ⟨data, rfl, herror⟩ := h text hpending
      simp only [hpending, herror] at hflush
      split at hflush <;> cases hflush
  · exact ⟨v, hflush, h, hforce, .inl rfl⟩
  · have hnone := @pendingChunkData_absorbChunk cfg
      { v with pendingChunkData := none, pendingChunkCount := 0 } data
    refine ⟨_, hflush, ?_, fun _ => hnone, .inr ⟨data, hpending, rfl⟩⟩
    intro text he
    rw [hnone] at he
    cases he

/-- A flush before the last one makes no difference. -/
theorem Clean.flush_flush {v : GenerateState} (h : Clean v) (cfg : GenerateConfig)
    (response response' : Option ResponseHead) (force : Bool) :
    ((v.flushPendingChunk cfg response force).1.flushPendingChunk cfg response' true).1 =
      (v.flushPendingChunk cfg response' true).1 := by
  obtain ⟨u, hflush, hclean, -, rfl | ⟨data, hpending, hu⟩⟩ := h.flushPendingChunk cfg response force
  · rw [hflush]
  · obtain ⟨w, hflush', -, hforced, hw⟩ := h.flushPendingChunk cfg response' true
    have hnone : u.pendingChunkData = none := by
      rw [hu, pendingChunkData_absorbChunk]
    have hdone : (u.flushPendingChunk cfg response' true).1 = u := by
      rw [GenerateState.flushPendingChunk, hnone]
    rw [hflush, hflush', hdone]
    rcases hw with rfl | ⟨data', hpending', hw⟩
    · rw [hforced rfl] at hpending
      cases hpending
    · rw [hpending] at hpending'
      cases hpending'
      rw [hu, hw]

/-- What the stream loop makes of an event of a worker. -/
theorem streamLoop_clean (cfg : GenerateConfig) (workerKey : String) (response : ResponseHead)
    {v : GenerateState} {e : StreamEvent}
    (h : Clean (v.receiveEvent e)) :
    Clean (v.streamLoop cfg workerKey response [e]).1 ∧
      ((v.streamLoop cfg workerKey response [e]).1 = v.receiveEvent e ∨
        ∃ data, (v.receiveEvent e).pendingChunkData = some (some data) ∧
          (v.streamLoop cfg workerKey response [e]).1 =
            { v.receiveEvent e with pendingChunkData := none, pendingChunkCount := 0 }.absorbChunk cfg
              data) := by
  rcases streamLoop_singleton_cases cfg workerKey response v e with
    hvars | ⟨force, hvars, -⟩
  · rw [hvars]
    exact ⟨h, .inl rfl⟩
  · obtain ⟨u, hflush, hclean, -, hcases⟩ := h.flushPendingChunk cfg (some response) force
    rw [hvars, hflush]
    exact ⟨hclean, hcases⟩

theorem phaseAfter_ne_connecting (response : ResponseHead) (streamEnd : StreamEnd) :
    phaseAfter response streamEnd ≠ .connecting := by
  cases streamEnd <;> simp [phaseAfter]

theorem takeOver_retry {cfg : GenerateConfig} {payload recovery : JsonObject} {url url' : String}
    {v w : GenerateState} (h : takeOver cfg payload url v = .retry url' recovery w) :
    w = v ∧ buildGenerateRecoveryPayload cfg payload v.aggregatedOutputIds = .ok recovery := by
  unfold takeOver at h
  split at h
  · rename_i hbuild
    cases h
    exact ⟨rfl, hbuild⟩
  · cases h

/-- A handler goes on with what a forced flush leaves, and asks for the rest of it. -/
theorem handleReroute_retry {cfg : GenerateConfig} {workerKey : String} {payload : JsonObject}
    {response : Option ResponseHead} {resolved newUrl : Option String} {lastAttempt : Bool}
    {v w : GenerateState} {url : String} {recovery : JsonObject}
    (h : handleReroute cfg workerKey payload response resolved newUrl lastAttempt v =
      .retry url recovery w) :
    ∃ u, v.flushPendingChunk cfg response true = (u, none) ∧ w = u.afterReroute cfg ∧
      buildGenerateRecoveryPayload cfg payload w.aggregatedOutputIds = .ok recovery := by
  unfold handleReroute at h
  split at h
  · cases h
  · rename_i u hflush
    split at h
    · cases h
    · split at h
      · cases h
      · obtain ⟨rfl, hbuild⟩ := takeOver_retry h
        exact ⟨u, hflush, rfl, hbuild⟩

theorem handleFailure_retry {cfg : GenerateConfig} {payload : JsonObject}
    {response : Option ResponseHead} {resolved : Option String} {error : GenerateError}
    {lastAttempt : Bool} {v w : GenerateState} {url : String} {recovery : JsonObject}
    (h : handleFailure cfg payload response resolved error lastAttempt v = .retry url recovery w) :
    ∃ u, v.flushPendingChunk cfg response true = (u, none) ∧ w = u.afterFailure cfg ∧
      buildGenerateRecoveryPayload cfg payload w.aggregatedOutputIds = .ok recovery := by
  unfold handleFailure at h
  split at h
  · cases h
  · rename_i u hflush
    split at h
    · cases h
    · split at h
      · cases h
      · obtain ⟨rfl, hbuild⟩ := takeOver_retry h
        exact ⟨u, hflush, rfl, hbuild⟩

namespace RequestState

/-- An event changes what the history says about the stream only. -/
theorem note_frame (s : RequestState) (e : StreamEvent) :
    ∃ delivered finished, s.note e = { s with delivered := delivered, finished := finished } := by
  unfold note
  split
  · split
    · exact ⟨s.delivered, s.finished, rfl⟩
    · exact ⟨_, _, rfl⟩
  · exact ⟨s.delivered, s.finished, rfl⟩

variable {s : RequestState} {logprobs : Bool} {cut : Nat} {data : JsonObject}

theorem delivered_note_upTo (hmode : s.streamOutput = false) (herror : data.get "error" = none)
    (h : TokensUpTo (s.reported.drop s.kept) logprobs cut data) :
    (s.note (.data (some data))).delivered = cut := by
  have hcut := h.le
  simp only [note, herror, hmode, h.outputIds, normalizeOutputIds_int]
  simp [tokenIds] at hcut ⊢
  omega

theorem delivered_note_between (hmode : s.streamOutput = true) (herror : data.get "error" = none)
    (hle : s.delivered ≤ cut)
    (h : TokensBetween (s.reported.drop s.kept) logprobs s.delivered cut data) :
    (s.note (.data (some data))).delivered = cut := by
  have hcut := h.le
  simp only [note, herror, hmode, h.outputIds, normalizeOutputIds_int]
  simp [tokenIds] at hcut ⊢
  omega

/-- The line is a chunk of tokens, of all so far or, with `stream_output`, of those since the last
chunk. -/
def HoldsTokens (s : RequestState) (logprobs : Bool) (text : Option JsonObject) : Prop :=
  ∃ data cut, text = some data ∧ data.get "error" = none ∧ s.delivered ≤ cut ∧
    if s.streamOutput then TokensBetween (s.reported.drop s.kept) logprobs s.delivered cut data
    else TokensUpTo (s.reported.drop s.kept) logprobs cut data

/-- The step of a handler ends the request or begins the next attempt with what is left. -/
theorem next_recover_cases {cfg : GenerateConfig} {workerKey : String} {payload : JsonObject}
    {t : RequestState} {resolved : Option String}
    (h : next cfg workerKey payload s (.recover resolved) = some t) :
    (∃ result, t = { s with phase := .ended result }) ∨
    ∃ response u w recovery, s.vars.flushPendingChunk cfg response true = (u, none) ∧
      ((∃ head newUrl, s.phase = .rerouted head newUrl ∧ response = some head ∧
          w = u.afterReroute cfg) ∨
        (∃ error, s.phase = .failed response error) ∧ w = u.afterFailure cfg) ∧
      buildGenerateRecoveryPayload cfg payload w.aggregatedOutputIds = .ok recovery ∧
      t = { s with
        vars := w, phase := .connecting, attempt := s.attempt + 1, currentPayload := recovery } := by
  simp only [next] at h
  split at h
  · rename_i head newUrl hphase
    unfold resume at h
    split at h
    · cases h
    · cases h
      exact .inl ⟨_, rfl⟩
    · rename_i hretry
      cases h
      obtain ⟨u, hflush, hw, hbuild⟩ := handleReroute_retry hretry
      exact .inr ⟨some head, u, _, _, hflush, .inl ⟨head, newUrl, hphase, rfl, hw⟩, hbuild, rfl⟩
  · rename_i response error hphase
    unfold resume at h
    split at h
    · cases h
    · cases h
      exact .inl ⟨_, rfl⟩
    · rename_i hretry
      cases h
      obtain ⟨u, hflush, hw, hbuild⟩ := handleFailure_retry hretry
      exact .inr ⟨response, u, _, _, hflush, .inr ⟨⟨error, hphase⟩, hw⟩, hbuild, rfl⟩
  · cases h

end RequestState

/-! ### The stream loop, one event at a time -/

section

variable {cfg : GenerateConfig} {workerKey : String} {response : ResponseHead}
  {v v' : GenerateState} {e : StreamEvent}

/-- An event that leaves the loop waiting is followed by the others. -/
theorem streamLoop_cons_waiting (h : v.streamLoop cfg workerKey response [e] = (v', .waiting))
    (events : List StreamEvent) :
    v.streamLoop cfg workerKey response (e :: events) =
      v'.streamLoop cfg workerKey response events := by
  cases e with
  | reroute newUrl => cases h
  | failed => cases h
  | other =>
    cases h
    rfl
  | timeout =>
    simp only [GenerateState.streamLoop] at h ⊢
    cases hflush : v.flushPendingChunk cfg (some response) false with
    | mk w result =>
      rw [hflush] at h
      cases result with
      | none =>
        cases h
        rfl
      | some result => cases h
  | closed =>
    simp only [GenerateState.streamLoop] at h
    cases hflush : v.flushPendingChunk cfg (some response) true with
    | mk w result =>
      rw [hflush] at h
      cases result <;> cases h
  | done =>
    simp only [GenerateState.streamLoop] at h
    cases hflush : v.flushPendingChunk cfg (some response) true with
    | mk w result =>
      rw [hflush] at h
      cases result <;> cases h
  | data text =>
    simp only [GenerateState.streamLoop] at h ⊢
    cases hflush : (v.receiveChunk text).flushPendingChunk cfg (some response) false with
    | mk w result =>
      rw [hflush] at h
      cases result with
      | none =>
        cases h
        rfl
      | some result => cases h

/-- An event that ends the loop hides the others. -/
theorem streamLoop_cons_ended {streamEnd : StreamEnd}
    (h : v.streamLoop cfg workerKey response [e] = (v', streamEnd)) (hend : streamEnd ≠ .waiting)
    (events : List StreamEvent) :
    v.streamLoop cfg workerKey response (e :: events) = (v', streamEnd) := by
  cases e with
  | reroute newUrl => exact h
  | failed => exact h
  | other =>
    cases h
    exact absurd rfl hend
  | closed => exact h
  | done => exact h
  | timeout =>
    simp only [GenerateState.streamLoop] at h ⊢
    cases hflush : v.flushPendingChunk cfg (some response) false with
    | mk w result =>
      rw [hflush] at h
      cases result with
      | none =>
        cases h
        exact absurd rfl hend
      | some result => exact h
  | data text =>
    simp only [GenerateState.streamLoop] at h ⊢
    cases hflush : (v.receiveChunk text).flushPendingChunk cfg (some response) false with
    | mk w result =>
      rw [hflush] at h
      cases result with
      | none =>
        cases h
        exact absurd rfl hend
      | some result => exact h

end

namespace RequestState

/-! ### The request as a run -/

section

variable (cfg : GenerateConfig) (workerKey : String) (payload : JsonObject) {s : RequestState}

theorem attempt_note (s : RequestState) (e : StreamEvent) : (s.note e).attempt = s.attempt := by
  obtain ⟨delivered, finished, hnote⟩ := s.note_frame e
  rw [hnote]

/-- The events that a stream loop takes, as steps of the request. -/
theorem exec_streamLoop {response : ResponseHead} (hphase : s.phase = .streaming response)
    (events : List StreamEvent) :
    ∃ run t, exec (next cfg workerKey payload) s run = some t ∧
      t.vars = (s.vars.streamLoop cfg workerKey response events).1 ∧
      t.phase = phaseAfter response (s.vars.streamLoop cfg workerKey response events).2 ∧
      t.attempt = s.attempt := by
  induction events generalizing s with
  | nil => exact ⟨[], s, rfl, rfl, hphase, rfl⟩
  | cons e events ih =>
    cases hone : s.vars.streamLoop cfg workerKey response [e] with
    | mk w streamEnd =>
      have hnext : next cfg workerKey payload s (.receive e) =
          some { s.note e with vars := w, phase := phaseAfter response streamEnd } := by
        simp only [next, hphase, hone]
      cases hend : streamEnd with
      | waiting =>
        subst hend
        obtain ⟨run, t, hrun, hvars, hphase', hattempt⟩ := ih
          (s := { s.note e with vars := w, phase := .streaming response }) rfl
        rw [streamLoop_cons_waiting hone]
        exact ⟨.receive e :: run, t, (exec_cons_some hnext run).trans hrun, hvars, hphase',
          hattempt.trans (s.attempt_note e)⟩
      | finished _ | rerouted _ | failed _ =>
        rw [streamLoop_cons_ended hone (by rw [hend]; simp)]
        subst hend
        exact ⟨[.receive e], _, exec_cons_some hnext [], rfl, rfl, s.attempt_note e⟩

/-- The state agrees with what an attempt leaves. -/
structure Follows (s t : RequestState) (e : AttemptEnd) : Prop where
  finished : ∀ result, e = .finished result → t.phase = .ended result
  retry : ∀ url recovery vars, e = .retry url recovery vars →
    t.phase = .connecting ∧ t.vars = vars ∧ t.attempt = s.attempt + 1 ∧ t.currentPayload = recovery

theorem follows_finished (s : RequestState) {t : RequestState} {result : GenerateResult}
    (h : t.phase = .ended result) : s.Follows t (.finished result) where
  finished _ he := by
    cases he
    exact h
  retry _ _ _ he := by cases he

theorem follows_waiting (s t : RequestState) : s.Follows t .waiting where
  finished _ he := by cases he
  retry _ _ _ he := by cases he

/-- Only the number of the attempt counts. -/
theorem Follows.of_attempt {t t' : RequestState} {e : AttemptEnd} (h : t.Follows t' e)
    (hattempt : t.attempt = s.attempt) : s.Follows t' e where
  finished := h.finished
  retry _ _ _ he := by
    have hretry := h.retry _ _ _ he
    rwa [hattempt] at hretry

/-- The step of a handler. -/
theorem exec_recover {resolved : Option String} {e : AttemptEnd}
    (hnext : next cfg workerKey payload s (.recover resolved) = s.resume e) :
    ∃ run t, exec (next cfg workerKey payload) s run = some t ∧ s.Follows t e := by
  cases e with
  | waiting => exact ⟨[], s, rfl, follows_waiting s s⟩
  | finished result =>
    exact ⟨[.recover resolved], _, exec_cons_some hnext [], follows_finished s rfl⟩
  | retry url recovery vars =>
    refine ⟨[.recover resolved], _, exec_cons_some hnext [], ?_, ?_⟩
    · intro _ he
      cases he
    · intro url' recovery' vars' he
      cases he
      exact ⟨rfl, rfl, rfl, rfl⟩

/-- One turn of the attempt loop, as steps of the request. -/
theorem exec_runAttempt (hphase : s.phase = .connecting) (a : Attempt)
    (generation : List (Int × Json)) (streamOutput : Bool) :
    ∃ run t, exec (next cfg workerKey payload) s run = some t ∧
      s.Follows t (runAttempt cfg workerKey payload a (decide (s.attempt = cfg.maxAttempts))
        s.vars) := by
  obtain ⟨response, events, resolved⟩ := a
  cases response with
  | none =>
    have hconnect : next cfg workerKey payload s (.connect none generation streamOutput) =
        some { s.beginAttempt generation streamOutput with
          phase := .failed none .transportError } := by
      simp only [next, hphase]
    obtain ⟨run, t, hrun, hfollows⟩ := exec_recover cfg workerKey payload
      (s := { s.beginAttempt generation streamOutput with phase := .failed none .transportError })
      rfl
    exact ⟨_, t, (exec_cons_some hconnect run).trans hrun, hfollows.of_attempt rfl⟩
  | some response =>
    by_cases hsuccess : response.isSuccess = true
    · have hconnect : next cfg workerKey payload s
          (.connect (some response) generation streamOutput) =
          some { s.beginAttempt generation streamOutput with phase := .streaming response } := by
        simp only [next, hphase, hsuccess, if_true]
      obtain ⟨run, t, hrun, hvars, hphase', hattempt⟩ := exec_streamLoop cfg workerKey payload
        (s := { s.beginAttempt generation streamOutput with phase := .streaming response })
        rfl events
      have hrun' := (exec_cons_some hconnect run).trans hrun
      change t.vars = (s.vars.beginAttempt.streamLoop cfg workerKey response events).1 at hvars
      change t.phase = phaseAfter response
        (s.vars.beginAttempt.streamLoop cfg workerKey response events).2 at hphase'
      change t.attempt = s.attempt at hattempt
      simp only [runAttempt, hsuccess, Bool.not_true, Bool.false_eq_true, if_false]
      cases hloop : s.vars.beginAttempt.streamLoop cfg workerKey response events with
      | mk w streamEnd =>
        rw [hloop] at hvars hphase'
        cases streamEnd with
        | waiting => exact ⟨_, t, hrun', follows_waiting s t⟩
        | finished result => exact ⟨_, t, hrun', follows_finished s hphase'⟩
        | rerouted newUrl =>
          have hnext : next cfg workerKey payload t (.recover resolved) =
              t.resume (handleReroute cfg workerKey payload (some response) resolved newUrl
                (decide (s.attempt = cfg.maxAttempts)) w) := by
            simp only [next, hphase', phaseAfter, hvars, hattempt]
          obtain ⟨run', t', hrecover, hfollows⟩ := exec_recover cfg workerKey payload hnext
          exact ⟨_, t', (exec_append hrun' run').trans hrecover, hfollows.of_attempt hattempt⟩
        | failed error =>
          have hnext : next cfg workerKey payload t (.recover resolved) =
              t.resume (handleFailure cfg payload (some response) resolved error
                (decide (s.attempt = cfg.maxAttempts)) w) := by
            simp only [next, hphase', phaseAfter, hvars, hattempt]
          obtain ⟨run', t', hrecover, hfollows⟩ := exec_recover cfg workerKey payload hnext
          exact ⟨_, t', (exec_append hrun' run').trans hrecover, hfollows.of_attempt hattempt⟩
    · have hconnect : next cfg workerKey payload s
          (.connect (some response) generation streamOutput) =
          some { s.beginAttempt generation streamOutput with
            phase := .ended (.raised (.httpStatusError response.statusCode)) } := by
        simp only [next, hphase, hsuccess, Bool.false_eq_true, if_false]
      simp only [runAttempt, hsuccess, Bool.not_false, if_true]
      exact ⟨_, _, exec_cons_some hconnect [], follows_finished s rfl⟩

/-- Whatever the attempt loop answers, a run of the request ends with it. -/
theorem exec_attemptLoop {serve : Nat → String → JsonObject → Attempt} {left number : Nat}
    {url : String} {result : GenerateResult} (hphase : s.phase = .connecting)
    (hleft : s.attempt + left = cfg.maxAttempts)
    (h : attemptLoop cfg workerKey payload serve left number url s.currentPayload s.vars =
      some result) :
    ∃ run t, exec (next cfg workerKey payload) s run = some t ∧ t.phase = .ended result := by
  induction left generalizing number url s with
  | zero =>
    obtain ⟨run, t, hrun, hfollows⟩ := exec_runAttempt cfg workerKey payload hphase
      (serve number url s.currentPayload) [] false
    have hlast : decide (s.attempt = cfg.maxAttempts) = true := decide_eq_true hleft
    rw [hlast] at hfollows
    simp only [attemptLoop] at h
    split at h
    · rename_i hattempt
      cases h
      exact ⟨run, t, hrun, hfollows.finished _ hattempt⟩
    · cases h
    · cases h
  | succ left ih =>
    obtain ⟨run, t, hrun, hfollows⟩ := exec_runAttempt cfg workerKey payload hphase
      (serve number url s.currentPayload) [] false
    have hlast : decide (s.attempt = cfg.maxAttempts) = false := by
      rw [decide_eq_false_iff_not]
      omega
    rw [hlast] at hfollows
    simp only [attemptLoop] at h
    split at h
    · rename_i hattempt
      cases h
      exact ⟨run, t, hrun, hfollows.finished _ hattempt⟩
    · cases h
    · rename_i url' recovery vars hattempt
      obtain ⟨hphase', rfl, hattempts, rfl⟩ := hfollows.retry _ _ _ hattempt
      obtain ⟨run', t', hrun', hended⟩ := ih hphase' (by omega) h
      exact ⟨run ++ run', t', (exec_append hrun run').trans hrun', hended⟩

/-- Each answer of `_proxy_generate` is one that a run of the request ends with. -/
theorem reaches_proxyGenerate {serve : Nat → String → JsonObject → Attempt} {url : String}
    {body : JsonObject} {result : GenerateResult}
    (h : proxyGenerate cfg workerKey url body serve = some result) :
    Reaches (next cfg workerKey (body.set "stream" (.bool true)))
      (fun t => t.phase = .ended result) (init cfg (body.set "stream" (.bool true))) :=
  exec_attemptLoop cfg workerKey _ (s := init cfg (body.set "stream" (.bool true))) rfl
    (Nat.zero_add _) h

end

end RequestState

end Belayer.Router
