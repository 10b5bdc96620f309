import Belayer.Router.RequestRun

namespace Belayer.Router

open Belayer.Framework

variable {cfg : GenerateConfig} {logprobs : Bool}

/-! ### Checkpoint targets -/

theorem advanceTarget_spec {interval : Nat} (hpos : 0 < interval) (tokens fuel : Nat) {target : Nat}
    (hfuel : tokens < fuel + target) (hle : target ≤ tokens + interval) :
    tokens < advanceTarget interval tokens fuel target ∧
      advanceTarget interval tokens fuel target ≤ tokens + interval := by
  induction fuel generalizing target with
  | zero =>
    have hlt : tokens < target := by omega
    exact ⟨hlt, hle⟩
  | succ fuel ih =>
    simp only [advanceTarget]
    split_ifs with hreached
    · exact ih (by omega) (by omega)
    · exact ⟨by omega, hle⟩

/-- The next target is ahead of the tokens, and at most one interval past the checkpoint. -/
structure Targeted (cfg : GenerateConfig) (v : GenerateState) : Prop where
  ahead : v.aggregatedOutputIds.length < v.nextCheckpointTokenTarget
  within : v.nextCheckpointTokenTarget ≤ v.checkpoint.outputIds.length + cfg.checkpointTokens

namespace Targeted

variable {v : GenerateState}

theorem init (cfg : GenerateConfig) : Targeted cfg (.init cfg) :=
  ⟨cfg.checkpointTokens_pos, Nat.le_add_left _ _⟩

/-- A flush may jump over several targets at once. -/
theorem reachTarget
    (h : v.nextCheckpointTokenTarget ≤ v.checkpoint.outputIds.length + cfg.checkpointTokens) :
    Targeted cfg (v.reachTarget cfg) := by
  unfold GenerateState.reachTarget
  dsimp only
  split_ifs with hreached
  · have hfuel : v.aggregatedOutputIds.length <
        v.aggregatedOutputIds.length + 1 + v.nextCheckpointTokenTarget := by omega
    obtain ⟨hahead, hwithin⟩ := advanceTarget_spec cfg.checkpointTokens_pos _ _ hfuel (by omega)
    exact ⟨hahead, hwithin⟩
  · exact ⟨Nat.lt_of_not_le hreached, h⟩

theorem absorbChunk (h : Targeted cfg v) (data : JsonObject) :
    Targeted cfg (v.absorbChunk cfg data) := by
  unfold GenerateState.absorbChunk
  dsimp only
  split_ifs
  · exact ⟨h.ahead, h.within⟩
  · exact ⟨h.ahead, h.within⟩
  · exact reachTarget h.within

theorem flushPendingChunk (h : Targeted cfg v) (response : Option ResponseHead) (force : Bool) :
    Targeted cfg (v.flushPendingChunk cfg response force).1 := by
  rcases flushPendingChunk_cases cfg response v force with
    ⟨u, result, hflush, rfl | rfl⟩ | ⟨hflush, -⟩ | ⟨data, -, -, hflush⟩
  · rw [hflush]
    exact h
  · rw [hflush]
    exact ⟨h.ahead, h.within⟩
  · rw [hflush]
    exact h
  · rw [hflush]
    have hcleared : Targeted cfg { v with pendingChunkData := none, pendingChunkCount := 0 } :=
      ⟨h.ahead, h.within⟩
    exact hcleared.absorbChunk data

theorem reset (cfg : GenerateConfig) (v : GenerateState) :
    Targeted cfg (v.resetGenerateRecoveryState cfg) :=
  ⟨cfg.checkpointTokens_pos, Nat.le_add_left _ _⟩

theorem afterReroute (h : Targeted cfg v) : Targeted cfg (v.afterReroute cfg) := by
  unfold GenerateState.afterReroute
  split_ifs
  · exact reset cfg _
  · exact ⟨h.ahead, h.within⟩

/-- A checkpoint that is no longer than the tokens leaves the target ahead. -/
theorem afterFailure (h : Targeted cfg v)
    (hle : v.checkpoint.outputIds.length ≤ v.aggregatedOutputIds.length) :
    Targeted cfg (v.afterFailure cfg) := by
  unfold GenerateState.afterFailure
  split_ifs
  · exact reset cfg _
  · exact ⟨Nat.lt_of_le_of_lt hle h.ahead, h.within⟩

end Targeted

/-! ### The tokens of a stream -/

theorem Keeps.length {G : List (Int × Json)} {k : Nat} {ids : List Int} {entries : List Json}
    (h : Keeps G logprobs k ids entries) (hk : k ≤ G.length) : ids.length = k := by
  rw [h.1, tokenIds, List.length_map, List.length_take, Nat.min_eq_left hk]

/-- Tokens that a later attempt generates come behind those that are kept. -/
theorem Keeps.append {G g : List (Int × Json)} {m k : Nat} {ids : List Int} {entries : List Json}
    (h : Keeps G logprobs m ids entries) (hm : m ≤ k) (hk : k ≤ G.length) :
    Keeps (G.take k ++ g) logprobs m ids entries := by
  have htake : (G.take k ++ g).take m = G.take m := by
    rw [List.take_append_of_le_length (by rw [List.length_take]; omega), List.take_take,
      Nat.min_eq_left hm]
  exact ⟨htake ▸ h.1, htake ▸ h.2⟩

theorem Keeps.prefixes {G : List (Int × Json)} {m k : Nat} {ids ids' : List Int}
    {entries entries' : List Json} (h : Keeps G logprobs m ids entries)
    (h' : Keeps G logprobs k ids' entries') (hm : m ≤ k) : ids <+: ids' := by
  rw [h.1, h'.1]
  exact (List.take_prefix_take_left hm).map Prod.fst

/-- The variables hold a prefix of the tokens, and the checkpoint a prefix of that. -/
def Held (G : List (Int × Json)) (logprobs : Bool) (v : GenerateState) : Prop :=
  ∃ m k, m ≤ k ∧ k ≤ G.length ∧
    Keeps G logprobs k v.aggregatedOutputIds v.aggregatedOutputTokenLogprobs ∧
    Keeps G logprobs m v.checkpoint.outputIds v.checkpoint.outputTokenLogprobs

/-- The attempt began after `a` tokens and its chunks held `d`, the last of which may be pending. -/
def Underway (G : List (Int × Json)) (logprobs : Bool) (a d : Nat) (v : GenerateState) : Prop :=
  ∃ c ≤ d, a + c ≤ G.length ∧ Spliced G logprobs a c v ∧
    (v.pendingChunkData = none → c = d) ∧
    ∀ data, v.pendingChunkData = some (some data) → data.get "error" = none →
      TokensUpTo (G.drop a) logprobs d data

section

variable {G : List (Int × Json)} {a d : Nat} {v : GenerateState}

theorem Spliced.held {c : Nat} (h : Spliced G logprobs a c v) (hle : a + c ≤ G.length) :
    Held G logprobs v := by
  obtain ⟨m, hm, hcheckpoint⟩ := h.checkpoint
  exact ⟨m, a + c, hm, hle, h.kept, hcheckpoint⟩

theorem Underway.held (h : Underway G logprobs a d v) : Held G logprobs v := by
  obtain ⟨c, -, hle, hspliced, -⟩ := h
  exact hspliced.held hle

/-- A flush that does not end the request goes on with the stream, and all that it held is there
when the flush is forced. -/
theorem Underway.flushPendingChunk (h : Underway G logprobs a d v) (cfg : GenerateConfig)
    (response : Option ResponseHead) (force : Bool) :
    Held G logprobs (v.flushPendingChunk cfg response force).1 ∧
      ((v.flushPendingChunk cfg response force).2 = none →
        Underway G logprobs a d (v.flushPendingChunk cfg response force).1 ∧
          (force = true → (v.flushPendingChunk cfg response force).1.pendingChunkData = none)) := by
  obtain ⟨c, hc, hle, hspliced, hnone, htokens⟩ := h
  have hcleared : Spliced G logprobs a c
      { v with pendingChunkData := none, pendingChunkCount := 0 } :=
    ⟨hspliced.kept, hspliced.current, hspliced.checkpoint⟩
  rcases flushPendingChunk_cases cfg response v force with
    ⟨u, result, hflush, rfl | rfl⟩ | ⟨hflush, hforce⟩ | ⟨data, hpending, herror, hflush⟩
  · rw [hflush]
    exact ⟨hspliced.held hle, fun he => by cases he⟩
  · rw [hflush]
    exact ⟨hcleared.held hle, fun he => by cases he⟩
  · rw [hflush]
    exact ⟨hspliced.held hle, fun _ => ⟨⟨c, hc, hle, hspliced, hnone, htokens⟩, hforce⟩⟩
  · have hd := htokens data hpending herror
    have hbound : a + d ≤ G.length := by
      have hlength := hd.le
      rw [List.length_drop] at hlength
      omega
    have habsorbed : Spliced G logprobs a d
        ({ v with pendingChunkData := none, pendingChunkCount := 0 }.absorbChunk cfg data) :=
      hcleared.absorbChunk hd hc
    have hdone : ({ v with pendingChunkData := none, pendingChunkCount := 0 }.absorbChunk cfg
        data).pendingChunkData = none :=
      pendingChunkData_absorbChunk _ data
    rw [hflush]
    refine ⟨habsorbed.held hbound, fun _ => ⟨⟨d, Nat.le_refl d, hbound, habsorbed, fun _ => rfl, ?_⟩,
      fun _ => hdone⟩⟩
    intro data' hpending'
    rw [hdone] at hpending'
    cases hpending'

/-- A line joins the stream as the pending chunk. -/
theorem Underway.receiveChunk (h : Underway G logprobs a d v) {d' : Nat} (hd : d ≤ d')
    {text : Option JsonObject}
    (htokens : ∀ data, text = some data → data.get "error" = none →
      TokensUpTo (G.drop a) logprobs d' data) :
    Underway G logprobs a d' (v.receiveChunk text) := by
  obtain ⟨c, hc, hle, hspliced, -⟩ := h
  refine ⟨c, Nat.le_trans hc hd, hle, ⟨hspliced.kept, hspliced.current, hspliced.checkpoint⟩, ?_, ?_⟩
  · intro hpending
    cases hpending
  · intro data hpending
    cases hpending
    exact htokens data rfl

/-- A stream whose chunks are all flushed holds the tokens of its chunks. -/
theorem Underway.length (h : Underway G logprobs a d v) (hpending : v.pendingChunkData = none) :
    v.aggregatedOutputIds.length = a + d := by
  obtain ⟨c, -, hle, hspliced, hnone, -⟩ := h
  obtain rfl := hnone hpending
  exact hspliced.kept.length hle

theorem Held.init (cfg : GenerateConfig) (G : List (Int × Json)) (logprobs : Bool) :
    Held G logprobs (.init cfg) :=
  ⟨0, 0, Nat.le_refl 0, Nat.zero_le _, (ready_init cfg G logprobs).kept,
    (ready_init cfg G logprobs).kept⟩

theorem Held.reset (cfg : GenerateConfig) (G : List (Int × Json)) (logprobs : Bool)
    (v : GenerateState) : Held G logprobs (v.resetGenerateRecoveryState cfg) :=
  Held.init cfg G logprobs

theorem Held.afterReroute (h : Held G logprobs v) : Held G logprobs (v.afterReroute cfg) := by
  unfold GenerateState.afterReroute
  split_ifs
  · exact Held.reset cfg G logprobs _
  · exact h

theorem Held.afterFailure (h : Held G logprobs v) : Held G logprobs (v.afterFailure cfg) := by
  unfold GenerateState.afterFailure
  split_ifs
  · exact Held.reset cfg G logprobs _
  · obtain ⟨m, k, hmk, hk, -, hcheckpoint⟩ := h
    exact ⟨m, m, Nat.le_refl m, Nat.le_trans hmk hk, hcheckpoint, hcheckpoint⟩

theorem Held.checkpoint_initial (h : Held G logprobs v) :
    v.checkpoint.outputIds <+: v.aggregatedOutputIds := by
  obtain ⟨m, k, hmk, -, hkept, hcheckpoint⟩ := h
  exact hcheckpoint.prefixes hkept hmk

end

/-! ### The request -/

/-- A line that is no error holds the tokens of the attempt so far, in a worker that streams its
chunks cumulatively. -/
def CumulativeLine (logprobs : Bool) (s : RequestState) : RequestAction → Prop
  | .connect _ _ streamOutput => streamOutput = false
  | .receive (.data (some data)) => data.get "error" = none →
    ∃ cut, s.delivered ≤ cut ∧ TokensUpTo (s.reported.drop s.kept) logprobs cut data
  | .receive _ | .recover _ => True

namespace RequestState

/-- What a connection leaves to the stream, and a handler to the connection. -/
structure Sound (cfg : GenerateConfig) (logprobs : Bool) (s : RequestState) : Prop where
  targeted : Targeted cfg s.vars
  held : Held s.reported logprobs s.vars
  whole : s.streamOutput = false
  connecting : s.phase = .connecting → s.vars.pendingChunkData = none
  underway : s.phase ≠ .connecting → (∀ result, s.phase ≠ .ended result) →
    Underway s.reported logprobs s.kept s.delivered s.vars

theorem sound_init (cfg : GenerateConfig) (logprobs : Bool) (payload : JsonObject) :
    Sound cfg logprobs (init cfg payload) where
  targeted := Targeted.init cfg
  held := Held.init cfg [] logprobs
  whole := rfl
  connecting _ := rfl
  underway h := absurd rfl h

variable {workerKey : String} {payload : JsonObject} {s t : RequestState}

/-- The tokens of a new attempt come behind those that are kept. -/
theorem Sound.beginAttempt (h : Sound cfg logprobs s) (hphase : s.phase = .connecting)
    (generation : List (Int × Json)) :
    Underway (s.beginAttempt generation false).reported logprobs
      (s.beginAttempt generation false).kept 0 (s.beginAttempt generation false).vars := by
  obtain ⟨m, k, hmk, hk, hkept, hcheckpoint⟩ := h.held
  have hlength := hkept.length hk
  have hpending := h.connecting hphase
  refine ⟨0, Nat.le_refl 0, ?_, ⟨?_, ?_, m, ?_, ?_⟩, fun _ => rfl, ?_⟩
  · simp only [RequestState.beginAttempt, List.length_append, List.length_take]
    omega
  · simp only [RequestState.beginAttempt, hlength]
    exact hkept.append (Nat.le_refl k) hk
  · simp [RequestState.beginAttempt, GenerateState.beginAttempt, tokenIds]
  · simp only [RequestState.beginAttempt, hlength]
    omega
  · simp only [RequestState.beginAttempt, hlength]
    exact hcheckpoint.append hmk hk
  · intro data hdata
    rw [RequestState.beginAttempt, GenerateState.beginAttempt, hpending] at hdata
    cases hdata

/-- A request whose stream is open. -/
theorem Sound.of_underway (htargeted : Targeted cfg t.vars) (hwhole : t.streamOutput = false)
    (hphase : t.phase ≠ .connecting)
    (h : Underway t.reported logprobs t.kept t.delivered t.vars) : Sound cfg logprobs t :=
  ⟨htargeted, h.held, hwhole, fun hconnecting => absurd hconnecting hphase, fun _ _ => h⟩

/-- A request that is over. -/
theorem Sound.of_ended {result : GenerateResult} (htargeted : Targeted cfg t.vars)
    (hheld : Held t.reported logprobs t.vars) (hwhole : t.streamOutput = false)
    (hphase : t.phase = .ended result) : Sound cfg logprobs t := by
  refine ⟨htargeted, hheld, hwhole, ?_, fun _ hopen => absurd hphase (hopen result)⟩
  intro hconnecting
  rw [hphase] at hconnecting
  cases hconnecting

theorem Sound.connect {response : Option ResponseHead} {generation : List (Int × Json)}
    (h : Sound cfg logprobs s)
    (hnext : next cfg workerKey payload s (.connect response generation false) = some t) :
    Sound cfg logprobs t := by
  have htargeted : Targeted cfg (s.beginAttempt generation false).vars :=
    ⟨h.targeted.ahead, h.targeted.within⟩
  simp only [next] at hnext
  split at hnext
  · rename_i hphase
    have hunderway := h.beginAttempt hphase generation
    split at hnext
    · cases hnext
      exact .of_underway htargeted rfl (by simp) hunderway
    · split at hnext
      · cases hnext
        exact .of_underway htargeted rfl (by simp) hunderway
      · cases hnext
        exact .of_ended htargeted hunderway.held rfl rfl
  · cases hnext

/-- What an event adds to the stream is what the history notes. -/
theorem Sound.receiveEvent (h : Sound cfg logprobs s) {response : ResponseHead}
    (hphase : s.phase = .streaming response) (e : StreamEvent)
    (hline : CumulativeLine logprobs s (.receive e)) :
    Underway s.reported logprobs s.kept (s.note e).delivered (s.vars.receiveEvent e) := by
  have hunderway := h.underway (by simp [hphase]) (by simp [hphase])
  cases e with
  | data text =>
    cases text with
    | none => exact hunderway.receiveChunk (Nat.le_refl _) (fun data he => by cases he)
    | some data =>
      cases herror : data.get "error" with
      | none =>
        obtain ⟨cut, hle, htokens⟩ := hline herror
        rw [delivered_note_upTo h.whole herror htokens]
        refine hunderway.receiveChunk hle ?_
        intro data' he _
        cases he
        exact htokens
      | some error =>
        have hdelivered : (s.note (.data (some data))).delivered = s.delivered := by
          simp [note, herror]
        rw [hdelivered]
        refine hunderway.receiveChunk (Nat.le_refl _) ?_
        intro data' he hnone
        cases he
        rw [herror] at hnone
        cases hnone
  | _ => exact hunderway

theorem Sound.receive {e : StreamEvent} (h : Sound cfg logprobs s)
    (hline : CumulativeLine logprobs s (.receive e))
    (hnext : next cfg workerKey payload s (.receive e) = some t) : Sound cfg logprobs t := by
  simp only [next] at hnext
  split at hnext
  · rename_i response hphase
    have hreceived := h.receiveEvent hphase e hline
    obtain ⟨delivered, finished, hnote⟩ := s.note_frame e
    rw [hnote] at hreceived hnext
    cases hnext
    have htargeted : Targeted cfg (s.vars.receiveEvent e) := by
      cases e <;> exact ⟨h.targeted.ahead, h.targeted.within⟩
    have hconnecting := phaseAfter_ne_connecting response
      (s.vars.streamLoop cfg workerKey response [e]).2
    rcases streamLoop_singleton_cases cfg workerKey response s.vars e with
      hvars | ⟨force, hvars, hgoes⟩
    · refine .of_underway ?_ h.whole hconnecting ?_
      · rw [hvars]
        exact htargeted
      · rw [hvars]
        exact hreceived
    · obtain ⟨hheld, hopened⟩ := hreceived.flushPendingChunk cfg (some response) force
      have hflushed := htargeted.flushPendingChunk (some response) force
      rw [← hvars] at hheld hopened hflushed
      cases hend : (s.vars.streamLoop cfg workerKey response [e]).2 with
      | finished result => exact .of_ended hflushed hheld h.whole rfl
      | waiting | rerouted newUrl | failed error =>
        refine .of_underway hflushed h.whole (hend ▸ hconnecting) (hopened (hgoes ?_)).1
        rw [hend]
        simp
  · cases hnext

theorem Sound.recover {resolved : Option String} (h : Sound cfg logprobs s)
    (hnext : next cfg workerKey payload s (.recover resolved) = some t) :
    Sound cfg logprobs t := by
  rcases next_recover_cases hnext with ⟨result, rfl⟩ |
    ⟨response, u, w, recovery, hflush, hw, -, rfl⟩
  · exact .of_ended h.targeted h.held h.whole rfl
  · have hopen : s.phase ≠ .connecting ∧ ∀ result, s.phase ≠ .ended result := by
      rcases hw with ⟨head, newUrl, hphase, -⟩ | ⟨⟨error, hphase⟩, -⟩ <;> simp [hphase]
    obtain ⟨hheld, hopened⟩ := (h.underway hopen.1 hopen.2).flushPendingChunk cfg response true
    have htargeted := h.targeted.flushPendingChunk response true
    rw [hflush] at hheld hopened htargeted
    obtain ⟨-, hpending⟩ := hopened rfl
    have hw' : w = u.afterReroute cfg ∨ w = u.afterFailure cfg := by
      rcases hw with ⟨-, -, -, -, hw⟩ | ⟨-, hw⟩
      · exact .inl hw
      · exact .inr hw
    rcases hw' with rfl | rfl
    · refine ⟨htargeted.afterReroute, hheld.afterReroute, h.whole, fun _ => ?_,
        fun hconnecting => absurd rfl hconnecting⟩
      rw [pendingChunkData_afterReroute, hpending rfl]
    · refine ⟨htargeted.afterFailure hheld.checkpoint_initial.length_le, hheld.afterFailure, h.whole,
        fun _ => ?_, fun hconnecting => absurd rfl hconnecting⟩
      rw [pendingChunkData_afterFailure, hpending rfl]

theorem sound_next {a : RequestAction} (h : Sound cfg logprobs s)
    (hline : CumulativeLine logprobs s a) (hnext : next cfg workerKey payload s a = some t) :
    Sound cfg logprobs t := by
  cases a with
  | connect response generation streamOutput =>
    obtain rfl : streamOutput = false := hline
    exact h.connect hnext
  | receive e => exact h.receive hline hnext
  | recover resolved => exact h.recover hnext

/-- The number of received tokens that the handler of a failure discards when `u` is what it
flushed: it goes back to the last checkpoint. -/
def discarded (cfg : GenerateConfig) (s : RequestState) (u : GenerateState) : Nat :=
  s.kept + s.delivered - (u.afterFailure cfg).aggregatedOutputIds.length

/-- Ids and entries are those of a prefix of the tokens, the ids of the checkpoint are a prefix of
the ids, and a rewind discards less than an interval. -/
structure Checkpointed (cfg : GenerateConfig) (logprobs : Bool) (s : RequestState) : Prop where
  aligned : ∃ k ≤ s.reported.length, Keeps s.reported logprobs k s.vars.aggregatedOutputIds
    s.vars.aggregatedOutputTokenLogprobs
  checkpoint : s.vars.checkpoint.outputIds <+: s.vars.aggregatedOutputIds
  bounded : ∀ response error u, s.phase = .failed response error →
    s.vars.flushPendingChunk cfg response true = (u, none) →
    ¬(cfg.disableTokenLevelRecovery ∧ u.aggregatedOutputIds ≠ []) →
    s.discarded cfg u < cfg.checkpointTokens

theorem Sound.checkpointed (h : Sound cfg logprobs s) : Checkpointed cfg logprobs s := by
  obtain ⟨m, k, hmk, hk, hkept, hcheckpoint⟩ := h.held
  refine ⟨⟨k, hk, hkept⟩, h.held.checkpoint_initial, ?_⟩
  intro response error u hphase hflush hrewinds
  have hunderway := h.underway (by simp [hphase]) (by simp [hphase])
  obtain ⟨-, hopened⟩ := hunderway.flushPendingChunk cfg response true
  have htargeted := h.targeted.flushPendingChunk response true
  rw [hflush] at hopened htargeted
  obtain ⟨hflushed, hpending⟩ := hopened rfl
  have hahead : u.aggregatedOutputIds.length < u.nextCheckpointTokenTarget := htargeted.ahead
  have hwithin : u.nextCheckpointTokenTarget ≤
      u.checkpoint.outputIds.length + cfg.checkpointTokens := htargeted.within
  have hlength : u.aggregatedOutputIds.length = s.kept + s.delivered :=
    hflushed.length (hpending rfl)
  have hpos := cfg.checkpointTokens_pos
  rw [discarded, GenerateState.afterFailure, if_neg hrewinds]
  change s.kept + s.delivered - u.checkpoint.outputIds.length < cfg.checkpointTokens
  omega

/-- In every run of a request whose workers stream cumulatively, whatever fails, rewinds or is
rerouted, the tokens are aligned and no rewind loses a whole interval. -/
theorem cumulative_checkpointed (cfg : GenerateConfig) (workerKey : String) (payload : JsonObject)
    (logprobs : Bool) (run : List RequestAction)
    (h : Meets (next cfg workerKey payload) (CumulativeLine logprobs) (init cfg payload) run) :
    Along (next cfg workerKey payload) (Checkpointed cfg logprobs) (init cfg payload) run :=
  (along_of_meets (fun _ _ _ => sound_next) (sound_init cfg logprobs payload) h).mono
    fun _ => Sound.checkpointed

/-- Two tokens are generated and a checkpoint is taken after each, then the connection fails and
another worker takes over. -/
theorem cumulative_checkpointed_twoTokens :
    Along (next exampleConfig "k" exampleBody) (Checkpointed exampleConfig true)
      (init exampleConfig exampleBody)
      [.connect (some ⟨200, []⟩) (countingWorker.run [5, 6] 4) false,
        .receive (.data (some (cutChunk (countingWorker.run [5, 6] 4) true 2))),
        .receive .failed, .recover (some "http://h:2")] := by
  refine cumulative_checkpointed exampleConfig "k" exampleBody true _ ?_
  refine (meets_cons_some rfl).mpr ⟨rfl, (meets_cons_some rfl).mpr ⟨fun _ => ?_,
    (meets_cons_some rfl).mpr ⟨trivial, (meets_cons_some rfl).mpr ⟨trivial, trivial⟩⟩⟩⟩
  exact ⟨2, Nat.zero_le 2, (cutChunk_cumulative (by decide)).tokens⟩

end RequestState

end Belayer.Router
