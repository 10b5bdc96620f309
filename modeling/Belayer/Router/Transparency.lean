import Belayer.Router.WorkerStream

namespace Belayer.Router

open Belayer.Framework

variable {cfg : GenerateConfig} {G g : List (Int × Json)} {logprobs : Bool}

/-! ### What the router reads off a cumulative chunk -/

theorem normalizeOutputIds_int (ids : List Int) :
    normalizeOutputIds (some (.arr (ids.map .int))) = ids := by
  simp only [normalizeOutputIds, List.filterMap_map]
  induction ids with
  | nil => rfl
  | cons id ids ih => simpa [toIntTokenId] using ih

namespace TokensUpTo

variable {cut : Nat} {data : JsonObject}

theorem listOrEmpty_entries (h : TokensUpTo g logprobs cut data) :
    Json.listOrEmpty ((chunkMetaInfo data).get "output_token_logprobs") =
      tokenEntries (g.take cut) logprobs := by
  rw [h.entries, tokenEntries]
  split_ifs <;> rfl

theorem extract (h : TokensUpTo g logprobs cut data) :
    (extractChunkOutputIds data (chunkMetaInfo data)).1 = tokenIds (g.take cut) := by
  unfold extractChunkOutputIds
  rw [h.outputIds, normalizeOutputIds_int]
  dsimp only
  split_ifs with hids hmeta
  · rfl
  · -- no tokens, so no entries either
    have hnil : g.take cut = [] := List.map_eq_nil_iff.mp (not_not.mp hids)
    rw [extractOutputIdsFromMetaInfo, h.listOrEmpty_entries, hnil] at hmeta
    simp [tokenEntries] at hmeta
  · exact (not_not.mp hids).symm

end TokensUpTo

/-! ### Splicing -/

/-- The ids and the entries of the first `k` tokens. -/
def Keeps (G : List (Int × Json)) (logprobs : Bool) (k : Nat) (ids : List Int)
    (entries : List Json) : Prop :=
  ids = tokenIds (G.take k) ∧ entries = tokenEntries (G.take k) logprobs

/-- The attempt began after `a` tokens and `c` of its own are flushed; the checkpoint
is a prefix of what is there. -/
structure Spliced (G : List (Int × Json)) (logprobs : Bool) (a c : Nat) (s : GenerateState) :
    Prop where
  kept : Keeps G logprobs (a + c) s.aggregatedOutputIds s.aggregatedOutputTokenLogprobs
  current : s.currentAttemptOutputIds = tokenIds ((G.drop a).take c)
  checkpoint : ∃ m ≤ a + c,
    Keeps G logprobs m s.checkpoint.outputIds s.checkpoint.outputTokenLogprobs

theorem tokenIds_append (g₁ g₂ : List (Int × Json)) :
    tokenIds (g₁ ++ g₂) = tokenIds g₁ ++ tokenIds g₂ :=
  List.map_append

theorem tokenEntries_append (g₁ g₂ : List (Int × Json)) (logprobs : Bool) :
    tokenEntries (g₁ ++ g₂) logprobs = tokenEntries g₁ logprobs ++ tokenEntries g₂ logprobs := by
  unfold tokenEntries
  split_ifs <;> simp

/-- The tokens up to a later cut are those up to an earlier one and the ones between. -/
theorem take_later (G : List (Int × Json)) (a : Nat) {c cut : Nat} (h : c ≤ cut) :
    G.take (a + cut) = G.take (a + c) ++ ((G.drop a).take cut).drop c := by
  have hsplit : (G.drop a).take cut = (G.drop a).take c ++ ((G.drop a).take cut).drop c := by
    conv_lhs => rw [← List.take_append_drop c ((G.drop a).take cut)]
    rw [List.take_take, Nat.min_eq_left h]
  rw [List.take_add, List.take_add, List.append_assoc, ← hsplit]

theorem newOutputIds_cumulative {s : GenerateState} {a c cut : Nat} (hc : c ≤ cut)
    (hcut : cut ≤ (G.drop a).length)
    (hcur : s.currentAttemptOutputIds = tokenIds ((G.drop a).take c)) :
    s.currentAttemptOutputIds.isPrefixOf (tokenIds ((G.drop a).take cut)) = true ∧
      s.currentAttemptOutputIds.length = c ∧
      s.newOutputIds (tokenIds ((G.drop a).take cut)) =
        tokenIds (((G.drop a).take cut).drop c) := by
  have hextends : s.currentAttemptOutputIds.isPrefixOf (tokenIds ((G.drop a).take cut)) = true := by
    rw [hcur, List.isPrefixOf_iff_prefix]
    exact (List.take_prefix_take_left hc).map Prod.fst
  have hlength : s.currentAttemptOutputIds.length = c := by
    rw [hcur, tokenIds, List.length_map, List.length_take]
    omega
  refine ⟨hextends, hlength, ?_⟩
  rw [GenerateState.newOutputIds, if_pos hextends, hlength, tokenIds, tokenIds, List.map_drop]

namespace Spliced

variable {s : GenerateState} {a c cut : Nat} {data : JsonObject}

theorem noteChunk (h : Spliced G logprobs a c s) (data : JsonObject) :
    Spliced G logprobs a c (s.noteChunk data) :=
  ⟨h.kept, h.current, h.checkpoint⟩

/-- The new tokens of a cumulative chunk and their entries continue what is there. -/
theorem appendTokens (h : Spliced G logprobs a c s)
    (hd : TokensUpTo (G.drop a) logprobs cut data) (hc : c ≤ cut) (hpos : 0 < cut) :
    Spliced G logprobs a cut
      (s.appendTokens (tokenIds ((G.drop a).take cut)) (chunkMetaInfo data)) := by
  obtain ⟨hextends, hlength, hnew⟩ := newOutputIds_cumulative hc hd.le h.current
  have hend : (tokenIds ((G.drop a).take cut)).length = cut := by
    rw [tokenIds, List.length_map, List.length_take, Nat.min_eq_left hd.le]
  obtain ⟨m, hm, hcheckpoint⟩ := h.checkpoint
  refine ⟨⟨?_, ?_⟩, ?_, m, by omega, hcheckpoint⟩
  · simp only [GenerateState.appendTokens]
    rw [hnew, h.kept.1, take_later G a hc, tokenIds_append]
  · simp only [GenerateState.appendTokens]
    rw [hextends, hlength, hend, hd.listOrEmpty_entries, h.kept.2, take_later G a hc,
      tokenEntries_append, extendLogprobs]
    cases logprobs with
    | false => simp [tokenEntries]
    | true =>
      have hlen : (tokenEntries ((G.drop a).take cut) true).length = cut := by
        rw [tokenEntries, if_pos rfl, List.length_map, List.length_take, Nat.min_eq_left hd.le]
      have hne : (tokenEntries ((G.drop a).take cut) true).isEmpty = false := by
        rw [List.isEmpty_eq_false_iff, ← List.length_pos_iff]
        omega
      rw [hne, if_neg (by simp), if_pos (Nat.le_of_eq hlen.symm),
        List.take_of_length_le (Nat.le_of_eq hlen)]
      simp [tokenEntries, List.map_drop]
  · exact if_pos hextends

theorem reachTarget (h : Spliced G logprobs a c s) (cfg : GenerateConfig) :
    Spliced G logprobs a c (s.reachTarget cfg) := by
  unfold GenerateState.reachTarget
  dsimp only
  split_ifs
  · exact ⟨h.kept, h.current, a + c, Nat.le_refl _, h.kept⟩
  · exact h

/-- A cumulative chunk brings everything up to its own cut. -/
theorem absorbChunk (h : Spliced G logprobs a c s)
    (hd : TokensUpTo (G.drop a) logprobs cut data) (hc : c ≤ cut) :
    Spliced G logprobs a cut (s.absorbChunk cfg data) := by
  obtain ⟨hextends, hlength, hnew⟩ := newOutputIds_cumulative hc hd.le h.current
  have hcut := hd.le
  have hsame (hdone : ((G.drop a).take cut).drop c = []) : c = cut := by
    have hl := congrArg List.length hdone
    rw [List.length_drop, List.length_take, Nat.min_eq_left hcut, List.length_nil] at hl
    omega
  unfold GenerateState.absorbChunk
  dsimp only
  rw [hd.extract]
  split_ifs with hnone hold
  · have hnil : (G.drop a).take cut = [] := List.map_eq_nil_iff.mp hnone
    have hceq : c = cut := hsame (by rw [hnil, List.drop_nil])
    exact hceq ▸ h.noteChunk data
  · have hceq : c = cut := hsame (List.map_eq_nil_iff.mp (hnew.symm.trans hold))
    obtain ⟨m, hm, hcheckpoint⟩ := h.checkpoint
    refine ⟨hceq ▸ h.kept, ?_, m, hceq ▸ hm, hcheckpoint⟩
    exact if_pos hextends
  · have hpos : 0 < cut := by
      rcases Nat.eq_zero_or_pos cut with hz | hp
      · exact absurd (by rw [hz]; rfl) hnone
      · exact hp
    exact ((h.noteChunk data).appendTokens hd hc hpos).reachTarget cfg

end Spliced

theorem extendAttempt_nil (s : GenerateState) : s.extendAttempt [] = s := by
  have hcurrent : (if s.currentAttemptOutputIds.isPrefixOf [] then []
      else s.currentAttemptOutputIds ++ []) = s.currentAttemptOutputIds := by
    split_ifs with hempty
    · exact (List.prefix_nil.mp (List.isPrefixOf_iff_prefix.mp hempty)).symm
    · exact List.append_nil _
  rw [GenerateState.extendAttempt, hcurrent]

theorem newOutputIds_nil (s : GenerateState) : s.newOutputIds [] = [] := by
  simp [GenerateState.newOutputIds]

theorem currentAttemptOutputIds_absorbChunk (s : GenerateState) (data : JsonObject) :
    (s.absorbChunk cfg data).currentAttemptOutputIds =
      (s.extendAttempt (extractChunkOutputIds data (chunkMetaInfo data)).1).currentAttemptOutputIds := by
  unfold GenerateState.absorbChunk GenerateState.reachTarget
  dsimp only
  split_ifs with hnone
  · rw [hnone, extendAttempt_nil]
    rfl
  · rfl
  · rfl
  · rfl

theorem aggregatedOutputIds_absorbChunk (s : GenerateState) (data : JsonObject) :
    (s.absorbChunk cfg data).aggregatedOutputIds =
      s.aggregatedOutputIds ++ s.newOutputIds (extractChunkOutputIds data (chunkMetaInfo data)).1 := by
  unfold GenerateState.absorbChunk GenerateState.reachTarget
  dsimp only
  split_ifs with hnone hold
  · rw [hnone, newOutputIds_nil, List.append_nil]
    rfl
  · have hold' : s.newOutputIds (extractChunkOutputIds data (chunkMetaInfo data)).1 = [] := hold
    rw [hold', List.append_nil]
    rfl
  · rfl
  · rfl

theorem latestMetaInfo_absorbChunk (s : GenerateState) (data : JsonObject) :
    (s.absorbChunk cfg data).latestMetaInfo = some (chunkMetaInfo data) := by
  unfold GenerateState.absorbChunk GenerateState.reachTarget
  dsimp only
  split_ifs <;> rfl

theorem pendingChunkData_absorbChunk (s : GenerateState) (data : JsonObject) :
    (s.absorbChunk cfg data).pendingChunkData = s.pendingChunkData := by
  unfold GenerateState.absorbChunk GenerateState.reachTarget
  dsimp only
  split_ifs <;> rfl

/-! ### The stream of one attempt -/

/-- Nothing is pending; the attempt has flushed what the last chunk held. -/
structure Flushed (G : List (Int × Json)) (logprobs : Bool) (a : Nat) (last : Option Nat)
    (s : GenerateState) : Prop where
  spliced : Spliced G logprobs a (last.getD 0) s
  pending : s.pendingChunkData = none
  latest : ∀ cut, last = some cut → ∃ data, CumulativeChunk (G.drop a) logprobs cut data ∧
    s.latestMetaInfo = some (chunkMetaInfo data)

/-- The last chunk is pending. -/
structure Pending (G : List (Int × Json)) (logprobs : Bool) (a : Nat) (last : Option Nat)
    (s : GenerateState) : Prop where
  spliced : ∃ c ≤ last.getD 0, Spliced G logprobs a c s
  pending : ∃ cut data, last = some cut ∧ s.pendingChunkData = some (some data) ∧
    CumulativeChunk (G.drop a) logprobs cut data

def Streaming (G : List (Int × Json)) (logprobs : Bool) (a : Nat) (last : Option Nat)
    (s : GenerateState) : Prop :=
  Flushed G logprobs a last s ∨ Pending G logprobs a last s

variable {s : GenerateState} {a cut : Nat} {last : Option Nat}

theorem Streaming.receiveChunk (h : Streaming G logprobs a last s) {data : JsonObject}
    (hd : CumulativeChunk (G.drop a) logprobs cut data) (hc : last.getD 0 ≤ cut) :
    Pending G logprobs a (some cut) (s.receiveChunk (some data)) := by
  have hnew {c : Nat} (hle : c ≤ last.getD 0) (hs : Spliced G logprobs a c s) :
      Pending G logprobs a (some cut) (s.receiveChunk (some data)) :=
    ⟨⟨c, Nat.le_trans hle hc, hs.kept, hs.current, hs.checkpoint⟩, cut, data, rfl, rfl, hd⟩
  rcases h with h | ⟨⟨c, hle, hs⟩, -⟩
  · exact hnew (Nat.le_refl _) h.spliced
  · exact hnew hle hs

/-- A flush ends no request, and a forced one leaves nothing pending. -/
theorem Streaming.flushPendingChunk (h : Streaming G logprobs a last s) (cfg : GenerateConfig)
    (response : Option ResponseHead) (force : Bool) :
    ∃ s', s.flushPendingChunk cfg response force = (s', none) ∧ Streaming G logprobs a last s' ∧
      (force = true → Flushed G logprobs a last s') := by
  rcases h with h | h
  · refine ⟨s, ?_, .inl h, fun _ => h⟩
    rw [GenerateState.flushPendingChunk, h.pending]
  · obtain ⟨c, hc, hs⟩ := h.spliced
    obtain ⟨cut, data, rfl, hp, hd⟩ := h.pending
    unfold GenerateState.flushPendingChunk
    rw [hp]
    dsimp only
    by_cases hwait : (!force && s.pendingChunkCount < cfg.coalesceChunks) = true
    · rw [if_pos hwait]
      refine ⟨s, rfl, .inr h, ?_⟩
      intro he
      subst he
      simp at hwait
    · rw [if_neg hwait, hd.noError, if_neg (by simp)]
      have hflushed : Flushed G logprobs a (some cut)
          ({ s with pendingChunkData := none, pendingChunkCount := 0 }.absorbChunk cfg data) := by
        refine ⟨?_, pendingChunkData_absorbChunk _ data, ?_⟩
        · have hs' : Spliced G logprobs a c
              { s with pendingChunkData := none, pendingChunkCount := 0 } :=
            ⟨hs.kept, hs.current, hs.checkpoint⟩
          exact hs'.absorbChunk hd.tokens hc
        · intro x he
          cases he
          exact ⟨data, hd, latestMetaInfo_absorbChunk _ data⟩
      exact ⟨_, rfl, .inl hflushed, fun _ => hflushed⟩

/-- What an attempt leaves that a fault ends before its last token. -/
def Interrupted (G : List (Int × Json)) (logprobs : Bool) (a : Nat) (s : GenerateState) : Prop :=
  ∃ last, Streaming G logprobs a last s ∧ ∀ cut, last = some cut → cut < (G.drop a).length

theorem streamLoop_faulted (cfg : GenerateConfig) (workerKey : String) (response : ResponseHead)
    {resolved : Option String} {events : List StreamEvent}
    (h : Streaming G logprobs a last s) (hopen : ∀ cut, last = some cut → cut < (G.drop a).length)
    (hs : CumulativeStream (G.drop a) logprobs last events) (hf : FaultStrikes resolved events) :
    ∃ s', Interrupted G logprobs a s' ∧
      ((∃ newUrl, s.streamLoop cfg workerKey response events = (s', .rerouted newUrl) ∧
          (newUrl <|> resolved).isSome) ∨
        ∃ error, s.streamLoop cfg workerKey response events = (s', .failed error) ∧
          resolved.isSome) := by
  induction events generalizing s last with
  | nil => exact absurd hf id
  | cons e events ih =>
    cases e with
    | reroute newUrl => exact ⟨s, ⟨last, h, hopen⟩, .inl ⟨newUrl, rfl, hf⟩⟩
    | failed => exact ⟨s, ⟨last, h, hopen⟩, .inr ⟨_, rfl, hf⟩⟩
    | done => exact absurd hf id
    | other => exact ih h hopen hs hf
    | timeout =>
      obtain ⟨s', hflush, hstream, -⟩ := h.flushPendingChunk cfg (some response) false
      simp only [GenerateState.streamLoop, hflush]
      exact ih hstream hopen hs hf
    | closed =>
      obtain ⟨s', hflush, hstream, -⟩ := h.flushPendingChunk cfg (some response) true
      simp only [GenerateState.streamLoop, hflush]
      exact ⟨s', ⟨last, hstream, hopen⟩, .inr ⟨_, rfl, hf⟩⟩
    | data text =>
      obtain ⟨data, cut, rfl, hle, hd, hrest⟩ := hs
      have hcut : cut < (G.drop a).length := by
        refine Nat.lt_of_le_of_ne hd.le ?_
        exact fun heq => hf.1 data rfl (hd.finish.mpr heq)
      obtain ⟨s', hflush, hstream, -⟩ := Streaming.flushPendingChunk
        (.inr (h.receiveChunk hd hle)) cfg (some response) false
      simp only [GenerateState.streamLoop, hflush]
      refine ih hstream ?_ hrest hf.2
      intro x he
      cases he
      exact hcut

/-- A stream that runs through is answered with everything flushed. -/
theorem streamLoop_unfaulted (cfg : GenerateConfig) (workerKey : String) (response : ResponseHead)
    {events : List StreamEvent} (h : Streaming G logprobs a last s)
    (hs : CumulativeStream (G.drop a) logprobs last events) (hr : RunsThrough events) :
    ∃ s', Flushed G logprobs a (some (G.drop a).length) s' ∧
      (s.streamLoop cfg workerKey response events).2 =
        .finished (.returned (s'.answer response)) := by
  induction events generalizing s last with
  | nil => exact absurd hr id
  | cons e events ih =>
    cases e with
    | reroute newUrl => exact absurd hr id
    | failed => exact absurd hr id
    | closed => exact absurd hr id
    | other => exact ih h hs hr
    | timeout =>
      obtain ⟨s', hflush, hstream, -⟩ := h.flushPendingChunk cfg (some response) false
      simp only [GenerateState.streamLoop, hflush]
      exact ih hstream hs hr
    | done =>
      obtain ⟨s', hflush, -, hflushed⟩ := h.flushPendingChunk cfg (some response) true
      simp only [GenerateState.streamLoop, hflush]
      have hlast : last = some (G.drop a).length := hs
      exact ⟨s', hlast ▸ hflushed rfl, rfl⟩
    | data text =>
      obtain ⟨data, cut, rfl, hle, hd, hrest⟩ := hs
      obtain ⟨s', hflush, hstream, -⟩ := Streaming.flushPendingChunk
        (.inr (h.receiveChunk hd hle)) cfg (some response) false
      simp only [GenerateState.streamLoop, hflush]
      exact ih hstream hrest hr

/-! ### The answer -/

theorem get_setLogprobs_other (metaInfo : JsonObject) {field k : String} (aggregated : List Json)
    (h : k ≠ field) :
    (GenerateState.setLogprobs metaInfo field aggregated).get k = metaInfo.get k := by
  unfold GenerateState.setLogprobs
  split_ifs
  · rfl
  · exact JsonObject.get_set_other _ _ h

/-- The metadata of the last chunk, but for the logprobs of all attempts. -/
theorem outputTokenLogprobs_answer (s : GenerateState) (response : ResponseHead) :
    (s.answer response).outputTokenLogprobs =
      if s.aggregatedOutputTokenLogprobs.isEmpty then
        (s.latestMetaInfo.getD []).get "output_token_logprobs"
      else some (.arr s.aggregatedOutputTokenLogprobs) := by
  have hmeta : (s.answer response).outputTokenLogprobs =
      s.finalMetaInfo.get "output_token_logprobs" := rfl
  rw [hmeta, GenerateState.finalMetaInfo, get_setLogprobs_other _ _ (by decide),
    get_setLogprobs_other _ _ (by decide), GenerateState.setLogprobs]
  split_ifs
  · rw [JsonObject.get_set_other _ _ (by decide)]
    cases s.firstPromptTokens with
    | none => rfl
    | some promptTokens => exact JsonObject.get_set_other _ _ (by decide)
  · exact JsonObject.get_set_same _ _ _

/-- The answer holds a whole generation. -/
structure Answers (G : List (Int × Json)) (logprobs : Bool) (r : JsonResponse) : Prop where
  outputIds : r.outputIds = some (.arr ((tokenIds G).map .int))
  outputTokenLogprobs : r.outputTokenLogprobs =
    if logprobs then some (.arr (G.map Prod.snd)) else none

theorem Flushed.answers (h : Flushed G logprobs a (some (G.drop a).length) s) (ha : a ≤ G.length)
    (response : ResponseHead) : Answers G logprobs (s.answer response) := by
  have hall : G.take (a + (G.drop a).length) = G := by
    refine List.take_of_length_le ?_
    rw [List.length_drop]
    omega
  obtain ⟨hids, hentries⟩ := h.spliced.kept
  rw [Option.getD_some, hall] at hids hentries
  refine ⟨?_, ?_⟩
  · rw [← hids]
    rfl
  · obtain ⟨data, hd, hlatest⟩ := h.latest _ rfl
    rw [outputTokenLogprobs_answer, hlatest, hentries, Option.getD_some, hd.entries,
      List.take_length]
    cases logprobs with
    | false => simp [tokenEntries]
    | true =>
      cases G with
      | nil => simp [tokenEntries]
      | cons t G => simp [tokenEntries]

/-! ### From attempt to attempt -/

/-- The variables between two attempts: `a` tokens are kept, and some are left to
generate. -/
structure Ready (cfg : GenerateConfig) (G : List (Int × Json)) (logprobs : Bool) (a : Nat)
    (s : GenerateState) : Prop where
  kept : Keeps G logprobs a s.aggregatedOutputIds s.aggregatedOutputTokenLogprobs
  checkpoint : ∃ m ≤ a, Keeps G logprobs m s.checkpoint.outputIds s.checkpoint.outputTokenLogprobs
  pending : s.pendingChunkData = none
  left : a < G.length ∨ a = 0
  scratch : cfg.disableTokenLevelRecovery → a = 0

theorem ready_init (cfg : GenerateConfig) (G : List (Int × Json)) (logprobs : Bool) :
    Ready cfg G logprobs 0 (.init cfg) where
  kept := by simp [Keeps, GenerateState.init, tokenIds, tokenEntries]
  checkpoint := ⟨0, Nat.le_refl 0, by simp [Keeps, GenerateState.init, tokenIds, tokenEntries]⟩
  pending := rfl
  left := .inr rfl
  scratch _ := rfl

theorem Ready.beginAttempt (h : Ready cfg G logprobs a s) :
    Streaming G logprobs a none s.beginAttempt :=
  .inl ⟨⟨h.kept, by simp [GenerateState.beginAttempt, tokenIds], h.checkpoint⟩, h.pending, by simp⟩

theorem Keeps.eq_zero {k : Nat} {ids : List Int} {entries : List Json}
    (h : Keeps G logprobs k ids entries) (hleft : k < G.length ∨ k = 0) (hids : ids = []) :
    k = 0 := by
  rcases hleft with hk | hk
  · have hnil : G.take k = [] := List.map_eq_nil_iff.mp (h.1.symm.trans hids)
    have hl := congrArg List.length hnil
    rw [List.length_take, List.length_nil] at hl
    omega
  · exact hk

theorem Flushed.left (hopen : ∀ cut, last = some cut → cut < (G.drop a).length)
    (hleft : a < G.length ∨ a = 0) : a + last.getD 0 < G.length ∨ a + last.getD 0 = 0 := by
  cases last with
  | none => simpa using hleft
  | some cut =>
    have hcut := hopen cut rfl
    rw [List.length_drop] at hcut
    simp only [Option.getD_some]
    omega

theorem ready_reset (cfg : GenerateConfig) {s : GenerateState} (hp : s.pendingChunkData = none) :
    Ready cfg G logprobs 0 (s.resetGenerateRecoveryState cfg) where
  kept := by simp [Keeps, GenerateState.resetGenerateRecoveryState, tokenIds, tokenEntries]
  checkpoint :=
    ⟨0, Nat.le_refl 0, by
      simp [Keeps, GenerateState.resetGenerateRecoveryState, tokenIds, tokenEntries]⟩
  pending := hp
  left := .inr rfl
  scratch _ := rfl

/-- A reroute keeps all tokens that were received. -/
theorem Flushed.afterReroute (h : Flushed G logprobs a last s) (cfg : GenerateConfig)
    (hleft : a + last.getD 0 < G.length ∨ a + last.getD 0 = 0) :
    ∃ a', Ready cfg G logprobs a' (s.afterReroute cfg) := by
  unfold GenerateState.afterReroute
  split_ifs with hscratch
  · exact ⟨0, ready_reset cfg h.pending⟩
  · refine ⟨a + last.getD 0, h.spliced.kept, h.spliced.checkpoint, h.pending, hleft, ?_⟩
    intro hd
    rw [not_and, not_not] at hscratch
    exact h.spliced.kept.eq_zero hleft (hscratch hd)

/-- A failure goes back to a prefix of the tokens that were received. -/
theorem Flushed.afterFailure (h : Flushed G logprobs a last s) (cfg : GenerateConfig)
    (hleft : a + last.getD 0 < G.length ∨ a + last.getD 0 = 0) :
    ∃ a', Ready cfg G logprobs a' (s.afterFailure cfg) := by
  unfold GenerateState.afterFailure
  split_ifs with hscratch
  · exact ⟨0, ready_reset cfg h.pending⟩
  · obtain ⟨m, hm, hcheckpoint⟩ := h.spliced.checkpoint
    refine ⟨m, hcheckpoint, ⟨m, Nat.le_refl m, hcheckpoint⟩, h.pending, by omega, ?_⟩
    intro hd
    rw [not_and, not_not] at hscratch
    have hzero := h.spliced.kept.eq_zero hleft (hscratch hd)
    omega

variable {payload : JsonObject} {ids : List Int} {n : Nat}

theorem Ready.length_kept (h : Ready cfg G logprobs a s) : s.aggregatedOutputIds.length = a := by
  have hle : a ≤ G.length := by
    have := h.left
    omega
  rw [h.kept.1, tokenIds, List.length_map, List.length_take, Nat.min_eq_left hle]

/-- The next attempt is asked for the rest of the generation. -/
theorem Ready.takeOver (h : Ready cfg G logprobs a s) (hp : Carries payload ids n logprobs)
    (url : String) :
    ∃ recovery, takeOver cfg payload url s = .retry url recovery s ∧
      Carries recovery (ids ++ tokenIds (G.take a)) (n - a) logprobs := by
  obtain ⟨recovery, hbuild, hcarries⟩ := buildGenerateRecoveryPayload_carries hp cfg
    s.aggregatedOutputIds
    (fun hd => List.eq_nil_of_length_eq_zero (h.length_kept.trans (h.scratch hd)))
  rw [h.length_kept, h.kept.1] at hcarries
  refine ⟨recovery, ?_, hcarries⟩
  rw [Router.takeOver, hbuild]

theorem Interrupted.handleReroute (h : Interrupted G logprobs a s) (hleft : a < G.length ∨ a = 0)
    (hp : Carries payload ids n logprobs) (workerKey : String) (response : Option ResponseHead)
    {resolved newUrl : Option String} (hfound : (newUrl <|> resolved).isSome) :
    ∃ a' s' url recovery,
      handleReroute cfg workerKey payload response resolved newUrl false s = .retry url recovery s' ∧
        Ready cfg G logprobs a' s' ∧
        Carries recovery (ids ++ tokenIds (G.take a')) (n - a') logprobs := by
  obtain ⟨last, hstream, hopen⟩ := h
  obtain ⟨s', hflush, -, hflushed⟩ := hstream.flushPendingChunk cfg response true
  obtain ⟨url, hurl⟩ := Option.isSome_iff_exists.mp hfound
  obtain ⟨a', hready⟩ := (hflushed rfl).afterReroute cfg (Flushed.left hopen hleft)
  obtain ⟨recovery, htake, hcarries⟩ := hready.takeOver hp url
  refine ⟨a', _, url, recovery, ?_, hready, hcarries⟩
  simp only [Router.handleReroute, hflush, hurl, htake, Bool.false_eq_true, if_false]

theorem Interrupted.handleFailure (h : Interrupted G logprobs a s) (hleft : a < G.length ∨ a = 0)
    (hp : Carries payload ids n logprobs) (response : Option ResponseHead)
    {resolved : Option String} (error : GenerateError) (hfound : resolved.isSome) :
    ∃ a' s' url recovery,
      handleFailure cfg payload response resolved error false s = .retry url recovery s' ∧
        Ready cfg G logprobs a' s' ∧
        Carries recovery (ids ++ tokenIds (G.take a')) (n - a') logprobs := by
  obtain ⟨last, hstream, hopen⟩ := h
  obtain ⟨s', hflush, -, hflushed⟩ := hstream.flushPendingChunk cfg response true
  obtain ⟨url, rfl⟩ := Option.isSome_iff_exists.mp hfound
  obtain ⟨a', hready⟩ := (hflushed rfl).afterFailure cfg (Flushed.left hopen hleft)
  obtain ⟨recovery, htake, hcarries⟩ := hready.takeOver hp url
  refine ⟨a', _, url, recovery, ?_, hready, hcarries⟩
  simp only [Router.handleFailure, hflush, htake, Bool.false_eq_true, if_false]

/-- An attempt that meets a fault is followed by one that asks for the rest. -/
theorem Ready.runAttempt_faulted (h : Ready cfg G logprobs a s)
    (hp : Carries payload ids n logprobs) {attempt : Attempt}
    (hstream : CumulativeStream (G.drop a) logprobs none attempt.events) (hf : attempt.Faulted)
    (workerKey : String) :
    ∃ a' s' url recovery,
      runAttempt cfg workerKey payload attempt false s = .retry url recovery s' ∧
        Ready cfg G logprobs a' s' ∧
        Carries recovery (ids ++ tokenIds (G.take a')) (n - a') logprobs := by
  obtain ⟨response, events, resolved⟩ := attempt
  cases response with
  | none =>
    exact Interrupted.handleFailure ⟨none, h.beginAttempt, by simp⟩ h.left hp none .transportError hf
  | some response =>
    obtain ⟨hsuccess, hfault⟩ : response.isSuccess ∧ FaultStrikes resolved events := hf
    obtain ⟨s', hint, hend⟩ := streamLoop_faulted cfg workerKey response
      h.beginAttempt (by simp) hstream hfault
    rcases hend with ⟨newUrl, hloop, hfound⟩ | ⟨error, hloop, hfound⟩
    · simp only [runAttempt, hsuccess, hloop]
      exact hint.handleReroute h.left hp workerKey (some response) hfound
    · simp only [runAttempt, hsuccess, hloop]
      exact hint.handleFailure h.left hp (some response) error hfound

/-- An attempt without a fault answers with the whole generation. -/
theorem Ready.runAttempt_unfaulted (h : Ready cfg G logprobs a s) (payload : JsonObject)
    {attempt : Attempt}
    (hstream : CumulativeStream (G.drop a) logprobs none attempt.events) (hu : attempt.Unfaulted)
    (workerKey : String) (lastAttempt : Bool) :
    ∃ r, runAttempt cfg workerKey payload attempt lastAttempt s = .finished (.returned r) ∧
      Answers G logprobs r := by
  obtain ⟨response, hresponse, hsuccess, hruns⟩ := hu
  obtain ⟨s', hflushed, hloop⟩ := streamLoop_unfaulted cfg workerKey response
    h.beginAttempt hstream hruns
  have hle : a ≤ G.length := by
    have := h.left
    omega
  refine ⟨s'.answer response, ?_, hflushed.answers hle response⟩
  obtain ⟨s'', hs''⟩ : ∃ s'', s.beginAttempt.streamLoop cfg workerKey response attempt.events =
      (s'', .finished (.returned (s'.answer response))) :=
    ⟨_, Prod.ext rfl hloop⟩
  simp only [runAttempt, hresponse, hsuccess, hs'']
  rfl

/-- A worker that is given part of its own generation streams the rest. -/
theorem Serves.rest {w : Worker} {serve : Nat → String → JsonObject → Attempt}
    (hserve : Serves w serve) (hleft : a < (w.run ids n).length ∨ a = 0)
    (hp : Carries payload (ids ++ tokenIds ((w.run ids n).take a)) (n - a) logprobs)
    (number : Nat) (url : String) :
    CumulativeStream ((w.run ids n).drop a) logprobs none (serve number url payload).events := by
  have hstream := hserve number url payload _ _ _ hp
  rcases hleft with hlt | rfl
  · rwa [tokenIds, w.run_resume hlt] at hstream
  · simpa [tokenIds] using hstream

/-- The attempt loop gets through `k` faults and answers with the whole generation. -/
theorem attemptLoop_answers {w : Worker} {serve : Nat → String → JsonObject → Attempt}
    (hserve : Serves w serve) (hp : Carries payload ids n logprobs) (workerKey : String) (k : Nat)
    {left number : Nat} (hk : k ≤ left)
    (hfault : ∀ i < k, ∀ url request, (serve (number + i) url request).Faulted)
    (hthrough : ∀ url request, (serve (number + k) url request).Unfaulted)
    (h : Ready cfg (w.run ids n) logprobs a s) (url : String) {request : JsonObject}
    (hr : Carries request (ids ++ tokenIds ((w.run ids n).take a)) (n - a) logprobs) :
    ∃ r, attemptLoop cfg workerKey payload serve left number url request s = some (.returned r) ∧
      Answers (w.run ids n) logprobs r := by
  have hstream := hserve.rest h.left hr number url
  induction k generalizing left number a s url request with
  | zero =>
    have hrun (lastAttempt : Bool) := h.runAttempt_unfaulted payload hstream
      (hthrough url request) workerKey lastAttempt
    cases left with
    | zero =>
      obtain ⟨r, hrun, hanswers⟩ := hrun true
      exact ⟨r, by simp only [attemptLoop, hrun], hanswers⟩
    | succ left =>
      obtain ⟨r, hrun, hanswers⟩ := hrun false
      exact ⟨r, by simp only [attemptLoop, hrun], hanswers⟩
  | succ k ih =>
    cases left with
    | zero => omega
    | succ left =>
      obtain ⟨a', s', url', recovery, hrun, hready, hcarries⟩ := h.runAttempt_faulted hp hstream
        (hfault 0 (Nat.succ_pos k) url request) workerKey
      simp only [attemptLoop, hrun]
      refine ih (Nat.le_of_succ_le_succ hk) ?_ ?_ hready url' hcarries
        (hserve.rest hready.left hcarries (number + 1) url')
      · intro i hi
        rw [Nat.add_assoc, Nat.add_comm 1 i]
        exact hfault (i + 1) (Nat.succ_lt_succ hi)
      · rw [Nat.add_assoc, Nat.add_comm 1 k]
        exact hthrough

theorem Carries.stream (h : Carries payload ids n logprobs) :
    Carries (payload.set "stream" (.bool true)) ids n logprobs := by
  obtain ⟨params, hparams, hmax⟩ := h.maxNewTokens
  refine ⟨?_, ⟨params, ?_, hmax⟩, ?_⟩
  · rw [JsonObject.get_set_other _ _ (by decide), h.inputIds]
  · rw [JsonObject.get_set_other _ _ (by decide), hparams]
  · rw [JsonObject.get_set_other _ _ (by decide), h.returnLogprob]

/-- A request that meets `k` faults, within the attempt limit, and then a stream that
runs through is answered with the worker's whole generation. -/
theorem proxyGenerate_answers (cfg : GenerateConfig) {w : Worker}
    {serve : Nat → String → JsonObject → Attempt} (hserve : Serves w serve) {body : JsonObject}
    (hbody : Carries body ids n logprobs) {k : Nat}
    (hk : k ≤ cfg.maxAttempts) (hfault : ∀ i < k, ∀ url request, (serve i url request).Faulted)
    (hthrough : ∀ url request, (serve k url request).Unfaulted) (workerKey url : String) :
    ∃ r, proxyGenerate cfg workerKey url body serve = some (.returned r) ∧
      Answers (w.run ids n) logprobs r := by
  refine attemptLoop_answers hserve hbody.stream workerKey k hk ?_ ?_ (ready_init cfg _ _) url ?_
  · simpa using hfault
  · simpa using hthrough
  · simpa [tokenIds] using hbody.stream

/-- The chunk with the first `cut` tokens of a generation. -/
def cutChunk (g : List (Int × Json)) (logprobs : Bool) (cut : Nat) : JsonObject :=
  [("output_ids", .arr ((tokenIds (g.take cut)).map .int)),
    ("meta_info", .obj
      [("finish_reason", if cut = g.length then .str "length" else .null),
        if logprobs then ("output_token_logprobs", .arr ((g.take cut).map Prod.snd))
        else ("id", .null)])]

theorem cutChunk_cumulative {cut : Nat} (h : cut ≤ g.length) :
    CumulativeChunk g logprobs cut (cutChunk g logprobs cut) where
  le := h
  noError := by simp [cutChunk, JsonObject.get_cons]
  outputIds := by simp [cutChunk, JsonObject.get_cons]
  entries := by
    cases logprobs <;> simp [chunkMetaInfo, cutChunk, JsonObject.get_cons]
  finish := by
    by_cases hc : cut = g.length <;>
      simp [FinishDelivered, chunkMetaInfo, cutChunk, JsonObject.get_cons, JsonObject.getNotNone, hc]

/-- The prompt, the cap and the wish for logprobs of a request. -/
def readRequest (request : JsonObject) : List Int × Nat × Bool :=
  (normalizeOutputIds (request.get "input_ids"),
    match request.get "sampling_params" with
    | some (.obj params) =>
      match JsonObject.get params "max_new_tokens" with
      | some (.int n) => n.toNat
      | _ => 0
    | _ => 0,
    match request.get "return_logprob" with
    | some (.bool b) => b
    | _ => false)

theorem Carries.readRequest {request : JsonObject} (h : Carries request ids n logprobs) :
    readRequest request = (ids, n, logprobs) := by
  obtain ⟨params, hparams, hmax⟩ := h.maxNewTokens
  have hlogprobs := h.returnLogprob
  simp only [Router.readRequest, h.inputIds, normalizeOutputIds_int, hparams, hmax, Int.toNat_natCast]
  congr 2
  split
  · rename_i b hb
    cases b <;> cases logprobs <;> simp_all
  · rename_i hb
    cases logprobs
    · rfl
    · exact absurd (hlogprobs.mpr rfl) (hb true)

/-- The first `faults` attempts fail after one token, the next one runs through. -/
def serveFailing (w : Worker) (faults number : Nat) (_url : String) (request : JsonObject) :
    Attempt :=
  let (ids, n, logprobs) := readRequest request
  let g := w.run ids n
  if number < faults then
    ⟨some ⟨200, []⟩,
      (if 1 < g.length then [.data (some (cutChunk g logprobs 1))] else []) ++ [.failed],
      some "http://h:2"⟩
  else ⟨some ⟨200, []⟩, [.data (some (cutChunk g logprobs g.length)), .done], none⟩

theorem serves_serveFailing (w : Worker) (faults : Nat) : Serves w (serveFailing w faults) := by
  intro number url request ids n logprobs hr
  simp only [serveFailing, hr.readRequest]
  split_ifs with hnumber hlong
  · exact ⟨_, 1, rfl, Nat.zero_le _, cutChunk_cumulative (Nat.le_of_lt hlong), trivial⟩
  · trivial
  · exact ⟨_, _, rfl, Nat.zero_le _, cutChunk_cumulative (Nat.le_refl _), rfl⟩

theorem serveFailing_faulted (w : Worker) {faults number : Nat} (h : number < faults)
    (url : String) (request : JsonObject) : (serveFailing w faults number url request).Faulted := by
  simp only [serveFailing, if_pos h]
  refine ⟨rfl, ?_⟩
  split_ifs with hlong
  · refine ⟨?_, rfl⟩
    intro data he
    cases he
    rw [(cutChunk_cumulative (Nat.le_of_lt hlong)).finish]
    exact Nat.ne_of_lt hlong
  · rfl

theorem serveFailing_unfaulted (w : Worker) {faults number : Nat} (h : faults ≤ number)
    (url : String) (request : JsonObject) :
    (serveFailing w faults number url request).Unfaulted := by
  simp only [serveFailing, if_neg (Nat.not_lt.mpr h)]
  exact ⟨_, rfl, rfl, trivial⟩

/-- The next token is the length of the context, and it is its own entry. -/
def countingWorker : Worker := ⟨fun ids => (ids.length, .arr [.null, .int ids.length]), fun _ => false⟩

example : tokenIds (countingWorker.run [5, 6] 4) = [2, 3, 4, 5] := rfl

def exampleConfig : GenerateConfig := ⟨2, 1, 1, false, by decide, by decide⟩

def exampleBody : JsonObject :=
  [("input_ids", .arr [.int 5, .int 6]), ("sampling_params", .obj [("max_new_tokens", .int 4)]),
    ("return_logprob", .bool true)]

theorem exampleBody_carries : Carries exampleBody [5, 6] 4 true :=
  ⟨rfl, ⟨_, rfl, rfl⟩, by simp [exampleBody, JsonObject.get_cons]⟩

end Belayer.Router
