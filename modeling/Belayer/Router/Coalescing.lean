import Belayer.Router.Alignment

namespace Belayer.Router

open Belayer.Framework

variable {cfg : GenerateConfig} {logprobs : Bool} {G g : List (Int × Json)}

/-! ### What a chunk adds -/

/-- Where the new tokens of a chunk begin. -/
def GenerateState.startIdx (v : GenerateState) (ids : List Int) : Nat :=
  if v.currentAttemptOutputIds.isPrefixOf ids then v.currentAttemptOutputIds.length else 0

theorem newOutputIds_eq_drop (v : GenerateState) (ids : List Int) :
    v.newOutputIds ids = ids.drop (v.startIdx ids) := by
  unfold GenerateState.newOutputIds GenerateState.startIdx
  split_ifs
  · rfl
  · exact List.drop_zero.symm

/-- The entries of a chunk with enough of them begin where its new tokens do. -/
theorem aggregatedOutputTokenLogprobs_absorbChunk (v : GenerateState) {data : JsonObject}
    {ids : List Int} {entries : List Json}
    (hids : (extractChunkOutputIds data (chunkMetaInfo data)).1 = ids)
    (hentries : Json.listOrEmpty ((chunkMetaInfo data).get "output_token_logprobs") = entries)
    (hlength : entries = [] ∨ ids.length ≤ entries.length) :
    (v.absorbChunk cfg data).aggregatedOutputTokenLogprobs =
      v.aggregatedOutputTokenLogprobs ++ (entries.take ids.length).drop (v.startIdx ids) := by
  unfold GenerateState.absorbChunk GenerateState.reachTarget
  dsimp only
  rw [hids]
  split_ifs with hnone hold hreached
  · rw [hnone]
    simp [GenerateState.noteChunk]
  · have hdrop : (entries.take ids.length).drop (v.startIdx ids) = [] := by
      have hold' : v.newOutputIds ids = [] := hold
      rw [newOutputIds_eq_drop, List.drop_eq_nil_iff] at hold'
      rw [List.drop_eq_nil_iff, List.length_take]
      omega
    rw [hdrop, List.append_nil]
    rfl
  all_goals
    simp only [GenerateState.appendTokens, hentries]
    change extendLogprobs v.aggregatedOutputTokenLogprobs entries (v.startIdx ids) ids.length _ = _
    unfold extendLogprobs
    rcases hlength with rfl | hle
    · simp
    · split_ifs with hempty
      · rw [List.isEmpty_iff.mp hempty]
        simp
      · rfl

/-! ### Chunks with `stream_output` -/

namespace TokensBetween

variable {d d' : Nat} {data : JsonObject}

theorem ids (h : TokensBetween g logprobs d d' data) :
    normalizeOutputIds (data.get "output_ids") = tokenIds ((g.take d').drop d) := by
  rw [h.outputIds, normalizeOutputIds_int]

theorem listOrEmpty_entries (h : TokensBetween g logprobs d d' data) :
    Json.listOrEmpty ((chunkMetaInfo data).get "output_token_logprobs") =
      tokenEntries (g.take d') logprobs := by
  rw [h.entries, tokenEntries]
  split_ifs <;> rfl

/-- Without ids of its own, a chunk is read from all its entries. -/
theorem extract (h : TokensBetween g logprobs d d' data)
    (hentries : ∀ p ∈ g, entryTokenId p.2 = some p.1) :
    (extractChunkOutputIds data (chunkMetaInfo data)).1 =
      if (g.take d').drop d ≠ [] then tokenIds ((g.take d').drop d)
      else if logprobs then tokenIds (g.take d') else [] := by
  have hfallback : extractOutputIdsFromMetaInfo (chunkMetaInfo data) =
      if logprobs then tokenIds (g.take d') else [] := by
    rw [extractOutputIdsFromMetaInfo, h.listOrEmpty_entries, tokenEntries]
    split_ifs
    · rw [tokenIds, List.filterMap_map]
      refine List.filterMap_eq_map_iff_forall_eq_some.mpr ?_
      exact fun p hp => hentries p (List.mem_of_mem_take hp)
    · rfl
  have hnil : tokenIds ((g.take d').drop d) ≠ [] ↔ (g.take d').drop d ≠ [] :=
    not_congr List.map_eq_nil_iff
  unfold extractChunkOutputIds
  rw [h.ids, hfallback]
  dsimp only
  simp only [hnil]
  split_ifs <;> simp_all

theorem extract_length_le (h : TokensBetween g logprobs d d' data)
    (hentries : ∀ p ∈ g, entryTokenId p.2 = some p.1) :
    (extractChunkOutputIds data (chunkMetaInfo data)).1.length ≤ d' := by
  rw [h.extract hentries]
  split_ifs
  · rw [tokenIds, List.length_map, List.length_drop, List.length_take]
    omega
  · rw [tokenIds, List.length_map]
    exact List.length_take_le _ _
  · exact Nat.zero_le _

/-- Where there are logprobs, each of the tokens so far has an entry. -/
theorem enough (h : TokensBetween g logprobs d d' data) {n : Nat} (hn : n ≤ d') :
    tokenEntries (g.take d') logprobs = [] ∨ n ≤ (tokenEntries (g.take d') logprobs).length := by
  have hcut := h.le
  cases logprobs with
  | false => exact .inl rfl
  | true =>
    refine .inr ?_
    rw [tokenEntries, if_pos rfl, List.length_map, List.length_take]
    omega

end TokensBetween

/-- What is there grows to what should be there exactly by what comes in between. -/
theorem keeps_append_iff {a c d : Nat} {ids x : List Int} {entries y : List Json} (hc : c ≤ d)
    (h : Keeps G logprobs (a + c) ids entries) :
    Keeps G logprobs (a + d) (ids ++ x) (entries ++ y) ↔
      x = tokenIds (((G.drop a).take d).drop c) ∧
        y = tokenEntries (((G.drop a).take d).drop c) logprobs := by
  rw [Keeps, take_later G a hc, tokenIds_append, tokenEntries_append, h.1, h.2,
    List.append_cancel_left_eq, List.append_cancel_left_eq]

/-- The router reads a chunk with `stream_output` right when `prior` are the ids of the `d` tokens
before it and `c` of these are flushed. -/
def Reads (prior : List Int) (d c : Nat) (data : JsonObject) : Prop :=
  let ids := normalizeOutputIds (data.get "output_ids")
  let entries := Json.listOrEmpty ((chunkMetaInfo data).get "output_token_logprobs")
  if ids = [] then c = d ∨ entries ≠ []
  else d = 0 ∨ c = d ∧ ¬prior <+: ids ∧ entries.take ids.length = entries.drop d

theorem tokenIds_length (g : List (Int × Json)) : (tokenIds g).length = g.length :=
  List.length_map _

theorem tokenIds_drop (g : List (Int × Json)) (n : Nat) :
    tokenIds (g.drop n) = (tokenIds g).drop n :=
  List.map_drop

theorem tokenEntries_drop (g : List (Int × Json)) (n : Nat) (logprobs : Bool) :
    tokenEntries (g.drop n) logprobs = (tokenEntries g logprobs).drop n := by
  unfold tokenEntries
  split_ifs <;> simp

section

variable {v : GenerateState} {a c d d' : Nat} {data : JsonObject}

theorem absorbChunk_between (hc : c ≤ d') (h : TokensBetween (G.drop a) logprobs d d' data)
    (hkept : Keeps G logprobs (a + c) v.aggregatedOutputIds v.aggregatedOutputTokenLogprobs)
    {ids : List Int} (hids : (extractChunkOutputIds data (chunkMetaInfo data)).1 = ids)
    (hle : ids.length ≤ d') :
    Keeps G logprobs (a + d') (v.absorbChunk cfg data).aggregatedOutputIds
        (v.absorbChunk cfg data).aggregatedOutputTokenLogprobs ↔
      ids.drop (v.startIdx ids) = tokenIds (((G.drop a).take d').drop c) ∧
        ((tokenEntries ((G.drop a).take d') logprobs).take ids.length).drop (v.startIdx ids) =
          tokenEntries (((G.drop a).take d').drop c) logprobs := by
  rw [aggregatedOutputIds_absorbChunk, hids, newOutputIds_eq_drop,
    aggregatedOutputTokenLogprobs_absorbChunk v hids h.listOrEmpty_entries (h.enough hle)]
  exact keeps_append_iff hc hkept

/-- A chunk without ids and logprobs adds nothing. -/
theorem absorbChunk_silent (hc : c ≤ d) (h : TokensBetween (G.drop a) false d d data)
    (hkept : Keeps G false (a + c) v.aggregatedOutputIds v.aggregatedOutputTokenLogprobs)
    (hids : (extractChunkOutputIds data (chunkMetaInfo data)).1 = []) :
    Keeps G false (a + d) (v.absorbChunk cfg data).aggregatedOutputIds
        (v.absorbChunk cfg data).aggregatedOutputTokenLogprobs ↔ c = d := by
  have hcut := h.le
  have hrest : ((G.drop a).take d).drop c = [] ↔ c = d := by
    rw [List.drop_eq_nil_iff, List.length_take]
    omega
  rw [absorbChunk_between hc h hkept hids (Nat.zero_le _), List.drop_nil, eq_comm]
  constructor
  · intro hids
    exact hrest.mp (List.map_eq_nil_iff.mp hids.1)
  · intro hflushed
    rw [hrest.mpr hflushed]
    exact ⟨rfl, by simp [tokenEntries]⟩

/-- A chunk that is read from all entries so far makes up for the chunks that were skipped. -/
theorem absorbChunk_fallback (hc : c ≤ d) (h : TokensBetween (G.drop a) true d d data)
    (hkept : Keeps G true (a + c) v.aggregatedOutputIds v.aggregatedOutputTokenLogprobs)
    (hcurrent : v.currentAttemptOutputIds = tokenIds ((G.drop a).take c))
    (hids : (extractChunkOutputIds data (chunkMetaInfo data)).1 = tokenIds ((G.drop a).take d)) :
    Keeps G true (a + d) (v.absorbChunk cfg data).aggregatedOutputIds
      (v.absorbChunk cfg data).aggregatedOutputTokenLogprobs := by
  obtain ⟨hextends, hlength, -⟩ := newOutputIds_cumulative hc h.le hcurrent
  have hstart : v.startIdx (tokenIds ((G.drop a).take d)) = c := by
    rw [GenerateState.startIdx, if_pos hextends, hlength]
  have hcut : (tokenIds ((G.drop a).take d)).length = d := by
    rw [tokenIds_length, List.length_take, Nat.min_eq_left h.le]
  refine (absorbChunk_between hc h hkept hids (Nat.le_of_eq hcut)).mpr ⟨?_, ?_⟩
  · rw [hstart, tokenIds_drop]
  · rw [hstart, tokenEntries_drop, hcut, List.take_of_length_le]
    rw [tokenEntries, if_pos rfl, List.length_map, List.length_take]
    omega

/-- A chunk with ids of its own is taken for the ids so far when it begins with them, and its
entries for the first ones of the list when it does not. -/
theorem absorbChunk_piece (hc : c ≤ d) (hd : d < d')
    (hkept : Keeps G logprobs (a + c) v.aggregatedOutputIds v.aggregatedOutputTokenLogprobs)
    (hcurrent : v.currentAttemptOutputIds = tokenIds ((G.drop a).take c))
    (h : TokensBetween (G.drop a) logprobs d d' data)
    (hids : (extractChunkOutputIds data (chunkMetaInfo data)).1 =
      tokenIds (((G.drop a).take d').drop d)) :
    Keeps G logprobs (a + d') (v.absorbChunk cfg data).aggregatedOutputIds
        (v.absorbChunk cfg data).aggregatedOutputTokenLogprobs ↔
      d = 0 ∨ c = d ∧
        ¬tokenIds ((G.drop a).take d) <+: tokenIds (((G.drop a).take d').drop d) ∧
        (tokenEntries ((G.drop a).take d') logprobs).take
            (tokenIds (((G.drop a).take d').drop d)).length =
          (tokenEntries ((G.drop a).take d') logprobs).drop d := by
  have hcut := h.le
  have hpiece : (tokenIds (((G.drop a).take d').drop d)).length = d' - d := by
    rw [tokenIds_length, List.length_drop, List.length_take, Nat.min_eq_left hcut]
  have hrest : (tokenIds (((G.drop a).take d').drop c)).length = d' - c := by
    rw [tokenIds_length, List.length_drop, List.length_take, Nat.min_eq_left hcut]
  have hlength : v.currentAttemptOutputIds.length = c := by
    rw [hcurrent, tokenIds_length, List.length_take]
    omega
  rw [absorbChunk_between (Nat.le_trans hc (Nat.le_of_lt hd)) h hkept hids (by omega)]
  by_cases hextends : v.currentAttemptOutputIds.isPrefixOf
      (tokenIds (((G.drop a).take d').drop d)) = true
  · have hprior := List.isPrefixOf_iff_prefix.mp hextends
    have hle := hprior.length_le
    rw [GenerateState.startIdx, if_pos hextends, hlength]
    constructor
    · intro hadds
      have hsame := congrArg List.length hadds.1
      rw [List.length_drop, hpiece, hrest] at hsame
      left
      omega
    · rintro (rfl | ⟨rfl, hnew, -⟩)
      · obtain rfl : c = 0 := by omega
        refine ⟨rfl, ?_⟩
        rw [hpiece, List.drop_zero, List.drop_zero, Nat.sub_zero, List.take_of_length_le]
        unfold tokenEntries
        split_ifs
        · rw [List.length_map, List.length_take]
          omega
        · exact Nat.zero_le _
      · rw [hcurrent] at hprior
        exact absurd hprior hnew
  · rw [GenerateState.startIdx, if_neg hextends, List.drop_zero, List.drop_zero]
    constructor
    · intro hadds
      have hsame := congrArg List.length hadds.1
      rw [hpiece, hrest] at hsame
      obtain rfl : c = d := by omega
      refine .inr ⟨rfl, ?_, ?_⟩
      · rw [hcurrent, List.isPrefixOf_iff_prefix] at hextends
        exact hextends
      · rw [hadds.2, tokenEntries_drop]
    · rintro (rfl | ⟨rfl, -, hentries⟩)
      · obtain rfl : c = 0 := by omega
        rw [hcurrent] at hextends
        simp [tokenIds] at hextends
      · refine ⟨rfl, ?_⟩
        rw [hentries, tokenEntries_drop]

/-- A chunk is read right exactly when it is flushed to the worker's tokens so far. -/
theorem reads_iff (hc : c ≤ d) (hd : d ≤ d')
    (hkept : Keeps G logprobs (a + c) v.aggregatedOutputIds v.aggregatedOutputTokenLogprobs)
    (hcurrent : v.currentAttemptOutputIds = tokenIds ((G.drop a).take c))
    (hentries : ∀ p ∈ G.drop a, entryTokenId p.2 = some p.1)
    (h : TokensBetween (G.drop a) logprobs d d' data) :
    Keeps G logprobs (a + d') (v.absorbChunk cfg data).aggregatedOutputIds
        (v.absorbChunk cfg data).aggregatedOutputTokenLogprobs ↔
      Reads (tokenIds ((G.drop a).take d)) d c data := by
  have hextract := h.extract hentries
  have hcut := h.le
  simp only [Reads, h.ids, h.listOrEmpty_entries]
  rcases Nat.eq_or_lt_of_le hd with rfl | hlt
  · have hnone : ((G.drop a).take d).drop d = [] := by
      rw [List.drop_eq_nil_iff, List.length_take]
      omega
    have hnil : tokenIds (((G.drop a).take d).drop d) = [] := List.map_eq_nil_iff.mpr hnone
    rw [if_neg (not_not.mpr hnone)] at hextract
    rw [if_pos hnil]
    cases logprobs with
    | false =>
      rw [absorbChunk_silent hc h hkept hextract]
      simp [tokenEntries]
    | true =>
      refine iff_of_true (absorbChunk_fallback hc h hkept hcurrent hextract) ?_
      rcases Nat.eq_zero_or_pos d with rfl | hpos
      · exact .inl (Nat.le_zero.mp hc)
      · right
        rw [tokenEntries, if_pos rfl, ← List.length_pos_iff, List.length_map, List.length_take]
        omega
  · have hsome : ((G.drop a).take d').drop d ≠ [] := by
      rw [← List.length_pos_iff, List.length_drop, List.length_take]
      omega
    have hnil : tokenIds (((G.drop a).take d').drop d) ≠ [] := fun he =>
      hsome (List.map_eq_nil_iff.mp he)
    rw [if_pos hsome] at hextract
    rw [if_neg hnil]
    exact absorbChunk_piece hc hlt hkept hcurrent h hextract

/-! ### A stream -/

/-- All that is flushed of an attempt are the ids that it counts as its own, with an entry each. -/
structure Synced (G : List (Int × Json)) (logprobs : Bool) (a : Nat) (v : GenerateState) :
    Prop where
  ids : v.aggregatedOutputIds = tokenIds (G.take a) ++ v.currentAttemptOutputIds
  entries : v.aggregatedOutputTokenLogprobs.length =
    if logprobs then v.aggregatedOutputIds.length else 0

theorem extendAttempt_eq_append (v : GenerateState) (ids : List Int) :
    (v.extendAttempt ids).currentAttemptOutputIds =
      v.currentAttemptOutputIds ++ ids.drop (v.startIdx ids) := by
  unfold GenerateState.extendAttempt GenerateState.startIdx
  dsimp only
  split_ifs with hextends
  · obtain ⟨rest, rfl⟩ := List.isPrefixOf_iff_prefix.mp hextends
    rw [List.drop_left]
  · rw [List.drop_zero]

theorem Synced.absorbChunk (h : Synced G logprobs a v)
    (hentries : ∀ p ∈ G.drop a, entryTokenId p.2 = some p.1)
    (hd : TokensBetween (G.drop a) logprobs d d' data) :
    Synced G logprobs a (v.absorbChunk cfg data) := by
  have hcut := hd.le
  obtain ⟨ids, hids⟩ : ∃ ids, (extractChunkOutputIds data (chunkMetaInfo data)).1 = ids := ⟨_, rfl⟩
  have hle : ids.length ≤ d' := hids ▸ hd.extract_length_le hentries
  constructor
  · rw [aggregatedOutputIds_absorbChunk, currentAttemptOutputIds_absorbChunk, hids,
      newOutputIds_eq_drop, extendAttempt_eq_append, h.ids, List.append_assoc]
  · rw [aggregatedOutputIds_absorbChunk, hids, newOutputIds_eq_drop,
      aggregatedOutputTokenLogprobs_absorbChunk v hids hd.listOrEmpty_entries (hd.enough hle),
      List.length_append, List.length_append, h.entries]
    cases logprobs with
    | false => simp [tokenEntries]
    | true =>
      have hmany : (tokenEntries ((G.drop a).take d') true).length = d' := by
        rw [tokenEntries, if_pos rfl, List.length_map, List.length_take, Nat.min_eq_left hcut]
      rw [if_pos rfl, if_pos rfl, List.length_drop, List.length_drop, List.length_take, hmany,
        Nat.min_eq_left hle]

/-- What is flushed of tokens that a later flush has right is right. -/
theorem Synced.placed (h : Synced G logprobs a v) (hle : a + d ≤ G.length) {ids x : List Int}
    {entries y : List Json} (hids : ids = v.aggregatedOutputIds ++ x)
    (hentries : entries = v.aggregatedOutputTokenLogprobs ++ y)
    (hkeeps : Keeps G logprobs (a + d) ids entries) :
    v.currentAttemptOutputIds.length ≤ d ∧
      Keeps G logprobs (a + v.currentAttemptOutputIds.length) v.aggregatedOutputIds
        v.aggregatedOutputTokenLogprobs ∧
      v.currentAttemptOutputIds =
        tokenIds ((G.drop a).take v.currentAttemptOutputIds.length) := by
  have hlength : v.aggregatedOutputIds.length = a + v.currentAttemptOutputIds.length := by
    rw [h.ids, List.length_append, tokenIds_length, List.length_take]
    omega
  have htotal : v.aggregatedOutputIds.length + x.length = a + d := by
    rw [← List.length_append, ← hids, hkeeps.length hle]
  have hc : v.currentAttemptOutputIds.length ≤ d := by omega
  have hagg : v.aggregatedOutputIds =
      tokenIds (G.take (a + v.currentAttemptOutputIds.length)) := by
    have htake := congrArg (List.take v.aggregatedOutputIds.length) (hids.symm.trans hkeeps.1)
    rw [List.take_left, hlength, tokenIds, ← List.map_take, List.take_take,
      Nat.min_eq_left (by omega)] at htake
    exact htake
  refine ⟨hc, ⟨hagg, ?_⟩, ?_⟩
  · have htake := congrArg (List.take v.aggregatedOutputTokenLogprobs.length)
      (hentries.symm.trans hkeeps.2)
    rw [List.take_left] at htake
    rw [htake, h.entries]
    cases logprobs with
    | false => simp [tokenEntries]
    | true =>
      rw [if_pos rfl, hlength, tokenEntries, tokenEntries, if_pos rfl, if_pos rfl, ← List.map_take,
        List.take_take, Nat.min_eq_left (by omega)]
  · have hsplit := h.ids.symm.trans hagg
    rw [List.take_add, tokenIds_append, List.append_cancel_left_eq] at hsplit
    exact hsplit

end

namespace RequestState

/-- An event that leaves a stream of chunks open. -/
def Chunks (logprobs : Bool) (s : RequestState) : RequestAction → Prop
  | .receive (.data text) => s.HoldsTokens logprobs text
  | .receive .timeout | .receive .other => True
  | .receive (.reroute _) | .receive .closed | .receive .failed | .receive .done
  | .connect _ _ _ | .recover _ => False

/-- A flush gives the worker's tokens so far, with their logprobs. -/
def Faithful (cfg : GenerateConfig) (logprobs : Bool) (s : RequestState) : Prop :=
  Keeps s.reported logprobs (s.kept + s.delivered)
    (s.vars.flushPendingChunk cfg none true).1.aggregatedOutputIds
    (s.vars.flushPendingChunk cfg none true).1.aggregatedOutputTokenLogprobs

/-- The chunk can be told from one of all ids so far, and what it replaces is flushed. -/
def Readable (s : RequestState) : RequestAction → Prop
  | .receive (.data (some data)) => s.streamOutput = true →
    Reads (tokenIds ((s.reported.drop s.kept).take s.delivered)) s.delivered
      s.vars.currentAttemptOutputIds.length data
  | .connect _ _ _ | .receive _ | .recover _ => True

/-- A stream that chunks keep open. -/
structure Reading (logprobs : Bool) (s : RequestState) : Prop where
  streaming : ∃ response, s.phase = .streaming response
  within : s.kept + s.delivered ≤ s.reported.length
  entries : ∀ p ∈ s.reported.drop s.kept, entryTokenId p.2 = some p.1
  clean : Clean s.vars
  pending : ∀ data, s.vars.pendingChunkData = some (some data) → s.streamOutput = true →
    ∃ d, TokensBetween (s.reported.drop s.kept) logprobs d s.delivered data
  cumulative : s.streamOutput = false → Underway s.reported logprobs s.kept s.delivered s.vars
  synced : s.streamOutput = true → Synced s.reported logprobs s.kept s.vars

variable {workerKey : String} {payload : JsonObject} {s t : RequestState} {a : RequestAction}

theorem Reading.flushPendingChunk (h : Reading logprobs s) (cfg : GenerateConfig)
    (response : Option ResponseHead) (force : Bool) :
    Reading logprobs { s with vars := (s.vars.flushPendingChunk cfg response force).1 } := by
  obtain ⟨u, hflush, hclean, -, hcases⟩ := h.clean.flushPendingChunk cfg response force
  refine ⟨h.streaming, h.within, h.entries, ?_, ?_, ?_, ?_⟩
  · rw [hflush]
    exact hclean
  · rw [hflush]
    rcases hcases with rfl | ⟨data, hpending, rfl⟩
    · exact h.pending
    · intro data' he
      rw [pendingChunkData_absorbChunk] at he
      cases he
  · intro hmode
    exact (((h.cumulative hmode).flushPendingChunk cfg response force).2
      (congrArg Prod.snd hflush)).1
  · intro hmode
    have hsynced := h.synced hmode
    rw [hflush]
    rcases hcases with rfl | ⟨data, hpending, rfl⟩
    · exact hsynced
    · obtain ⟨d, hbetween⟩ := h.pending data hpending hmode
      have hcleared : Synced s.reported logprobs s.kept
          { s.vars with pendingChunkData := none, pendingChunkCount := 0 } :=
        ⟨hsynced.ids, hsynced.entries⟩
      exact hcleared.absorbChunk h.entries hbetween

/-- A chunk joins the stream as the pending one. -/
theorem Reading.receiveEvent (h : Reading logprobs s) {e : StreamEvent}
    (hline : Chunks logprobs s (.receive e)) :
    Reading logprobs { s.note e with vars := s.vars.receiveEvent e } := by
  obtain ⟨delivered, finished, hnote⟩ := s.note_frame e
  cases e with
  | data text =>
    obtain ⟨data, cut, rfl, herror, hle, htokens⟩ := hline
    have hclean : Clean (s.vars.receiveEvent (.data (some data))) := by
      intro text he
      cases he
      exact ⟨data, rfl, herror⟩
    have hwithin := h.within
    cases hmode : s.streamOutput with
    | false =>
      rw [hmode, if_neg (by simp)] at htokens
      have hcut := htokens.le
      rw [List.length_drop] at hcut
      have hdelivered := delivered_note_upTo hmode herror htokens
      rw [hnote] at hdelivered ⊢
      obtain rfl : delivered = cut := hdelivered
      refine ⟨h.streaming, ?_, h.entries, hclean, ?_, fun _ => ?_, ?_⟩
      · change s.kept + delivered ≤ s.reported.length
        omega
      · intro _ _ he
        exact absurd (he.symm.trans hmode) (by simp)
      · refine (h.cumulative hmode).receiveChunk hle ?_
        intro data' he _
        cases he
        exact htokens
      · intro he
        exact absurd (he.symm.trans hmode) (by simp)
    | true =>
      rw [hmode, if_pos rfl] at htokens
      have hcut := htokens.le
      rw [List.length_drop] at hcut
      have hdelivered := delivered_note_between hmode herror hle htokens
      rw [hnote] at hdelivered ⊢
      obtain rfl : delivered = cut := hdelivered
      refine ⟨h.streaming, ?_, h.entries, hclean, ?_, ?_, fun _ => ?_⟩
      · change s.kept + delivered ≤ s.reported.length
        omega
      · intro data' he _
        cases he
        exact ⟨s.delivered, htokens⟩
      · intro he
        exact absurd (he.symm.trans hmode) (by simp)
      · exact ⟨(h.synced hmode).ids, (h.synced hmode).entries⟩
  | timeout | other => exact h
  | reroute _ | closed | failed | done => exact absurd hline id

/-- The step of a chunk. -/
theorem Reading.next_eq (h : Reading logprobs s) {response : ResponseHead}
    (hphase : s.phase = .streaming response) {e : StreamEvent}
    (hline : Chunks logprobs s (.receive e)) (cfg : GenerateConfig) (workerKey : String)
    (payload : JsonObject) :
    next cfg workerKey payload s (.receive e) = some { s.note e with
      vars := (s.vars.streamLoop cfg workerKey response [e]).1, phase := .streaming response } := by
  have hclean := (h.receiveEvent hline).clean
  simp only [next, hphase]
  cases e with
  | data text =>
    obtain ⟨u, hflush, -⟩ := hclean.flushPendingChunk cfg (some response) false
    have hflush' : (s.vars.receiveChunk text).flushPendingChunk cfg (some response) false =
        (u, none) := hflush
    simp only [GenerateState.streamLoop, hflush', phaseAfter]
  | timeout =>
    obtain ⟨u, hflush, -⟩ := hclean.flushPendingChunk cfg (some response) false
    have hflush' : s.vars.flushPendingChunk cfg (some response) false = (u, none) := hflush
    simp only [GenerateState.streamLoop, hflush', phaseAfter]
  | other => rfl
  | reroute _ | closed | failed | done => exact absurd hline id

/-- The flush that follows a chunk is made up for by the last one. -/
theorem flush_streamLoop {v : GenerateState} {e : StreamEvent} (h : Clean (v.receiveEvent e))
    (cfg : GenerateConfig) (workerKey : String) (response : ResponseHead) :
    ((v.streamLoop cfg workerKey response [e]).1.flushPendingChunk cfg none true).1 =
      ((v.receiveEvent e).flushPendingChunk cfg none true).1 := by
  rcases streamLoop_singleton_cases cfg workerKey response v e with
    hvars | ⟨force, hvars, -⟩
  · rw [hvars]
  · rw [hvars, h.flush_flush]

theorem reading_next (h : Reading logprobs s) (hline : Chunks logprobs s a)
    (hnext : next cfg workerKey payload s a = some t) : Reading logprobs t := by
  cases a with
  | receive e =>
    obtain ⟨response, hphase⟩ := h.streaming
    have hreceived := h.receiveEvent hline
    rw [h.next_eq hphase hline] at hnext
    cases hnext
    have hstreaming (v : GenerateState) (hv : Reading logprobs { s.note e with vars := v }) :
        Reading logprobs { s.note e with vars := v, phase := .streaming response } :=
      ⟨⟨response, rfl⟩, hv.within, hv.entries, hv.clean, hv.pending, hv.cumulative, hv.synced⟩
    refine hstreaming _ ?_
    rcases streamLoop_singleton_cases cfg workerKey response s.vars e with
      hvars | ⟨force, hvars, -⟩
    · rw [hvars]
      exact hreceived
    · rw [hvars]
      exact hreceived.flushPendingChunk cfg (some response) force
  | connect _ _ _ | recover _ => exact absurd hline id

/-- The last flush absorbs the chunk that came last. -/
theorem flush_receiveChunk (v : GenerateState) {data : JsonObject} (h : data.get "error" = none)
    (cfg : GenerateConfig) (response : Option ResponseHead) :
    ((v.receiveChunk (some data)).flushPendingChunk cfg response true).1 =
      { v with pendingChunkData := none, pendingChunkCount := 0 }.absorbChunk cfg data := by
  simp [GenerateState.flushPendingChunk, GenerateState.receiveChunk, h]

/-- A cumulative stream is always read right. -/
theorem Reading.faithful (h : Reading logprobs s) (hmode : s.streamOutput = false)
    (cfg : GenerateConfig) :
    Faithful cfg logprobs s := by
  obtain ⟨u, hflush, -, hpending, -⟩ := h.clean.flushPendingChunk cfg none true
  have hunderway := (((h.cumulative hmode).flushPendingChunk cfg none true).2
    (congrArg Prod.snd hflush)).1
  rw [hflush] at hunderway
  obtain ⟨c, -, -, hspliced, hnone, -⟩ := hunderway
  obtain rfl := hnone (hpending rfl)
  rw [Faithful, hflush]
  exact hspliced.kept

/-- What is flushed of a stream that is read right so far. -/
theorem Reading.placed (h : Reading logprobs s) (hmode : s.streamOutput = true)
    (hfaithful : Faithful cfg logprobs s) :
    s.vars.currentAttemptOutputIds.length ≤ s.delivered ∧
      Keeps s.reported logprobs (s.kept + s.vars.currentAttemptOutputIds.length)
        s.vars.aggregatedOutputIds s.vars.aggregatedOutputTokenLogprobs ∧
      s.vars.currentAttemptOutputIds =
        tokenIds ((s.reported.drop s.kept).take s.vars.currentAttemptOutputIds.length) := by
  have hsynced := h.synced hmode
  obtain ⟨u, hflush, -, -, hcases⟩ := h.clean.flushPendingChunk cfg none true
  rw [Faithful, hflush] at hfaithful
  rcases hcases with rfl | ⟨data, hpending, rfl⟩
  · exact hsynced.placed h.within (List.append_nil _).symm (List.append_nil _).symm hfaithful
  · obtain ⟨d, hbetween⟩ := h.pending data hpending hmode
    have hcleared : Synced s.reported logprobs s.kept
        { s.vars with pendingChunkData := none, pendingChunkCount := 0 } :=
      ⟨hsynced.ids, hsynced.entries⟩
    have hentries := @aggregatedOutputTokenLogprobs_absorbChunk cfg
      { s.vars with pendingChunkData := none, pendingChunkCount := 0 } data _ _ rfl
      hbetween.listOrEmpty_entries (hbetween.enough (hbetween.extract_length_le h.entries))
    exact hcleared.placed h.within (aggregatedOutputIds_absorbChunk _ data) hentries hfaithful

/-- A chunk keeps the stream right exactly when it is readable. -/
theorem faithful_next_iff (h : Reading logprobs s) (hfaithful : Faithful cfg logprobs s)
    (hline : Chunks logprobs s a) (hnext : next cfg workerKey payload s a = some t) :
    Faithful cfg logprobs t ↔ s.Readable a := by
  have hreading := reading_next h hline hnext
  cases a with
  | connect _ _ _ | recover _ => exact absurd hline id
  | receive e =>
    obtain ⟨response, hphase⟩ := h.streaming
    have hclean := (h.receiveEvent hline).clean
    have hflush := flush_streamLoop hclean cfg workerKey response
    rw [h.next_eq hphase hline] at hnext
    cases e with
    | timeout | other =>
      cases hnext
      refine iff_of_true ?_ trivial
      rw [Faithful, hflush]
      exact hfaithful
    | reroute _ | closed | failed | done => exact absurd hline id
    | data text =>
      obtain ⟨data, cut, rfl, herror, hle, htokens⟩ := hline
      obtain ⟨delivered, finished, hnote⟩ := s.note_frame (.data (some data))
      cases hmode : s.streamOutput with
      | false =>
        refine iff_of_true (hreading.faithful ?_ cfg) ?_
        · rw [hnote] at hnext
          cases hnext
          exact hmode
        · intro he
          exact absurd (he.symm.trans hmode) (by simp)
      | true =>
        rw [hmode, if_pos rfl] at htokens
        have hdelivered := delivered_note_between hmode herror hle htokens
        rw [hnote] at hdelivered hnext
        obtain rfl : delivered = cut := hdelivered
        obtain ⟨hc, hkept, hcurrent⟩ := h.placed hmode hfaithful
        have hreads : Keeps s.reported logprobs (s.kept + delivered)
            ({ s.vars with pendingChunkData := none, pendingChunkCount := 0 }.absorbChunk cfg
              data).aggregatedOutputIds
            ({ s.vars with pendingChunkData := none, pendingChunkCount := 0 }.absorbChunk cfg
              data).aggregatedOutputTokenLogprobs ↔
            Reads (tokenIds ((s.reported.drop s.kept).take s.delivered)) s.delivered
              s.vars.currentAttemptOutputIds.length data :=
          reads_iff hc hle hkept hcurrent h.entries htokens
        cases hnext
        rw [Faithful, hflush]
        have hreceived := flush_receiveChunk s.vars herror cfg none
        change Keeps s.reported logprobs (s.kept + delivered)
          ((s.vars.receiveChunk (some data)).flushPendingChunk cfg none true).1.aggregatedOutputIds
          ((s.vars.receiveChunk (some data)).flushPendingChunk cfg none
            true).1.aggregatedOutputTokenLogprobs ↔ _
        rw [hreceived, hreads]
        exact ⟨fun hread _ => hread, fun hread => hread hmode⟩

/-! ### Flushing every chunk -/

/-- Every chunk is flushed on its own. -/
def individually (cfg : GenerateConfig) : GenerateConfig :=
  { cfg with coalesceChunks := 1, coalesceChunks_pos := Nat.one_pos }

/-- Nothing waits where every chunk is flushed. -/
theorem pendingChunkData_individually {v : GenerateState} {e : StreamEvent}
    (hpending : v.pendingChunkData = none) (h : Clean (v.receiveEvent e)) (cfg : GenerateConfig)
    (workerKey : String) (response : ResponseHead) (hline : Chunks logprobs s (.receive e)) :
    (v.streamLoop (individually cfg) workerKey response [e]).1.pendingChunkData = none := by
  cases e with
  | data text =>
    obtain ⟨data, cut, rfl, herror, -⟩ := hline
    have hflush : (v.receiveChunk (some data)).flushPendingChunk (individually cfg) (some response)
        false = ({ v with pendingChunkData := none, pendingChunkCount := 0 }.absorbChunk
          (individually cfg) data, none) := by
      simp [GenerateState.flushPendingChunk, GenerateState.receiveChunk, individually, herror]
    simp only [GenerateState.streamLoop, hflush, pendingChunkData_absorbChunk]
  | timeout =>
    have hflush : v.flushPendingChunk (individually cfg) (some response) false = (v, none) := by
      rw [GenerateState.flushPendingChunk, hpending]
    simp only [GenerateState.streamLoop, hflush, hpending]
  | other => exact hpending
  | reroute _ | closed | failed | done => exact absurd hline id

/-- All tokens are flushed where nothing waits. -/
theorem Reading.flushed (h : Reading logprobs s) (hmode : s.streamOutput = true)
    (hfaithful : Faithful cfg logprobs s) (hpending : s.vars.pendingChunkData = none) :
    s.vars.currentAttemptOutputIds.length = s.delivered := by
  have hdone : (s.vars.flushPendingChunk cfg none true).1 = s.vars := by
    rw [GenerateState.flushPendingChunk, hpending]
  rw [Faithful, hdone] at hfaithful
  have hlength := hfaithful.length h.within
  have hwithin := h.within
  rw [(h.synced hmode).ids, List.length_append, tokenIds_length, List.length_take] at hlength
  omega

theorem Reads.of_flushed {prior : List Int} {d c : Nat} {data : JsonObject}
    (h : Reads prior d c data) : Reads prior d d data := by
  unfold Reads at h ⊢
  dsimp only at h ⊢
  split_ifs at h ⊢
  · exact .inl rfl
  · rcases h with h | ⟨-, h⟩
    · exact .inl h
    · exact .inr ⟨rfl, h⟩

theorem note_vars (s : RequestState) (v : GenerateState) (e : StreamEvent) :
    ({ s with vars := v } : RequestState).note e = { s.note e with vars := v } := by
  unfold note
  split
  · split <;> rfl
  · rfl

/-- The request and the one that flushes every chunk have read the same. -/
def Twin (cfg : GenerateConfig) (logprobs : Bool) (s t : RequestState) : Prop :=
  (∃ v, t = { s with vars := v }) ∧ (Reading logprobs s ∧ Faithful cfg logprobs s) ∧
    (Reading logprobs t ∧ Faithful (individually cfg) logprobs t) ∧
    t.vars.pendingChunkData = none

theorem twin_next {s' : RequestState} (h : Twin cfg logprobs s t)
    (hline : Chunks logprobs s a ∧ s.Readable a)
    (hnext : next cfg workerKey payload s a = some s') :
    ∃ t', next (individually cfg) workerKey payload t a = some t' ∧
      (Chunks logprobs t a ∧ t.Readable a) ∧ Twin cfg logprobs s' t' := by
  obtain ⟨⟨v, rfl⟩, ⟨hreading, hfaithful⟩, ⟨hreading', hfaithful'⟩, hpending⟩ := h
  obtain ⟨hchunks, hreadable⟩ := hline
  cases a with
  | connect _ _ _ | recover _ => exact absurd hchunks id
  | receive e =>
    obtain ⟨response, hphase⟩ := hreading.streaming
    have hchunks' : Chunks logprobs { s with vars := v } (.receive e) := by
      cases e <;> exact hchunks
    have hreadable' : ({ s with vars := v } : RequestState).Readable (.receive e) := by
      cases e with
      | data text =>
        cases text with
        | none => trivial
        | some data =>
          intro hmode
          have hread : Reads (tokenIds ((s.reported.drop s.kept).take s.delivered)) s.delivered
              v.currentAttemptOutputIds.length data := by
            have hflushed : v.currentAttemptOutputIds.length = s.delivered :=
              hreading'.flushed hmode hfaithful' hpending
            rw [hflushed]
            exact Reads.of_flushed (hreadable hmode)
          exact hread
      | _ => trivial
    have hnext' := hreading'.next_eq hphase hchunks' (individually cfg) workerKey payload
    refine ⟨_, hnext', ⟨hchunks', hreadable'⟩, ?_, ⟨reading_next hreading hchunks hnext,
      (faithful_next_iff hreading hfaithful hchunks hnext).mpr hreadable⟩,
      ⟨reading_next hreading' hchunks' hnext',
        (faithful_next_iff hreading' hfaithful' hchunks' hnext').mpr hreadable'⟩, ?_⟩
    · rw [hreading.next_eq hphase hchunks] at hnext
      cases hnext
      exact ⟨_, by rw [note_vars]⟩
    · exact pendingChunkData_individually hpending (hreading'.receiveEvent hchunks').clean cfg
        workerKey response hchunks

/-- No step but that of a chunk is taken while the stream is open. -/
theorem twin_next_none (h : Twin cfg logprobs s t)
    (hnext : next cfg workerKey payload s a = none) :
    next (individually cfg) workerKey payload t a = none := by
  obtain ⟨⟨v, rfl⟩, ⟨hreading, -⟩, -⟩ := h
  obtain ⟨response, hphase⟩ := hreading.streaming
  cases a with
  | connect _ _ _ | recover _ => simp only [next, hphase]
  | receive e =>
    simp only [next, hphase] at hnext
    cases hnext

/-! ### Any stream -/

/-- An attempt begins to read the stream of a worker whose entries name their tokens. -/
structure Begins (logprobs : Bool) (s : RequestState) : Prop where
  streaming : ∃ response, s.phase = .streaming response
  within : s.kept ≤ s.reported.length
  delivered : s.delivered = 0
  entries : ∀ p ∈ s.reported.drop s.kept, entryTokenId p.2 = some p.1
  pending : s.vars.pendingChunkData = none
  spliced : Spliced s.reported logprobs s.kept 0 s.vars

theorem Begins.reading (h : Begins logprobs s) : Reading logprobs s := by
  have hids : s.vars.aggregatedOutputIds = tokenIds (s.reported.take s.kept) := h.spliced.kept.1
  have hcurrent : s.vars.currentAttemptOutputIds = [] := h.spliced.current
  refine ⟨h.streaming, ?_, h.entries, ?_, ?_, fun _ => ?_, fun _ => ⟨?_, ?_⟩⟩
  · rw [h.delivered]
    exact h.within
  · intro text he
    rw [h.pending] at he
    cases he
  · intro data he
    rw [h.pending] at he
    cases he
  · refine ⟨0, Nat.zero_le _, h.within, h.spliced, fun _ => h.delivered.symm, ?_⟩
    intro data he
    rw [h.pending] at he
    cases he
  · rw [hids, hcurrent, List.append_nil]
  · rw [h.spliced.kept.2, h.spliced.kept.1, tokenIds_length, tokenEntries]
    split_ifs <;> simp

theorem Begins.faithful (h : Begins logprobs s) (cfg : GenerateConfig) :
    Faithful cfg logprobs s := by
  have hdone : (s.vars.flushPendingChunk cfg none true).1 = s.vars := by
    rw [GenerateState.flushPendingChunk, h.pending]
  rw [Faithful, hdone, h.delivered]
  exact h.spliced.kept

/-- Coalesced or flushed one by one, the chunks of a stream give the worker's tokens so far, at
every point, exactly when each of them is readable. -/
theorem coalescing_invisible_iff (cfg : GenerateConfig) (workerKey : String) (payload : JsonObject)
    (logprobs : Bool) (s : RequestState) (hs : Begins logprobs s) (run : List RequestAction)
    (h : Meets (next cfg workerKey payload) (Chunks logprobs) s run) :
    Along (next cfg workerKey payload) (Faithful cfg logprobs) s run ∧
        Along (next (individually cfg) workerKey payload) (Faithful (individually cfg) logprobs)
          s run ↔
      Meets (next cfg workerKey payload) Readable s run := by
  have hiff := along_iff_meets (fun _ _ _ => reading_next)
    (fun _ _ _ hi hp hline hn => faithful_next_iff hi hp hline hn) hs.reading (hs.faithful cfg) h
  constructor
  · intro hboth
    exact hiff.mp hboth.1
  · intro hreadable
    refine ⟨hiff.mpr hreadable, ?_⟩
    have htwin : Twin cfg logprobs s s :=
      ⟨⟨s.vars, rfl⟩, ⟨hs.reading, hs.faithful cfg⟩, ⟨hs.reading, hs.faithful _⟩, hs.pending⟩
    have hmeets : Meets (next (individually cfg) workerKey payload)
        (fun s a => Chunks logprobs s a ∧ s.Readable a) s run := by
      refine Meets.of_simulation (R := Twin cfg logprobs) ?_ ?_ htwin (h.and hreadable)
      · intro _ _ _ htwin hn
        exact twin_next_none htwin hn
      · intro _ _ _ _ htwin hline hn
        exact twin_next htwin hline hn
    refine (along_of_meets (I := fun s => Reading logprobs s ∧ Faithful (individually cfg) logprobs s)
      ?_ ⟨hs.reading, hs.faithful _⟩ hmeets).mono fun _ hi => hi.2
    intro s a t hi hline hn
    exact ⟨reading_next hi.1 hline.1 hn, (faithful_next_iff hi.1 hi.2 hline.1 hn).mpr hline.2⟩

/-- The chunk with the tokens after the first `d` up to the `cut`-th. -/
def pieceChunk (g : List (Int × Json)) (logprobs : Bool) (d cut : Nat) : JsonObject :=
  [("output_ids", .arr ((tokenIds ((g.take cut).drop d)).map .int)),
    ("meta_info", .obj
      [if logprobs then ("output_token_logprobs", .arr ((g.take cut).map Prod.snd))
        else ("id", .null)])]

theorem pieceChunk_between {d cut : Nat} (h : cut ≤ g.length) :
    TokensBetween g logprobs d cut (pieceChunk g logprobs d cut) where
  le := h
  outputIds := by simp [pieceChunk, JsonObject.get_cons]
  entries := by
    cases logprobs <;> simp [chunkMetaInfo, pieceChunk, JsonObject.get_cons]

/-- A worker with `stream_output` begins to stream four tokens. -/
def pieceStream : RequestState :=
  { (init exampleConfig exampleBody).beginAttempt (countingWorker.run [5, 6] 4) true with
    phase := .streaming ⟨200, []⟩ }

theorem pieceStream_begins (logprobs : Bool) : Begins logprobs pieceStream where
  streaming := ⟨_, rfl⟩
  within := Nat.zero_le _
  delivered := rfl
  entries := by decide
  pending := rfl
  spliced := by
    refine ⟨⟨rfl, ?_⟩, rfl, 0, Nat.le_refl 0, rfl, ?_⟩
    · cases logprobs <;> rfl
    · cases logprobs <;> rfl

/-- Two chunks of two tokens each. -/
def pieceRun (logprobs : Bool) : List RequestAction :=
  [.receive (.data (some (pieceChunk (countingWorker.run [5, 6] 4) logprobs 0 2))),
    .receive (.data (some (pieceChunk (countingWorker.run [5, 6] 4) logprobs 2 4)))]

theorem pieceChunk_holds {d cut : Nat} (hd : d ≤ cut) (h : cut ≤ 4) {s : RequestState}
    (hmode : s.streamOutput = true) (hg : s.reported.drop s.kept = countingWorker.run [5, 6] 4)
    (hdelivered : s.delivered = d) :
    s.HoldsTokens logprobs (some (pieceChunk (countingWorker.run [5, 6] 4) logprobs d cut)) := by
  refine ⟨_, cut, rfl, ?_, by omega, ?_⟩
  · simp [pieceChunk, JsonObject.get_cons]
  · rw [hmode, if_pos rfl, hg, hdelivered]
    exact pieceChunk_between h

theorem coalescing_invisible_iff_noLogprobs :
    Along (next exampleConfig "k" exampleBody) (Faithful exampleConfig false) pieceStream
      (pieceRun false) := by
  have hchunks : Meets (next exampleConfig "k" exampleBody) (Chunks false) pieceStream
      (pieceRun false) := by
    refine (meets_cons_some rfl).mpr ⟨?_, (meets_cons_some rfl).mpr ⟨?_, trivial⟩⟩
    · exact pieceChunk_holds (Nat.zero_le 2) (by decide) rfl rfl rfl
    · exact pieceChunk_holds (by decide) (Nat.le_refl 4) rfl rfl rfl
  have hiff := coalescing_invisible_iff exampleConfig "k" exampleBody false pieceStream
    (pieceStream_begins false) (pieceRun false) hchunks
  refine (hiff.mpr ?_).1
  refine (meets_cons_some rfl).mpr ⟨fun _ => .inl rfl, (meets_cons_some rfl).mpr ⟨fun _ => ?_, trivial⟩⟩
  exact .inr ⟨rfl, by decide, rfl⟩

/-- Two chunks to a flush. -/
def twoChunkConfig : GenerateConfig := ⟨2, 1, 2, false, Nat.one_pos, Nat.two_pos⟩

/-- The second chunk replaces the first. -/
theorem not_coalescing_invisible_twoChunks :
    Meets (next twoChunkConfig "k" exampleBody) (Chunks false) pieceStream (pieceRun false) ∧
      ¬Along (next twoChunkConfig "k" exampleBody) (Faithful twoChunkConfig false) pieceStream
        (pieceRun false) := by
  constructor
  · refine (meets_cons_some rfl).mpr ⟨?_, (meets_cons_some rfl).mpr ⟨?_, trivial⟩⟩
    · exact pieceChunk_holds (Nat.zero_le 2) (by decide) rfl rfl rfl
    · exact pieceChunk_holds (by decide) (Nat.le_refl 4) rfl rfl rfl
  · intro h
    have hlast := (h.last rfl).1
    exact absurd hlast (by decide)

end RequestState

end Belayer.Router
