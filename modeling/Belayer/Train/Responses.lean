import Belayer.Train.SampleMean

namespace Belayer.Train

open Belayer.Framework

/-- What the responses of a micro-batch are cut out by. -/
structure ResponseSample where
  tokens : List Nat
  totalLength : Nat
  responseLength : Nat
  maxSeqLen : Option Nat

section

variable {cpSize : Nat} (cpRank : Fin cpSize) {K : Type} [Field K] [DecidableEq K]

/-- Where a response ends among the logits of one rank. -/
def responseEnd (qkvFormat : QkvFormat) (endPos i : Nat) (s : ResponseSample) : Option Nat :=
  match qkvFormat with
  | .thd => some (endPos + s.totalLength)
  | .bshd => s.maxSeqLen.map fun m => m * i + s.totalLength

/-- The logits of one response and its tokens, and where the loop goes on: without context
parallelism. -/
def plainResponse (qkvFormat : QkvFormat) (logits : List (List K)) (endPos i : Nat)
    (s : ResponseSample) : Option ((List (List K) × List Nat) × Nat) := do
  let endPos ← responseEnd qkvFormat endPos i s
  let start : Int := endPos - s.responseLength
  return ((pySlice logits (start - 1) (endPos - 1),
    pySlice s.tokens (-s.responseLength) s.tokens.length), endPos)

/-- The logits of the two chunks that a rank has of a response, and their tokens. -/
def chunkedResponse (qkvFormat : QkvFormat) (logits : List (List K)) (endPos : Nat)
    (s : ResponseSample) : Option ((List (List K) × List Nat) × Nat) := do
  let offsets ← getLogitsAndTokensOffsetWithCp cpRank s.totalLength s.responseLength qkvFormat
    s.maxSeqLen
  let chunkSize := offsets.chunkSize
  let logits0 := pySlice logits endPos (endPos + chunkSize : Nat)
  let logits1 := pySlice logits (endPos + chunkSize : Nat) (endPos + 2 * chunkSize : Nat)
  let logits0 := pySlice logits0 (offsets.logits.1.1 - offsets.chunks.1.1)
    (offsets.logits.1.2 - offsets.chunks.1.1)
  let tokens0 := pySlice s.tokens offsets.tokens.1.1 offsets.tokens.1.2
  let logits1 := pySlice logits1 (offsets.logits.2.1 - offsets.chunks.2.1)
    (offsets.logits.2.2 - offsets.chunks.2.1)
  let tokens1 := pySlice s.tokens offsets.tokens.2.1 offsets.tokens.2.2
  guard (logits0.length = tokens0.length)
  guard (logits1.length = tokens1.length)
  return ((logits0 ++ logits1, tokens0 ++ tokens1), endPos + 2 * chunkSize)

/-- One round of the loop. -/
def oneResponse (qkvFormat : QkvFormat) (logits : List (List K)) (endPos i : Nat)
    (s : ResponseSample) : Option ((List (List K) × List Nat) × Nat) :=
  if cpSize = 1 then plainResponse qkvFormat logits endPos i s
  else chunkedResponse cpRank qkvFormat logits endPos s

def applyTemperature (temperature : K) (logits : List (List K)) : List (List K) :=
  if temperature = 1 then logits else logits.map fun row => row.map (· / temperature)

/-- The loop of `get_responses` from a place of the logits and a sample on. -/
def responsesFrom (qkvFormat : QkvFormat) (temperature : K) (logits : List (List K)) :
    Nat → Nat → List ResponseSample → Option (List (List (List K) × List Nat))
  | _, _, [] => some []
  | endPos, i, s :: samples => do
    let (chunk, endPos) ← oneResponse cpRank qkvFormat logits endPos i s
    let rest ← responsesFrom qkvFormat temperature logits endPos (i + 1) samples
    return (applyTemperature temperature chunk.1, chunk.2) :: rest

/-- `get_responses`, on the logits in one row. -/
def getResponses (qkvFormat : QkvFormat) (temperature : K) (logits : List (List K))
    (samples : List ResponseSample) : Option (List (List (List K) × List Nat)) :=
  responsesFrom cpRank qkvFormat temperature logits 0 0 samples

end

/-! ### The logits of a rank

A model gives one row of logits for each token of its input, which `get_batch` makes of the slices
of the sequences. -/

section Slices

variable {cpSize : Nat} {cpRank : Fin cpSize} {qkvFormat : QkvFormat} {α : Type} {l : List α}
  {maxSeqLen : Option Nat} {c : Nat}

theorem window_window (l : List α) (a b i j : Nat) :
    window (window l a b) i j = window l (a + i) (min b (a + j)) := by
  apply List.ext_getElem?
  intro k
  simp only [getElem?_window]
  by_cases hk : i + k < j
  · rw [if_pos hk]
    by_cases hb : a + (i + k) < b
    · rw [if_pos hb, if_pos (by omega), Nat.add_assoc]
    · rw [if_neg hb, if_neg (by omega)]
  · rw [if_neg hk, if_neg (by omega)]

theorem window_append_left {a b : Nat} (m : List α) (h : b ≤ l.length) :
    window (l ++ m) a b = window l a b := by
  rw [window, window, List.take_append_of_le_length h]

theorem window_append_right (l m : List α) (a b : Nat) :
    window (l ++ m) (l.length + a) (l.length + b) = window m a b := by
  rw [window, window, List.take_length_add_append, List.drop_length_add_append]

variable (cpRank) in
/-- A padded sequence in chunks. -/
theorem sliceWithCp_eq (hcp : 1 < cpSize) (padValue : α)
    (hc : formatChunkSize cpSize l.length qkvFormat maxSeqLen = some c)
    (hcover : l.length ≤ 2 * cpSize * c) :
    let padded := l ++ List.replicate (2 * cpSize * c - l.length) padValue
    sliceWithCp cpRank l padValue qkvFormat maxSeqLen =
      some (window padded (cpRank * c) ((cpRank + 1) * c) ++
        window padded ((2 * cpSize - 1 - cpRank) * c) ((2 * cpSize - 1 - cpRank + 1) * c)) := by
  intro padded
  have hne : cpSize ≠ 1 := by omega
  have hbshd : qkvFormat = .bshd → maxSeqLen.isSome := by
    rintro rfl
    cases maxSeqLen with
    | none => cases hc
    | some m => rfl
  have hpad : padTokens padValue l ((2 * cpSize * c : Nat) - l.length) = padded := by
    have hnonneg : 0 ≤ ((2 * cpSize * c : Nat) : Int) - l.length := by omega
    have htoNat : (((2 * cpSize * c : Nat) : Int) - l.length).toNat = 2 * cpSize * c - l.length := by
      omega
    rw [padTokens, if_pos hnonneg, htoNat]
  simp only [sliceWithCp, hne, if_false, hc, cpChunks_eq, hpad, chunkRange, Option.bind_eq_bind,
    Option.bind_some, pySlice_natCast]
  by_cases hformat : qkvFormat = .bshd
  · rw [if_pos hformat, hbshd hformat]
    rfl
  · rw [if_neg hformat]
    rfl

end Slices

/-! ### What the ranks cut out -/

namespace ResponseSample

/-- The logits that predict the response, of those of all tokens of a sequence. -/
def responseLogits {α : Type} (s : ResponseSample) (logits : List α) : List α :=
  window logits (s.totalLength - s.responseLength - 1) (s.totalLength - 1)

def responseTokens (s : ResponseSample) : List Nat :=
  window s.tokens (s.totalLength - s.responseLength) s.totalLength

/-- What a batch promises of a sample. -/
structure WellFormed (qkvFormat : QkvFormat) (s : ResponseSample) : Prop where
  response : 0 < s.responseLength
  prompt : s.responseLength < s.totalLength
  tokens : s.tokens.length = s.totalLength
  fits : FitsFormat qkvFormat s.totalLength s.maxSeqLen

end ResponseSample

variable {cpSize : Nat} {cpRank : Fin cpSize} {qkvFormat : QkvFormat} {α : Type} {c : Nat}
  {s : ResponseSample}

theorem length_responseLogits (hs : s.WellFormed qkvFormat) {logits : List α}
    (hlogits : logits.length = s.totalLength) :
    (s.responseLogits logits).length = s.responseLength := by
  have hprompt := hs.prompt
  rw [ResponseSample.responseLogits, length_window]
  omega

theorem length_responseTokens (hs : s.WellFormed qkvFormat) :
    s.responseTokens.length = s.responseLength := by
  have hprompt := hs.prompt
  have htokens := hs.tokens
  rw [ResponseSample.responseTokens, length_window]
  omega

/-- The logits of the response in a chunk of the padded sequence. -/
theorem pySlice_chunk (hs : s.WellFormed qkvFormat) {logits : List α}
    (hlogits : logits.length = s.totalLength) (padding : List α) (c i : Nat) :
    let offset := logitsOffset s.totalLength ((s.totalLength : Int) - s.responseLength)
      (chunkRange c i)
    pySlice (window (logits ++ padding) (i * c) ((i + 1) * c)) (offset.1 - (chunkRange c i).1)
        (offset.2 - (chunkRange c i).1) =
      chunkAt c (s.totalLength - s.responseLength - 1) i (s.responseLogits logits) := by
  intro offset
  have hprompt := hs.prompt
  rcases chunk_cases (length_responseLogits hs hlogits) hs.prompt c i with
    ⟨a, b, hoffset, hab, hb, hin, hchunk⟩ | ⟨hoffset, hout, hchunk⟩
  · have hfirst := (hin a (by omega)).mpr (by omega)
    have hlast := (hin (b - 1) (by omega)).mpr (by omega)
    unfold InChunk at hfirst hlast
    have hstart : offset.1 - (chunkRange c i).1 =
        (a + (s.totalLength - s.responseLength - 1) - i * c : Nat) := by
      simp only [offset, hoffset, chunkRange]
      omega
    have hend : offset.2 - (chunkRange c i).1 =
        (b + (s.totalLength - s.responseLength - 1) - i * c : Nat) := by
      simp only [offset, hoffset, chunkRange]
      omega
    rw [hstart, hend, hchunk, pySlice_natCast, window_window, ResponseSample.responseLogits,
      window_window, window_append_left _ (by omega)]
    congr 1 <;> omega
  · simp only [offset, hoffset]
    rw [pySlice_self, hchunk]

/-- The tokens that these logits predict. -/
theorem pySlice_tokens (hs : s.WellFormed qkvFormat) (c i : Nat) :
    let tokens := tokensOffset (logitsOffset s.totalLength
      ((s.totalLength : Int) - s.responseLength) (chunkRange c i))
    pySlice s.tokens tokens.1 tokens.2 =
      chunkAt c (s.totalLength - s.responseLength - 1) i s.responseTokens := by
  intro tokens
  have hprompt := hs.prompt
  have htokens := hs.tokens
  rcases chunk_cases (length_responseTokens hs) hs.prompt c i with
    ⟨a, b, hoffset, hab, hb, hin, hchunk⟩ | ⟨hoffset, hout, hchunk⟩
  · have hlt : (a : Int) + (s.totalLength - s.responseLength - 1 : Nat) <
        (b : Int) + (s.totalLength - s.responseLength - 1 : Nat) := by omega
    have hstart : tokens.1 = (a + (s.totalLength - s.responseLength) : Nat) := by
      simp only [tokens, hoffset, tokensOffset, hlt, if_true]
      omega
    have hend : tokens.2 = (b + (s.totalLength - s.responseLength) : Nat) := by
      simp only [tokens, hoffset, tokensOffset, hlt, if_true]
      omega
    rw [hstart, hend, hchunk, pySlice_natCast, ResponseSample.responseTokens, window_window]
    congr 1 <;> omega
  · simp only [tokens, hoffset, tokensOffset, lt_irrefl, if_false]
    rw [pySlice_self, hchunk]

variable {K : Type}

/-- A rank finds its slices of the response behind the logits of the samples before. -/
theorem chunkedResponse_eq (hcp : 1 < cpSize) (hs : s.WellFormed qkvFormat)
    {logits before behind row : List (List K)} {padRow : List K}
    (hlogits : logits.length = s.totalLength)
    (hrow : sliceWithCp cpRank logits padRow qkvFormat s.maxSeqLen = some row) :
    chunkedResponse cpRank qkvFormat (before ++ row ++ behind) before.length s =
      some ((cpShard cpRank s.totalLength s.responseLength qkvFormat s.maxSeqLen
          (s.responseLogits logits),
        cpShard cpRank s.totalLength s.responseLength qkvFormat s.maxSeqLen s.responseTokens),
        before.length + row.length) := by
  obtain ⟨c, hc, hcover⟩ := exists_formatChunkSize (show 0 < cpSize by omega) hs.fits
  have hc' : formatChunkSize cpSize logits.length qkvFormat s.maxSeqLen = some c := hlogits ▸ hc
  have hslice := sliceWithCp_eq cpRank hcp padRow hc' (hlogits ▸ hcover)
  rw [hrow] at hslice
  obtain rfl := Option.some.inj hslice
  have hrank := cpRank.isLt
  set padded := logits ++ List.replicate (2 * cpSize * c - logits.length) padRow
  have hlen : padded.length = 2 * cpSize * c := by
    simp only [padded, List.length_append, List.length_replicate]
    omega
  have hhalf : ∀ i < 2 * cpSize, (window padded (i * c) ((i + 1) * c)).length = c := by
    intro i hi
    have hle : (i + 1) * c ≤ 2 * cpSize * c := Nat.mul_le_mul_right c hi
    rw [length_window, hlen, Nat.min_eq_left hle, Nat.succ_mul, Nat.add_sub_cancel_left]
  set first := window padded (cpRank * c) ((cpRank + 1) * c) with hfirst
  set second := window padded ((2 * cpSize - 1 - cpRank) * c) ((2 * cpSize - 1 - cpRank + 1) * c)
    with hsecond
  have hfirstLen : first.length = c := hhalf _ (by omega)
  have hsecondLen : second.length = c := hhalf _ (by omega)
  have hall : before ++ (first ++ second) ++ behind = before ++ (first ++ (second ++ behind)) := by
    simp
  have hread0 : pySlice (before ++ (first ++ second) ++ behind) before.length
      (before.length + c : Nat) = first := by
    have hwindow := window_append_right before (first ++ (second ++ behind)) 0 c
    rw [hall, pySlice_natCast]
    exact hwindow.trans (List.take_left' hfirstLen)
  have hread1 : pySlice (before ++ (first ++ second) ++ behind) (before.length + c : Nat)
      (before.length + 2 * c : Nat) = second := by
    have hwindow := window_append_right before (first ++ (second ++ behind)) c (2 * c)
    have hwindow' := window_append_right first (second ++ behind) 0 c
    rw [hfirstLen, ← two_mul] at hwindow'
    rw [hall, pySlice_natCast]
    exact hwindow.trans (hwindow'.trans (List.take_left' hsecondLen))
  have hchunk := fun i => pySlice_chunk hs hlogits
    (List.replicate (2 * cpSize * c - logits.length) padRow) c i
  have htokens := fun i => pySlice_tokens hs c i
  have hequal : ∀ i, (chunkAt c (s.totalLength - s.responseLength - 1) i
      (s.responseLogits logits)).length =
        (chunkAt c (s.totalLength - s.responseLength - 1) i s.responseTokens).length := by
    intro i
    simp only [chunkAt, length_window, length_responseLogits hs hlogits, length_responseTokens hs]
  simp only [chunkedResponse, offsets_eq hcp hc, cpChunks_eq, Option.bind_eq_bind, Option.bind_some,
    hread0, hread1]
  simp only [hfirst, hsecond, padded, hchunk, htokens, hequal, guard, if_true]
  rw [cpShard_of_lt hcp hc, cpShard_of_lt hcp hc, List.length_append, hfirstLen, hsecondLen,
    ← two_mul]
  rfl

/-- What one rank alone has of a sequence, with the padding behind it. -/
theorem sliceWithCp_one (hs : s.WellFormed qkvFormat) {logits row : List α} {padValue : α}
    (hlogits : logits.length = s.totalLength)
    (hrow : sliceWithCp (0 : Fin 1) logits padValue qkvFormat s.maxSeqLen = some row) :
    ∃ padding, row = logits ++ padding ∧ (qkvFormat = .thd → padding = []) ∧
      (qkvFormat = .bshd → ∀ m ∈ s.maxSeqLen, row.length = m) := by
  cases qkvFormat with
  | thd =>
    obtain rfl : logits = row := by simpa [sliceWithCp] using hrow
    exact ⟨[], (List.append_nil _).symm, fun _ => rfl, fun h => by cases h⟩
  | bshd =>
    obtain ⟨m, hm, hle⟩ := hs.fits rfl
    have hm := Option.mem_def.mp hm
    have hnonneg : 0 ≤ (m : Int) - logits.length := by omega
    have hrow : logits ++ List.replicate ((m : Int) - logits.length).toNat padValue = row := by
      have hpad : padTokens padValue logits ((m : Int) - logits.length) = row := by
        simpa [sliceWithCp, hm, guard] using hrow
      rwa [padTokens, if_pos hnonneg] at hpad
    refine ⟨_, hrow.symm, (fun h => by cases h), ?_⟩
    rintro - m' hm'
    obtain rfl : m = m' := Option.some.inj (hm.symm.trans hm')
    rw [← hrow, List.length_append, List.length_replicate]
    omega

/-- One rank alone finds the whole response. -/
theorem plainResponse_eq (hs : s.WellFormed qkvFormat) {logits before row : List (List K)}
    (behind : List (List K))
    {padRow : List K} {endPos i : Nat} (hlogits : logits.length = s.totalLength)
    (hrow : sliceWithCp (0 : Fin 1) logits padRow qkvFormat s.maxSeqLen = some row)
    (hthd : qkvFormat = .thd → endPos = before.length)
    (hbshd : qkvFormat = .bshd → ∀ m ∈ s.maxSeqLen, before.length = m * i) :
    plainResponse qkvFormat (before ++ row ++ behind) endPos i s =
      some ((s.responseLogits logits, s.responseTokens), before.length + s.totalLength) := by
  have hprompt := hs.prompt
  have hresponse := hs.response
  have htokens := hs.tokens
  obtain ⟨padding, rfl, -, -⟩ := sliceWithCp_one hs hlogits hrow
  have hend : responseEnd qkvFormat endPos i s = some (before.length + s.totalLength) := by
    cases qkvFormat with
    | thd => rw [responseEnd, hthd rfl]
    | bshd =>
      obtain ⟨m, hm, -⟩ := hs.fits rfl
      rw [responseEnd, Option.mem_def.mp hm, hbshd rfl m hm]
      rfl
  have hfirst : ((before.length + s.totalLength : Nat) : Int) - s.responseLength - 1 =
      (before.length + (s.totalLength - s.responseLength - 1) : Nat) := by omega
  have hlast : ((before.length + s.totalLength : Nat) : Int) - 1 =
      (before.length + (s.totalLength - 1) : Nat) := by omega
  have hslice : pySlice (before ++ (logits ++ padding) ++ behind)
      (before.length + (s.totalLength - s.responseLength - 1) : Nat)
      (before.length + (s.totalLength - 1) : Nat) = s.responseLogits logits := by
    rw [pySlice_natCast, List.append_assoc, List.append_assoc, window_append_right,
      window_append_left _ (by omega)]
    rfl
  have hneg : -(s.responseLength : Int) < 0 := by omega
  have hstart : (-(s.responseLength : Int) + s.tokens.length).toNat =
      s.totalLength - s.responseLength := by omega
  have htail : pySlice s.tokens (-s.responseLength) s.tokens.length = s.responseTokens := by
    have hnonneg : ¬((s.tokens.length : Int) < 0) := by omega
    rw [pySlice, sliceBound, sliceBound, if_pos hneg, if_neg hnonneg, hstart, Int.toNat_natCast,
      htokens]
    rfl
  simp only [plainResponse]
  rw [hend]
  simp only [Option.bind_eq_bind, Option.bind_some]
  rw [hfirst, hlast, hslice, htail]
  rfl

/-! ### The whole loop -/

section

variable [Field K] [DecidableEq K]

/-- What a rank has of the response logits of a sample, and of its tokens. -/
def responseShard (cpRank : Fin cpSize) (qkvFormat : QkvFormat) (temperature : K)
    (p : ResponseSample × List (List K)) : List (List K) × List Nat :=
  (applyTemperature temperature (cpShard cpRank p.1.totalLength p.1.responseLength qkvFormat
      p.1.maxSeqLen (p.1.responseLogits p.2)),
    cpShard cpRank p.1.totalLength p.1.responseLength qkvFormat p.1.maxSeqLen p.1.responseTokens)

/-- All samples of a batch are padded to one length. -/
def PaddedTo (qkvFormat : QkvFormat) (samples : List (ResponseSample × List (List K))) (m : Nat) :
    Prop :=
  qkvFormat = .bshd → ∀ p ∈ samples, p.1.maxSeqLen = some m

omit [Field K] [DecidableEq K] in
/-- One round gives what the rank has of a sample, and goes on behind its logits. -/
theorem oneResponse_eq (hs : s.WellFormed qkvFormat) {logits before row : List (List K)}
    (behind : List (List K)) {padRow : List K} {endPos i m : Nat} (hlogits : logits.length = s.totalLength)
    (hrow : sliceWithCp cpRank logits padRow qkvFormat s.maxSeqLen = some row)
    (hpadded : qkvFormat = .bshd → s.maxSeqLen = some m)
    (hend : cpSize ≠ 1 ∨ qkvFormat = .thd → endPos = before.length)
    (hbefore : cpSize = 1 → qkvFormat = .bshd → before.length = m * i) :
    ∃ endPos', oneResponse cpRank qkvFormat (before ++ row ++ behind) endPos i s =
        some ((cpShard cpRank s.totalLength s.responseLength qkvFormat s.maxSeqLen
            (s.responseLogits logits),
          cpShard cpRank s.totalLength s.responseLength qkvFormat s.maxSeqLen s.responseTokens),
          endPos') ∧
      (cpSize ≠ 1 ∨ qkvFormat = .thd → endPos' = (before ++ row).length) ∧
      (cpSize = 1 → qkvFormat = .bshd → (before ++ row).length = m * (i + 1)) := by
  by_cases hone : cpSize = 1
  · subst hone
    obtain rfl : cpRank = 0 := Subsingleton.elim _ _
    obtain ⟨padding, hsplit, hthd, hbshd⟩ := sliceWithCp_one hs hlogits hrow
    have hplain := plainResponse_eq (i := i) hs behind hlogits hrow
      (fun ht => hend (Or.inr ht)) (fun hb m' hm' => by
        rw [hbefore rfl hb, Option.some.inj ((hpadded hb).symm.trans hm')])
    refine ⟨before.length + s.totalLength, ?_, ?_, ?_⟩
    · rw [oneResponse, if_pos rfl, hplain]
      simp [cpShard]
    · rintro (hne | ht)
      · exact absurd rfl hne
      · rw [hsplit, hthd ht, List.append_nil, List.length_append, hlogits]
    · intro _ hb
      rw [List.length_append, hbefore rfl hb, hbshd hb m (hpadded hb), Nat.mul_succ]
  · have hpos := cpRank.isLt
    obtain rfl := hend (Or.inl hone)
    refine ⟨before.length + row.length, ?_, ?_, fun h => absurd h hone⟩
    · rw [oneResponse, if_neg hone]
      exact chunkedResponse_eq (by omega) hs hlogits hrow
    · exact fun _ => (List.length_append ..).symm

/-- From the logits of a sample on the loop gives what the rank has of it and of the samples
behind. -/
theorem responsesFrom_eq {temperature : K} {m : Nat} {padRow : List K}
    {samples : List (ResponseSample × List (List K))} {rows : List (List (List K))}
    {before behind : List (List K)} {endPos i : Nat}
    (h : ∀ p ∈ samples, p.1.WellFormed qkvFormat ∧ p.2.length = p.1.totalLength)
    (hpadded : PaddedTo qkvFormat samples m)
    (hrows : samples.mapM (fun p => sliceWithCp cpRank p.2 padRow qkvFormat p.1.maxSeqLen) =
      some rows)
    (hend : cpSize ≠ 1 ∨ qkvFormat = .thd → endPos = before.length)
    (hbefore : cpSize = 1 → qkvFormat = .bshd → before.length = m * i) :
    responsesFrom cpRank qkvFormat temperature (before ++ rows.flatten ++ behind) endPos i
        (samples.map Prod.fst) =
      some (samples.map (responseShard cpRank qkvFormat temperature)) := by
  induction samples generalizing rows before endPos i with
  | nil => rfl
  | cons p samples ih =>
    obtain ⟨⟨hs, hlogits⟩, hrest⟩ := List.forall_mem_cons.mp h
    obtain ⟨row, rows', hrow, hrows', rfl⟩ := mapM_cons_eq_some_iff.mp hrows
    have hpadded' : PaddedTo qkvFormat samples m :=
      fun hb p hp => hpadded hb p (List.mem_cons_of_mem _ hp)
    have hassoc : before ++ (row :: rows').flatten ++ behind =
        before ++ row ++ (rows'.flatten ++ behind) := by simp
    have hnext : before ++ row ++ (rows'.flatten ++ behind) =
        (before ++ row) ++ rows'.flatten ++ behind := by simp
    obtain ⟨endPos', hone, hend', hbefore'⟩ := oneResponse_eq hs
      (rows'.flatten ++ behind) hlogits hrow (hpadded · p List.mem_cons_self) hend hbefore
    have hrun := ih hrest hpadded' hrows' hend' hbefore'
    rw [hassoc, List.map_cons, responsesFrom, hone]
    simp only [Option.bind_eq_bind, Option.bind_some]
    rw [hnext, hrun]
    rfl

omit [Field K] [DecidableEq K] in
theorem exists_sliceWithCp (hs : s.WellFormed qkvFormat) {logits : List α}
    (hlogits : logits.length = s.totalLength) (padValue : α) (cpRank : Fin cpSize) :
    ∃ row, sliceWithCp cpRank logits padValue qkvFormat s.maxSeqLen = some row := by
  have hpos := Nat.zero_lt_of_lt cpRank.isLt
  by_cases hone : cpSize = 1
  · cases qkvFormat with
    | thd => exact ⟨logits, by simp [sliceWithCp, hone]⟩
    | bshd =>
      obtain ⟨m, hm, -⟩ := hs.fits rfl
      have hm := Option.mem_def.mp hm
      exact ⟨padTokens padValue logits (m - logits.length), by simp [sliceWithCp, hone, hm, guard]⟩
  · obtain ⟨c, hc, hcover⟩ := exists_formatChunkSize hpos hs.fits
    exact ⟨_, sliceWithCp_eq cpRank (by omega) padValue (hlogits ▸ hc) (hlogits ▸ hcover)⟩

theorem length_applyTemperature (temperature : K) (logits : List (List K)) :
    (applyTemperature temperature logits).length = logits.length := by
  unfold applyTemperature
  split_ifs <;> simp

theorem cpShard_applyTemperature (temperature : K) {totalLength responseLength : Nat}
    {maxSeqLen : Option Nat} (logits : List (List K)) :
    cpShard cpRank totalLength responseLength qkvFormat maxSeqLen
        (applyTemperature temperature logits) =
      applyTemperature temperature
        (cpShard cpRank totalLength responseLength qkvFormat maxSeqLen logits) := by
  unfold applyTemperature
  split_ifs
  · rfl
  · exact cpShard_map _ _

/-- Each rank cuts its slices of the response logits and tokens of every sample out of the logits
that it has. -/
theorem getResponses_shards (temperature : K) {m : Nat}
    {samples : List (ResponseSample × List (List K))}
    (h : ∀ p ∈ samples, p.1.WellFormed qkvFormat ∧ p.2.length = p.1.totalLength)
    (hpadded : PaddedTo qkvFormat samples m) (padRow : List K) (padding : List (List K))
    (cpRank : Fin cpSize) :
    ∃ rows, samples.mapM (fun p => sliceWithCp cpRank p.2 padRow qkvFormat p.1.maxSeqLen) =
        some rows ∧
      getResponses cpRank qkvFormat temperature (rows.flatten ++ padding) (samples.map Prod.fst) =
        some (samples.map (responseShard cpRank qkvFormat temperature)) := by
  obtain ⟨rows, hrows⟩ := exists_mapM fun p hp => Option.isSome_iff_exists.mpr
    (exists_sliceWithCp (h p hp).1 (h p hp).2 padRow cpRank)
  refine ⟨rows, hrows, ?_⟩
  have hrun : responsesFrom cpRank qkvFormat temperature ([] ++ rows.flatten ++ padding) 0 0
      (samples.map Prod.fst) = _ :=
    responsesFrom_eq h hpadded hrows (fun _ => rfl) (fun _ _ => rfl)
  exact hrun

/-- What is computed of the logits of each rank, row by row with the tokens, and gathered, is what
the logits at the token before give of each token of the response. -/
theorem allGatherWithCp_getResponses {R : Type} [AddCommMonoid R] {temperature : K}
    {samples : List (ResponseSample × List (List K))}
    (h : ∀ p ∈ samples, p.1.WellFormed .thd ∧ p.2.length = p.1.totalLength) (padRow : List K)
    (padding : Fin cpSize → List (List K)) (logProb : List K → Nat → R) :
    ∃ (rows : Fin cpSize → List (List (List K)))
      (responses : Fin cpSize → List (List (List K) × List Nat)),
      (∀ cpRank, samples.mapM (fun p => sliceWithCp cpRank p.2 padRow .thd p.1.maxSeqLen) =
          some (rows cpRank) ∧
        getResponses cpRank .thd temperature ((rows cpRank).flatten ++ padding cpRank)
          (samples.map Prod.fst) = some (responses cpRank)) ∧
      ∀ (i : Nat) (hi : i < samples.length) (cpRank : Fin cpSize),
        allGatherWithCp cpRank
          (fun rank => (responses rank)[i]?.elim [] fun p => List.zipWith logProb p.1 p.2)
          samples[i].1.totalLength samples[i].1.responseLength =
        some (List.zipWith logProb
          (applyTemperature temperature (samples[i].1.responseLogits samples[i].2))
          samples[i].1.responseTokens) := by
  have hpadded : PaddedTo .thd samples 0 := fun hb => by cases hb
  choose rows hrows hresponses using
    fun padding (cpRank : Fin cpSize) =>
      getResponses_shards temperature h hpadded padRow padding cpRank
  refine ⟨fun cpRank => rows (padding cpRank) cpRank,
    fun cpRank => samples.map (responseShard cpRank .thd temperature),
    fun cpRank => ⟨hrows _ _, hresponses _ _⟩, ?_⟩
  intro i hi cpRank
  obtain ⟨hs, hlogits⟩ := h _ (List.getElem_mem hi)
  have htokens := length_responseTokens hs
  have hlen : (applyTemperature temperature (samples[i].1.responseLogits samples[i].2)).length =
      samples[i].1.responseLength := by
    rw [length_applyTemperature, length_responseLogits hs hlogits]
  have hall : (List.zipWith logProb
      (applyTemperature temperature (samples[i].1.responseLogits samples[i].2))
      samples[i].1.responseTokens).length = samples[i].1.responseLength := by
    rw [List.length_zipWith, hlen, htokens, Nat.min_self]
  rw [← allGatherWithCp_cpShard hall hs.prompt cpRank]
  congr 1
  funext rank
  rw [cpShard_zipWith logProb (hlen.trans htokens.symm), List.getElem?_map,
    List.getElem?_eq_getElem hi, Option.map_some, Option.elim_some, responseShard,
    ← cpShard_applyTemperature]
  rfl

end

/-- A sequence of a prompt of two tokens and a response of three, and its logits. -/
def fiveTokens : ResponseSample × List (List ℚ) :=
  (⟨[0, 1, 1, 0, 1], 5, 3, none⟩, [[1, 2], [3, 4], [5, 6], [7, 8], [9, 10]])

/-- The logit of a token. -/
def tokenLogit (row : List ℚ) (token : Nat) : ℚ := row.getD token 0

theorem allGatherWithCp_getResponses_fiveTokens :
    ∃ (rows : Fin 2 → List (List (List ℚ)))
      (responses : Fin 2 → List (List (List ℚ) × List Nat)),
      (∀ cpRank, [fiveTokens].mapM (fun p => sliceWithCp cpRank p.2 [] .thd p.1.maxSeqLen) =
          some (rows cpRank) ∧
        getResponses cpRank .thd 1 ((rows cpRank).flatten ++ []) ([fiveTokens].map Prod.fst) =
          some (responses cpRank)) ∧
      ∀ (i : Nat) (hi : i < [fiveTokens].length) (cpRank : Fin 2),
        allGatherWithCp cpRank
          (fun rank => (responses rank)[i]?.elim [] fun p => List.zipWith tokenLogit p.1 p.2)
          [fiveTokens][i].1.totalLength [fiveTokens][i].1.responseLength =
        some (List.zipWith tokenLogit
          (applyTemperature 1 ([fiveTokens][i].1.responseLogits [fiveTokens][i].2))
          [fiveTokens][i].1.responseTokens) := by
  have hsample : ∀ p ∈ [fiveTokens], p.1.WellFormed .thd ∧ p.2.length = p.1.totalLength := by
    intro p hp
    obtain rfl := List.mem_singleton.mp hp
    exact ⟨⟨by decide, by decide, rfl, fun h => by cases h⟩, rfl⟩
  exact allGatherWithCp_getResponses hsample [] (fun _ => []) tokenLogit

end Belayer.Train
