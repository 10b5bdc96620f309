import Belayer.Framework.Segments
import Belayer.Framework.Text

namespace Belayer.Train

open Belayer.Framework

/-! `calculate_log_probs_and_entropy` halves its chunks until they fit into the memory. -/

/-- A `RuntimeError` of torch. -/
structure TorchError where
  outOfMemoryError : Bool
  text : String
  deriving DecidableEq

/-- `_is_oom_error`. -/
def isOomError (exc : TorchError) : Bool :=
  exc.outOfMemoryError || Text.contains "out of memory" exc.text.toLower

/-- The kernels, on a row of logits and its token. The fused cross entropy may leave something else
in its input. -/
structure Kernels (Row Tok P E : Type) where
  logProb : Row → Tok → P
  overwritten : Row → Tok → Row
  entropy : Row → E

/-- What each call of a kernel meets: its number and its rows decide whether it raises, and whether
it has written before. -/
abbrev GpuRun := Nat → Nat → Option (TorchError × Bool)

/-- `torch.chunk`. -/
def torchChunk {α : Type} (l : List α) (numChunks : Nat) : List (List α) :=
  let size := (l.length + numChunks - 1) / numChunks
  (List.range (numSegments size l.length)).map (segmentAt size l)

section

variable {Row Tok P E : Type} (k : Kernels Row Tok P E) (needClone : Bool) (run : GpuRun)

/-- The rows that a call of `compute_log_probs` leaves. -/
def afterCall (written : Bool) (chunk : List (Row × Tok)) : List (Row × Tok) :=
  if needClone || !written then chunk else chunk.map fun p => (k.overwritten p.1 p.2, p.2)

/-- The log-probabilities of the chunks, from the `i`-th call on. -/
def logProbChunks : Nat → List (List (Row × Tok)) →
    Except TorchError (List P) × Nat × List (List (Row × Tok))
  | i, [] => (.ok [], i, [])
  | i, chunk :: chunks =>
    match run i chunk.length with
    | some (exc, written) => (.error exc, i + 1, afterCall k needClone written chunk :: chunks)
    | none =>
      let rest := logProbChunks (i + 1) chunks
      (rest.1.map (chunk.map (fun p => k.logProb p.1 p.2) ++ ·), rest.2.1,
        afterCall k needClone true chunk :: rest.2.2)

/-- The entropies of the chunks, from the `i`-th call on. -/
def entropyChunks : Nat → List (List (Row × Tok)) → Except TorchError (List E) × Nat
  | i, [] => (.ok [], i)
  | i, chunk :: chunks =>
    match run i chunk.length with
    | some (exc, _) => (.error exc, i + 1)
    | none =>
      let rest := entropyChunks (i + 1) chunks
      (rest.1.map (chunk.map (fun p => k.entropy p.1) ++ ·), rest.2)

/-- `_compute_logprob_entropy_chunked`: its result, the calls so far, and what it leaves of the
logits. -/
def computeLogprobEntropyChunked (withEntropy : Bool) (chunkSize i : Nat)
    (cells : List (Row × Tok)) :
    Except TorchError (List P × Option (List E)) × Nat × List (Row × Tok) :=
  let numChunks := (cells.length - 1) / chunkSize + 1
  let (logProbs, i, chunks) := logProbChunks k needClone run i (torchChunk cells numChunks)
  match logProbs with
  | .error exc => (.error exc, i, chunks.flatten)
  | .ok logProb =>
    if withEntropy then
      let (entropys, i) := entropyChunks k run i chunks
      (entropys.map fun entropy => (logProb, some entropy), i, chunks.flatten)
    else (.ok (logProb, none), i, chunks.flatten)

/-- The loop over the effective chunk size. -/
def retryChunks (withEntropy : Bool) (effectiveChunkSize i : Nat) (cells : List (Row × Tok)) :
    Except TorchError (List P × Option (List E)) :=
  let attempt := computeLogprobEntropyChunked k needClone run withEntropy effectiveChunkSize i cells
  match attempt.1 with
  | .ok result => .ok result
  | .error exc =>
    if !isOomError exc then .error exc
    else if effectiveChunkSize ≤ 1 then .error exc
    else retryChunks withEntropy (max 1 (effectiveChunkSize / 2)) attempt.2.1 attempt.2.2
termination_by effectiveChunkSize

/-- `calculate_log_probs_and_entropy`. -/
def calculateLogProbsAndEntropy (withEntropy : Bool) (chunkSize : Int)
    (cells : List (Row × Tok)) : Except TorchError (List P × Option (List E)) :=
  if cells.length ≠ 0 then
    let effectiveChunkSize := if 0 < chunkSize then chunkSize.toNat else cells.length
    retryChunks k needClone run withEntropy effectiveChunkSize 0 cells
  else .ok ([], if withEntropy then some [] else none)

end

/-! ### The chunks -/

section Chunks

variable {α : Type} {l : List α} {numChunks chunkSize : Nat}

theorem flatten_torchChunk (l : List α) (h : 0 < numChunks) : (torchChunk l numChunks).flatten = l := by
  unfold torchChunk
  rw [← List.flatMap_def]
  rcases Nat.eq_zero_or_pos l.length with hzero | hpos
  · rw [List.eq_nil_of_length_eq_zero hzero]
    simp [segmentAt]
  · have hsize : 0 < (l.length + numChunks - 1) / numChunks := Nat.div_pos (by omega) h
    exact flatMap_segment (le_numSegments_mul hsize)

/-- No chunk is longer than the size that their number comes from. -/
theorem length_of_mem_torchChunk (hsize : 0 < chunkSize) (hl : 0 < l.length) {chunk : List α}
    (h : chunk ∈ torchChunk l ((l.length - 1) / chunkSize + 1)) :
    chunk ≠ [] ∧ chunk.length ≤ chunkSize := by
  have hdiv := Nat.div_add_mod (l.length - 1) chunkSize
  have hmod := Nat.mod_lt (l.length - 1) hsize
  generalize (l.length - 1) / chunkSize = q at h hdiv
  simp only [torchChunk] at h
  obtain ⟨i, hi, rfl⟩ := List.mem_map.mp h
  have hpos : 0 < (l.length + (q + 1) - 1) / (q + 1) := Nat.div_pos (by omega) (Nat.succ_pos q)
  have hlt := (lt_numSegments_iff hpos).mp (List.mem_range.mp hi)
  have hle : (l.length + (q + 1) - 1) / (q + 1) ≤ chunkSize := by
    apply Nat.le_of_lt_succ
    rw [Nat.div_lt_iff_lt_mul (Nat.succ_pos q), Nat.succ_mul, Nat.mul_succ]
    omega
  refine ⟨(segment_ne_nil_iff hpos).mpr hlt, ?_⟩
  rw [length_segment]
  omega

end Chunks

/-! ### The result -/

variable {Row Tok P E : Type} {k : Kernels Row Tok P E} {needClone : Bool} {run : GpuRun}

/-- Cells from which the kernels compute the same. -/
def SameResults (k : Kernels Row Tok P E) (cells cells' : List (Row × Tok)) : Prop :=
  cells.map (fun p => k.logProb p.1 p.2) = cells'.map (fun p => k.logProb p.1 p.2) ∧
    cells.map (fun p => k.entropy p.1) = cells'.map (fun p => k.entropy p.1)

theorem SameResults.refl (cells : List (Row × Tok)) : SameResults k cells cells := ⟨rfl, rfl⟩

theorem SameResults.trans {l m n : List (Row × Tok)} (h : SameResults k l m)
    (h' : SameResults k m n) : SameResults k l n :=
  ⟨h.1.trans h'.1, h.2.trans h'.2⟩

theorem SameResults.append {l l' m m' : List (Row × Tok)} (h : SameResults k l l')
    (h' : SameResults k m m') : SameResults k (l ++ m) (l' ++ m') := by
  simp [SameResults, h.1, h.2, h'.1, h'.2]

theorem SameResults.length_eq {l m : List (Row × Tok)} (h : SameResults k l m) :
    l.length = m.length := by
  simpa using congrArg List.length h.1

/-- The input is cloned, or what the fused cross entropy leaves in it does as well. -/
def KeepsInput (k : Kernels Row Tok P E) (needClone : Bool) : Prop :=
  needClone = true ∨ ∀ row tok, k.logProb (k.overwritten row tok) tok = k.logProb row tok ∧
    k.entropy (k.overwritten row tok) = k.entropy row

theorem afterCall_same (h : KeepsInput k needClone) (written : Bool) (chunk : List (Row × Tok)) :
    SameResults k (afterCall k needClone written chunk) chunk := by
  unfold afterCall
  split_ifs with hkept
  · exact .refl chunk
  · rcases h with hclone | hsame
    · simp [hclone] at hkept
    · constructor
      · rw [List.map_map]
        exact List.map_congr_left fun p _ => (hsame p.1 p.2).1
      · rw [List.map_map]
        exact List.map_congr_left fun p _ => (hsame p.1 p.2).2

theorem length_afterCall (written : Bool) (chunk : List (Row × Tok)) :
    (afterCall k needClone written chunk).length = chunk.length := by
  unfold afterCall
  split_ifs <;> simp

/-- A call has met an error on some rows, of which there is one at least and `most` at most. -/
def Met (run : GpuRun) (most : Nat) (exc : TorchError) : Prop :=
  ∃ j rows written, run j rows = some (exc, written) ∧ 0 < rows ∧ rows ≤ most

variable (run) in
/-- The chunks that are left compute the same, and without an error the log-probabilities are those
of all rows. -/
theorem logProbChunks_spec (h : KeepsInput k needClone) {most : Nat} (i : Nat)
    {chunks : List (List (Row × Tok))} (hchunks : ∀ chunk ∈ chunks, chunk ≠ [] ∧ chunk.length ≤ most) :
    let result := logProbChunks k needClone run i chunks
    SameResults k result.2.2.flatten chunks.flatten ∧
      (∀ chunk ∈ result.2.2, chunk ≠ [] ∧ chunk.length ≤ most) ∧
      (result.1 = .ok (chunks.flatten.map fun p => k.logProb p.1 p.2) ∨
        ∃ exc, Met run most exc ∧ result.1 = .error exc) := by
  induction chunks generalizing i with
  | nil => exact ⟨.refl [], hchunks, Or.inl rfl⟩
  | cons chunk chunks ih =>
    obtain ⟨⟨hne, hle⟩, hrest⟩ := List.forall_mem_cons.mp hchunks
    have hafter : ∀ written, afterCall k needClone written chunk ≠ [] ∧
        (afterCall k needClone written chunk).length ≤ most := by
      intro written
      rw [← List.length_pos_iff, length_afterCall]
      exact ⟨List.length_pos_iff.mpr hne, hle⟩
    intro result
    cases hcall : run i chunk.length with
    | some failure =>
      obtain ⟨exc, written⟩ := failure
      have hresult : result =
          (.error exc, i + 1, afterCall k needClone written chunk :: chunks) := by
        simp only [result, logProbChunks, hcall]
      rw [hresult]
      refine ⟨(afterCall_same h written chunk).append (.refl _), ?_, Or.inr ⟨exc, ?_, rfl⟩⟩
      · exact List.forall_mem_cons.mpr ⟨hafter written, hrest⟩
      · exact ⟨i, chunk.length, written, hcall, List.length_pos_iff.mpr hne, hle⟩
    | none =>
      obtain ⟨hsame, hlengths, houtcome⟩ := ih (i + 1) hrest
      have hresult : result =
          ((logProbChunks k needClone run (i + 1) chunks).1.map
              (chunk.map (fun p => k.logProb p.1 p.2) ++ ·),
            (logProbChunks k needClone run (i + 1) chunks).2.1,
            afterCall k needClone true chunk ::
              (logProbChunks k needClone run (i + 1) chunks).2.2) := by
        simp only [result, logProbChunks, hcall]
      rw [hresult]
      refine ⟨(afterCall_same h true chunk).append hsame, ?_, ?_⟩
      · exact List.forall_mem_cons.mpr ⟨hafter true, hlengths⟩
      · rcases houtcome with hok | ⟨exc, hmet, herror⟩
        · left
          simp [hok, Except.map]
        · right
          exact ⟨exc, hmet, by simp [herror, Except.map]⟩

variable (k run) in
theorem entropyChunks_spec {most : Nat} (i : Nat) {chunks : List (List (Row × Tok))}
    (hchunks : ∀ chunk ∈ chunks, chunk ≠ [] ∧ chunk.length ≤ most) :
    (entropyChunks k run i chunks).1 = .ok (chunks.flatten.map fun p => k.entropy p.1) ∨
      ∃ exc, Met run most exc ∧ (entropyChunks k run i chunks).1 = .error exc := by
  induction chunks generalizing i with
  | nil => exact Or.inl rfl
  | cons chunk chunks ih =>
    obtain ⟨⟨hne, hle⟩, hrest⟩ := List.forall_mem_cons.mp hchunks
    cases hcall : run i chunk.length with
    | some failure =>
      obtain ⟨exc, written⟩ := failure
      right
      refine ⟨exc, ⟨i, chunk.length, written, hcall, List.length_pos_iff.mpr hne, hle⟩, ?_⟩
      simp only [entropyChunks, hcall]
    | none =>
      rcases ih (i + 1) hrest with hok | ⟨exc, hmet, herror⟩
      · left
        simp [entropyChunks, hcall, hok, Except.map]
      · right
        exact ⟨exc, hmet, by simp [entropyChunks, hcall, herror, Except.map]⟩

/-- What the kernels give of all rows at once. -/
def expectedResult (k : Kernels Row Tok P E) (withEntropy : Bool) (cells : List (Row × Tok)) :
    List P × Option (List E) :=
  (cells.map (fun p => k.logProb p.1 p.2),
    if withEntropy then some (cells.map fun p => k.entropy p.1) else none)

variable (run) in
/-- One attempt leaves cells that compute the same, and gives the result or an error. -/
theorem computeLogprobEntropyChunked_spec (h : KeepsInput k needClone) (withEntropy : Bool)
    {chunkSize : Nat} (hsize : 0 < chunkSize) (i : Nat) {cells : List (Row × Tok)}
    (hcells : 0 < cells.length) :
    let attempt := computeLogprobEntropyChunked k needClone run withEntropy chunkSize i cells
    SameResults k attempt.2.2 cells ∧
      (attempt.1 = .ok (expectedResult k withEntropy cells) ∨
        ∃ exc, Met run chunkSize exc ∧ attempt.1 = .error exc) := by
  intro attempt
  have hflatten := flatten_torchChunk cells (Nat.succ_pos ((cells.length - 1) / chunkSize))
  have hchunks : ∀ chunk ∈ torchChunk cells ((cells.length - 1) / chunkSize + 1),
      chunk ≠ [] ∧ chunk.length ≤ chunkSize :=
    fun chunk hchunk => length_of_mem_torchChunk hsize hcells hchunk
  obtain ⟨hsame, hlengths, houtcome⟩ := logProbChunks_spec run h i hchunks
  rw [hflatten] at hsame houtcome
  set result := logProbChunks k needClone run i
    (torchChunk cells ((cells.length - 1) / chunkSize + 1)) with hresult
  rcases houtcome with hok | ⟨exc, hmet, herror⟩
  · cases withEntropy with
    | false =>
      have hattempt : attempt = (.ok (expectedResult k false cells), result.2.1,
          result.2.2.flatten) := by
        simp [attempt, computeLogprobEntropyChunked, ← hresult, hok, expectedResult]
      rw [hattempt]
      exact ⟨hsame, Or.inl rfl⟩
    | true =>
      have hattempt : attempt = ((entropyChunks k run result.2.1 result.2.2).1.map fun entropy =>
          (cells.map (fun p => k.logProb p.1 p.2), some entropy),
            (entropyChunks k run result.2.1 result.2.2).2, result.2.2.flatten) := by
        simp [attempt, computeLogprobEntropyChunked, ← hresult, hok]
      rw [hattempt]
      refine ⟨hsame, ?_⟩
      rcases entropyChunks_spec k run result.2.1 hlengths with
        hentropy | ⟨exc, hmet, herror⟩
      · left
        simp [hentropy, Except.map, expectedResult, hsame.2]
      · right
        exact ⟨exc, hmet, by simp [herror, Except.map]⟩
  · have hattempt : attempt = (.error exc, result.2.1, result.2.2.flatten) := by
      simp [attempt, computeLogprobEntropyChunked, ← hresult, herror]
    rw [hattempt]
    exact ⟨hsame, Or.inr ⟨exc, hmet, rfl⟩⟩

/-- An error that the loop gives up on. -/
def GivesUp (run : GpuRun) (exc : TorchError) : Prop :=
  ∃ j rows written, run j rows = some (exc, written) ∧ (isOomError exc = false ∨ rows = 1)

theorem retryChunks_spec (h : KeepsInput k needClone) (withEntropy : Bool)
    {effectiveChunkSize : Nat} (hsize : 0 < effectiveChunkSize) (i : Nat)
    {cells : List (Row × Tok)} (hcells : 0 < cells.length) :
    retryChunks k needClone run withEntropy effectiveChunkSize i cells =
        .ok (expectedResult k withEntropy cells) ∨
      ∃ exc, GivesUp run exc ∧
        retryChunks k needClone run withEntropy effectiveChunkSize i cells = .error exc := by
  induction effectiveChunkSize using Nat.strong_induction_on generalizing i cells with
  | _ size ih =>
    obtain ⟨hsame, houtcome⟩ := computeLogprobEntropyChunked_spec run h withEntropy hsize i
      hcells
    rw [retryChunks]
    rcases houtcome with hok | ⟨exc, ⟨j, rows, written, hcall, hpos, hle⟩, herror⟩
    · left
      simp only [hok]
    · simp only [herror]
      by_cases hoom : isOomError exc
      · by_cases hone : size ≤ 1
        · right
          refine ⟨exc, ⟨j, rows, written, hcall, Or.inr (by omega)⟩, ?_⟩
          simp [hoom, hone]
        · have hexpected : expectedResult k withEntropy
              (computeLogprobEntropyChunked k needClone run withEntropy size i cells).2.2 =
                expectedResult k withEntropy cells := by
            rw [expectedResult, expectedResult, hsame.1, hsame.2]
          have hnext := ih (max 1 (size / 2)) (by omega) (by omega)
            (computeLogprobEntropyChunked k needClone run withEntropy size i cells).2.1
            (hsame.length_eq ▸ hcells)
          rw [hexpected] at hnext
          simpa [hoom, hone] using hnext
      · right
        refine ⟨exc, ⟨j, rows, written, hcall, Or.inl (by simpa using hoom)⟩, ?_⟩
        simp [hoom]

/-- The result does not depend on where the memory runs out. -/
theorem calculateLogProbsAndEntropy_of_keepsInput (h : KeepsInput k needClone) (withEntropy : Bool)
    (chunkSize : Int) (cells : List (Row × Tok)) :
    calculateLogProbsAndEntropy k needClone run withEntropy chunkSize cells =
        .ok (expectedResult k withEntropy cells) ∨
      ∃ exc, GivesUp run exc ∧
        calculateLogProbsAndEntropy k needClone run withEntropy chunkSize cells = .error exc := by
  unfold calculateLogProbsAndEntropy
  by_cases hcells : cells.length ≠ 0
  · rw [if_pos hcells]
    refine retryChunks_spec h withEntropy ?_ 0 (by omega)
    split_ifs <;> omega
  · left
    rw [if_neg hcells, List.eq_nil_of_length_eq_zero (by omega : cells.length = 0)]
    rfl

/-- A run whose first call runs out of memory after it has written. -/
def firstCallFails : GpuRun := fun i _ => if i = 0 then some (⟨true, ""⟩, true) else none

theorem calculate_two (k : Kernels Row Tok P E) (row : Row) (tok : Tok) :
    calculateLogProbsAndEntropy k false firstCallFails false 2 [(row, tok), (row, tok)] =
      .ok ([k.logProb (k.overwritten row tok) tok, k.logProb (k.overwritten row tok) tok], none) := by
  have hchunk : ∀ cell : Row × Tok, torchChunk [cell, cell] 1 = [[cell, cell]] := by
    simp [torchChunk, numSegments, segmentAt]
  have hchunks : ∀ cell : Row × Tok, torchChunk [cell, cell] 2 = [[cell], [cell]] := by
    simp [torchChunk, numSegments, segmentAt, List.range_succ]
  have hfirst : computeLogprobEntropyChunked k false firstCallFails false 2 0
      [(row, tok), (row, tok)] = (.error ⟨true, ""⟩, 1,
        [(k.overwritten row tok, tok), (k.overwritten row tok, tok)]) := by
    simp [computeLogprobEntropyChunked, hchunk, logProbChunks, firstCallFails, afterCall]
  have hsecond : (computeLogprobEntropyChunked k false firstCallFails false 1 1
      [(k.overwritten row tok, tok), (k.overwritten row tok, tok)]).1 =
        .ok ([k.logProb (k.overwritten row tok) tok, k.logProb (k.overwritten row tok) tok],
          none) := by
    simp [computeLogprobEntropyChunked, hchunks, logProbChunks, firstCallFails, Except.map]
  have htoNat : (2 : Int).toNat = 2 := rfl
  simp only [calculateLogProbsAndEntropy]
  rw [if_pos (by simp), if_pos (by decide), htoNat, retryChunks, hfirst]
  simp only [isOomError, Bool.true_or, Bool.not_true]
  rw [retryChunks]
  simp [hsecond]

theorem calculate_one (k : Kernels Row Tok P E) (row : Row) (tok : Tok) :
    calculateLogProbsAndEntropy k false (fun _ _ => none) true 1 [(row, tok)] =
      .ok ([k.logProb row tok], some [k.entropy (k.overwritten row tok)]) := by
  have hchunk : ∀ cell : Row × Tok, torchChunk [cell] 1 = [[cell]] := by
    simp [torchChunk, numSegments, segmentAt]
  have hattempt : (computeLogprobEntropyChunked k false (fun _ _ => none) true 1 0 [(row, tok)]).1 =
      .ok ([k.logProb row tok], some [k.entropy (k.overwritten row tok)]) := by
    simp [computeLogprobEntropyChunked, hchunk, logProbChunks, entropyChunks, afterCall, Except.map]
  have htoNat : (1 : Int).toNat = 1 := rfl
  simp only [calculateLogProbsAndEntropy]
  rw [if_pos (by simp), if_pos (by decide), htoNat, retryChunks]
  simp only [hattempt]

/-- The result is right whatever the memory does, or the error is one that halving does not help
with, just where the input is kept. -/
theorem calculateLogProbsAndEntropy_iff (k : Kernels Row Tok P E) (needClone : Bool) :
    KeepsInput k needClone ↔
      ∀ (run : GpuRun) (withEntropy : Bool) (chunkSize : Int) (cells : List (Row × Tok)),
        calculateLogProbsAndEntropy k needClone run withEntropy chunkSize cells =
            .ok (expectedResult k withEntropy cells) ∨
          ∃ exc, GivesUp run exc ∧
            calculateLogProbsAndEntropy k needClone run withEntropy chunkSize cells =
              .error exc := by
  refine ⟨fun h run => calculateLogProbsAndEntropy_of_keepsInput h, ?_⟩
  intro hall
  cases needClone with
  | true => exact Or.inl rfl
  | false =>
    refine Or.inr fun row tok => ⟨?_, ?_⟩
    · have hresult := hall firstCallFails false 2 [(row, tok), (row, tok)]
      rw [calculate_two] at hresult
      rcases hresult with hok | ⟨exc, -, herror⟩
      · simpa [expectedResult] using hok
      · cases herror
    · have hresult := hall (fun _ _ => none) true 1 [(row, tok)]
      have hone := calculate_one k row tok
      rw [hone] at hresult
      rcases hresult with hok | ⟨exc, -, herror⟩
      · simpa [expectedResult] using hok
      · cases herror

end Belayer.Train
