import Belayer.Framework.Chunks
import Belayer.Framework.Segments
import Mathlib.Algebra.BigOperators.Group.List.Basic
import Mathlib.Algebra.Order.Field.Basic

namespace Belayer.Train

open Belayer.Framework

inductive QkvFormat where
  | thd
  | bshd
  deriving DecidableEq

/-- The two chunks of a rank, the logits in them that predict tokens of the response, and these
tokens. All offsets start at the prompt. -/
structure CpOffsets where
  chunkSize : Nat
  chunks : (Int × Int) × (Int × Int)
  logits : (Int × Int) × (Int × Int)
  tokens : (Int × Int) × (Int × Int)

def cpChunkSize (cpSize length : Nat) : Nat := (length + 2 * cpSize - 1) / (2 * cpSize)

/-- The size of the chunks of a sequence, or of the length that all sequences are padded to. -/
def formatChunkSize (cpSize length : Nat) (qkvFormat : QkvFormat) (maxSeqLen : Option Nat) :
    Option Nat :=
  match qkvFormat with
  | .thd => some (cpChunkSize cpSize length)
  | .bshd => maxSeqLen.map (cpChunkSize cpSize)

/-- The logits of a chunk need a "-1"; without any they are an empty slice. -/
def logitsOffset (totalLength promptLength : Int) (chunk : Int × Int) : Int × Int :=
  let logits := (max chunk.1 (promptLength - 1), min chunk.2 (totalLength - 1))
  if logits.1 < logits.2 then logits else (0, 0)

def tokensOffset (logits : Int × Int) : Int × Int :=
  if logits.1 < logits.2 then (logits.1 + 1, logits.2 + 1) else (0, 0)

section

variable {cpSize : Nat} (cpRank : Fin cpSize)

/-- `chunk_0` and `chunk_1`. -/
def cpChunks (chunkSize : Nat) : (Int × Int) × (Int × Int) :=
  let rank : Nat := cpRank
  (((rank * chunkSize : Nat), ((rank + 1) * chunkSize : Nat)),
    (((2 * cpSize - rank - 1) * chunkSize : Nat), ((2 * cpSize - rank) * chunkSize : Nat)))

/-- `get_logits_and_tokens_offset_with_cp`; `none` where an assertion fails. -/
def getLogitsAndTokensOffsetWithCp (totalLength responseLength : Nat) (qkvFormat : QkvFormat)
    (maxSeqLen : Option Nat) : Option CpOffsets := do
  guard (1 < cpSize)
  let chunkSize ← formatChunkSize cpSize totalLength qkvFormat maxSeqLen
  let promptLength : Int := totalLength - responseLength
  let chunks := cpChunks cpRank chunkSize
  let logits := (logitsOffset totalLength promptLength chunks.1,
    logitsOffset totalLength promptLength chunks.2)
  return ⟨chunkSize, chunks, logits, (tokensOffset logits.1, tokensOffset logits.2)⟩

variable {α : Type}

/-- `slice_log_prob_with_cp`. -/
def sliceLogProbWithCp (logProb : List α) (totalLength responseLength : Nat)
    (qkvFormat : QkvFormat) (maxTokenLen : Option Nat) : Option (List α) := do
  guard (logProb.length = responseLength)
  if cpSize = 1 then return logProb
  let promptLength : Int := totalLength - responseLength
  let offsets ← getLogitsAndTokensOffsetWithCp cpRank totalLength responseLength qkvFormat
    maxTokenLen
  let chunk := fun logits : Int × Int =>
    pySlice logProb (logits.1 - (promptLength - 1)) (logits.2 - (promptLength - 1))
  return chunk offsets.logits.1 ++ chunk offsets.logits.2

/-- `pad_tokens` with a value; padding by less than nothing cuts, as `F.pad` does. -/
def padTokens (padValue : α) (tokens : List α) (pad : Int) : List α :=
  if 0 ≤ pad then tokens ++ List.replicate pad.toNat padValue
  else tokens.take (tokens.length + pad).toNat

/-- `slice_with_cp`. -/
def sliceWithCp (tokens : List α) (padValue : α) (qkvFormat : QkvFormat)
    (maxSeqLen : Option Nat) : Option (List α) := do
  if qkvFormat = .bshd then guard maxSeqLen.isSome
  if cpSize = 1 then
    match qkvFormat with
    | .thd => return tokens
    | .bshd =>
      let length ← maxSeqLen
      return padTokens padValue tokens (length - tokens.length)
  let chunkSize ← formatChunkSize cpSize tokens.length qkvFormat maxSeqLen
  let padded := padTokens padValue tokens ((2 * cpSize * chunkSize : Nat) - tokens.length)
  let chunks := cpChunks cpRank chunkSize
  return pySlice padded chunks.1.1 chunks.1.2 ++ pySlice padded chunks.2.1 chunks.2.2

end

/-! `all_gather_with_cp` -/

section

variable {cpSize : Nat} {R : Type} [AddCommMonoid R]

/-- `zero`, which raises where the length is negative. -/
def zeroTensor (length : Int) : Option (List R) :=
  if length < 0 then none else some (List.replicate length.toNat 0)

/-- The two chunks of a rank at the places of their logits, with zeros around them. -/
def placeChunks (totalLength responseLength : Nat) (logits0 logits1 : Int × Int)
    (chunk0 chunk1 : List R) : Option (List R) :=
  let promptLength : Int := totalLength - responseLength
  if chunk0.length = 0 ∧ chunk1.length = 0 then zeroTensor responseLength
  else if chunk0.length ≠ 0 ∧ chunk1.length = 0 then do
    let left ← zeroTensor (logits0.1 - (promptLength - 1))
    let right ← zeroTensor ((totalLength : Int) - 1 - logits0.2)
    return left ++ chunk0 ++ right
  else if chunk0.length = 0 ∧ chunk1.length ≠ 0 then do
    let left ← zeroTensor (logits1.1 - (promptLength - 1))
    let right ← zeroTensor ((totalLength : Int) - 1 - logits1.2)
    return left ++ chunk1 ++ right
  else do
    let left ← zeroTensor (logits0.1 - (promptLength - 1))
    let mid ← zeroTensor (logits1.1 - logits0.2)
    let right ← zeroTensor ((totalLength : Int) - 1 - logits1.2)
    return left ++ chunk0 ++ mid ++ chunk1 ++ right

/-- The `full_tensor` of a rank: what it has, with zeros where the other ranks have something. -/
def fullTensor (cpRank : Fin cpSize) (tensor : List R) (totalLength responseLength : Nat) :
    Option (List R) := do
  let offsets ← getLogitsAndTokensOffsetWithCp cpRank totalLength responseLength .thd none
  let logits0 := offsets.logits.1
  let logits1 := offsets.logits.2
  let chunk0 := pySlice tensor 0 (logits0.2 - logits0.1)
  let chunk1 := pySlice tensor (logits0.2 - logits0.1) tensor.length
  guard ((chunk1.length : Int) = logits1.2 - logits1.1)
  let full ← placeChunks totalLength responseLength logits0 logits1 chunk0 chunk1
  guard (full.length = responseLength)
  return full

/-- `all_reduce`, the sum of the tensors of all ranks. -/
def allReduce (length : Nat) (tensors : Fin cpSize → List R) : List R :=
  (List.range length).map fun i => ∑ cpRank, (tensors cpRank).getD i 0

/-- `all_gather_with_cp` as the ranks of a group run it: what rank `cpRank` gets, where each rank
comes with its own tensor. -/
def allGatherWithCp (cpRank : Fin cpSize) (tensors : Fin cpSize → List R)
    (totalLength responseLength : Nat) : Option (List R) :=
  if cpSize = 1 then some (tensors cpRank)
  else do
    let full ← (List.finRange cpSize).mapM fun rank =>
      fullTensor rank (tensors rank) totalLength responseLength
    return allReduce responseLength fun rank : Fin cpSize => full.getD rank []

end

/-! `get_sum_of_sample_mean` -/

section

variable {cpSize : Nat} {K : Type} [Field K] [LinearOrder K]

/-- What the means of a sample are taken of. -/
structure MaskedSample (K : Type) where
  totalLength : Nat
  responseLength : Nat
  lossMask : List K
  maxSeqLen : Option Nat

/-- The mask of the response tokens that a rank has. -/
def chunkedLossMask (cpRank : Fin cpSize) (qkvFormat : QkvFormat) (s : MaskedSample K) :
    Option (List K) := do
  let promptLength : Int := s.totalLength - s.responseLength
  let offsets ← getLogitsAndTokensOffsetWithCp cpRank s.totalLength s.responseLength qkvFormat
    s.maxSeqLen
  let mask := fun tokens : Int × Int =>
    pySlice s.lossMask (tokens.1 - promptLength) (tokens.2 - promptLength)
  return mask offsets.tokens.1 ++ mask offsets.tokens.2

/-- The masks of the samples that a rank multiplies with. -/
def localMasks (cpRank : Fin cpSize) (qkvFormat : QkvFormat) (samples : List (MaskedSample K)) :
    Option (List (List K)) :=
  if cpSize = 1 then some (samples.map (·.lossMask))
  else samples.mapM (chunkedLossMask cpRank qkvFormat)

/-- `x.split(lengths)`, which raises where the lengths do not add up. -/
def splitBy (lengths : List Nat) (x : List K) : Option (List (List K)) :=
  if lengths.sum = x.length then some (cutBy lengths x) else none

/-- `(x * mask).sum()`. -/
def maskedSum (x mask : List K) : Option K :=
  if x.length = mask.length then some (List.zipWith (· * ·) x mask).sum else none

/-- The function that `get_sum_of_sample_mean` returns, on the concatenated values of the samples
that a rank has. -/
def sumOfSampleMean (cpRank : Fin cpSize) (samples : List (MaskedSample K))
    (calculatePerTokenLoss : Bool) (qkvFormat : QkvFormat) (x : List K) : Option K := do
  let masks ← localMasks cpRank qkvFormat samples
  let lengths :=
    if cpSize = 1 then samples.map (·.responseLength) else masks.map List.length
  let parts ← splitBy lengths x
  let sums ← (parts.zip masks).mapM fun p => maskedSum p.1 p.2
  if calculatePerTokenLoss then return sums.sum
  else
    return (List.zipWith (fun total (s : MaskedSample K) => total / max s.lossMask.sum 1)
      sums samples).sum

end

end Belayer.Train
