import Belayer.Train.CpGather
import Mathlib.Algebra.BigOperators.Field

namespace Belayer.Train

open Belayer.Framework

/-! The means that the ranks take of their slices add up to the mean of the samples. -/

variable {cpSize : Nat} {cpRank : Fin cpSize} {qkvFormat : QkvFormat} {K : Type}

/-- What a batch promises of a sample: a prompt, and one mask value for each token of the
response. -/
structure MaskedSample.WellFormed (qkvFormat : QkvFormat) (s : MaskedSample K) : Prop where
  prompt : s.responseLength < s.totalLength
  mask : s.lossMask.length = s.responseLength
  fits : FitsFormat qkvFormat s.totalLength s.maxSeqLen

/-- The mask of the tokens that the logits of a chunk predict. -/
theorem pySlice_tokensOffset {l : List K} {totalLength responseLength : Nat}
    (hl : l.length = responseLength) (hprompt : responseLength < totalLength) (c i : Nat) :
    let promptLength : Int := totalLength - responseLength
    let tokens := tokensOffset (logitsOffset totalLength promptLength (chunkRange c i))
    pySlice l (tokens.1 - promptLength) (tokens.2 - promptLength) =
      chunkAt c (totalLength - responseLength - 1) i l := by
  intro promptLength tokens
  rcases chunk_cases hl hprompt c i with
    ⟨a, b, hlogits, hab, hb, hin, hchunk⟩ | ⟨hlogits, hout, hchunk⟩
  · have hlt : (a : Int) + (totalLength - responseLength - 1 : Nat) <
        (b : Int) + (totalLength - responseLength - 1 : Nat) := by omega
    have ha : tokens.1 - promptLength = a := by
      simp only [tokens, promptLength, hlogits, tokensOffset, hlt, if_true]
      omega
    have hb' : tokens.2 - promptLength = b := by
      simp only [tokens, promptLength, hlogits, tokensOffset, hlt, if_true]
      omega
    rw [ha, hb', hchunk, pySlice_natCast]
  · simp only [tokens, promptLength, hlogits, tokensOffset, lt_irrefl, if_false]
    rw [pySlice_self, hchunk]

/-- What a rank has of the values of a sample. -/
def MaskedSample.shard (s : MaskedSample K) (cpRank : Fin cpSize) (qkvFormat : QkvFormat)
    (x : List K) : List K :=
  cpShard cpRank s.totalLength s.responseLength qkvFormat s.maxSeqLen x

theorem chunkedLossMask_eq (hcp : 1 < cpSize) {s : MaskedSample K} (hs : s.WellFormed qkvFormat) :
    chunkedLossMask cpRank qkvFormat s = some (s.shard cpRank qkvFormat s.lossMask) := by
  obtain ⟨c, hc, -⟩ := exists_formatChunkSize (show 0 < cpSize by omega) hs.fits
  have h0 := pySlice_tokensOffset hs.mask hs.prompt c cpRank
  have h1 := pySlice_tokensOffset hs.mask hs.prompt c (2 * cpSize - 1 - cpRank)
  rw [MaskedSample.shard, cpShard_of_lt hcp hc, zigzag, ← h0, ← h1]
  simp only [chunkedLossMask, offsets_eq hcp hc, cpChunks_eq]
  rfl

variable (cpRank) in
/-- The masks that a rank multiplies with. -/
theorem localMasks_eq {samples : List (MaskedSample K)}
    (h : ∀ s ∈ samples, s.WellFormed qkvFormat) :
    localMasks cpRank qkvFormat samples =
      some (samples.map fun s => s.shard cpRank qkvFormat s.lossMask) := by
  unfold localMasks
  have hpos := Nat.zero_lt_of_lt cpRank.isLt
  by_cases hone : cpSize = 1
  · simp [hone, MaskedSample.shard, cpShard]
  · rw [if_neg hone, mapM_eq_some_iff, List.map_map]
    apply List.map_congr_left
    intro s hs
    exact chunkedLossMask_eq (by omega) (h s hs)

variable [Field K] [LinearOrder K]

/-- What a rank adds up for a sample. -/
def localSum (cpRank : Fin cpSize) (qkvFormat : QkvFormat) (p : List K × MaskedSample K) : K :=
  (List.zipWith (· * ·) (p.2.shard cpRank qkvFormat p.1)
    (p.2.shard cpRank qkvFormat p.2.lossMask)).sum

/-- What a rank computes of a sample. -/
def localMean (cpRank : Fin cpSize) (calculatePerTokenLoss : Bool) (qkvFormat : QkvFormat)
    (p : List K × MaskedSample K) : K :=
  if calculatePerTokenLoss then localSum cpRank qkvFormat p
  else localSum cpRank qkvFormat p / max p.2.lossMask.sum 1

omit [Field K] [LinearOrder K] in
theorem length_shard {p : List K × MaskedSample K} (hp : p.2.WellFormed qkvFormat)
    (hx : p.1.length = p.2.responseLength) :
    (p.2.shard cpRank qkvFormat p.1).length = (p.2.shard cpRank qkvFormat p.2.lossMask).length :=
  length_cpShard_eq (hx.trans hp.mask.symm)

variable {samples : List (List K × MaskedSample K)} {calculatePerTokenLoss : Bool}

omit [Field K] [LinearOrder K] in
/-- The lengths that a rank splits its values at are those of its slices. -/
theorem lengths_eq (h : ∀ p ∈ samples, p.2.WellFormed qkvFormat)
    (hx : ∀ p ∈ samples, p.1.length = p.2.responseLength) :
    (if cpSize = 1 then (samples.map Prod.snd).map (·.responseLength)
      else ((samples.map Prod.snd).map fun s =>
        s.shard cpRank qkvFormat s.lossMask).map List.length) =
      (samples.map fun p => p.2.shard cpRank qkvFormat p.1).map List.length := by
  split_ifs with hone
  · simp only [List.map_map]
    apply List.map_congr_left
    intro p hp
    simp [MaskedSample.shard, cpShard, hone, hx p hp]
  · simp only [List.map_map]
    apply List.map_congr_left
    intro p hp
    exact (length_shard (h p hp) (hx p hp)).symm

variable (cpRank calculatePerTokenLoss) in
/-- The slices of a rank give what it computes of each sample. -/
theorem sumOfSampleMean_shards (h : ∀ p ∈ samples, p.2.WellFormed qkvFormat)
    (hx : ∀ p ∈ samples, p.1.length = p.2.responseLength) :
    sumOfSampleMean cpRank (samples.map Prod.snd) calculatePerTokenLoss qkvFormat
        (samples.map fun p => p.2.shard cpRank qkvFormat p.1).flatten =
      some (samples.map (localMean cpRank calculatePerTokenLoss qkvFormat)).sum := by
  have hsamples : ∀ s ∈ samples.map Prod.snd, s.WellFormed qkvFormat := by
    intro s hs
    obtain ⟨p, hp, rfl⟩ := List.mem_map.mp hs
    exact h p hp
  have hmasks := localMasks_eq cpRank hsamples
  have hsplit : splitBy ((samples.map fun p => p.2.shard cpRank qkvFormat p.1).map List.length)
      (samples.map fun p => p.2.shard cpRank qkvFormat p.1).flatten =
        some (samples.map fun p => p.2.shard cpRank qkvFormat p.1) := by
    rw [splitBy, if_pos (List.length_flatten).symm, cutBy_flatten]
  have hzip : (samples.map fun p => p.2.shard cpRank qkvFormat p.1).zip
      ((samples.map Prod.snd).map fun s => s.shard cpRank qkvFormat s.lossMask) =
        samples.map fun p =>
          (p.2.shard cpRank qkvFormat p.1, p.2.shard cpRank qkvFormat p.2.lossMask) := by
    rw [List.map_map, List.zip_map']
    rfl
  have hsums : (samples.map fun p =>
      (p.2.shard cpRank qkvFormat p.1, p.2.shard cpRank qkvFormat p.2.lossMask)).mapM
        (fun p => maskedSum p.1 p.2) = some (samples.map (localSum cpRank qkvFormat)) := by
    rw [mapM_eq_some_iff, List.map_map, List.map_map]
    apply List.map_congr_left
    intro p hp
    simp [maskedSum, localSum, length_shard (h p hp) (hx p hp)]
  simp only [sumOfSampleMean, hmasks, Option.bind_eq_bind, Option.bind_some, lengths_eq h hx,
    hsplit, hzip, hsums]
  cases calculatePerTokenLoss with
  | true =>
    have hmean : localMean cpRank true qkvFormat = localSum cpRank (K := K) qkvFormat :=
      funext fun p => if_pos rfl
    simp [hmean]
  | false =>
    have hmean : localMean cpRank false qkvFormat = fun p : List K × MaskedSample K =>
        localSum cpRank qkvFormat p / max p.2.lossMask.sum 1 :=
      funext fun p => if_neg Bool.false_ne_true
    simp [hmean, List.zipWith_map, List.zipWith_self]

omit [LinearOrder K] in
theorem sum_localSum (hcp : 0 < cpSize) {p : List K × MaskedSample K}
    (hp : p.2.WellFormed qkvFormat) (hx : p.1.length = p.2.responseLength) :
    ∑ cpRank : Fin cpSize, localSum cpRank qkvFormat p =
      (List.zipWith (· * ·) p.1 p.2.lossMask).sum := by
  have hlen : p.1.length = p.2.lossMask.length := hx.trans hp.mask.symm
  have hmul : (List.zipWith (· * ·) p.1 p.2.lossMask).length = p.2.responseLength := by
    simp [hx, hp.mask]
  rw [← sum_sum_cpShard hcp hmul hp.prompt hp.fits]
  apply Finset.sum_congr rfl
  intro cpRank _
  rw [localSum, cpShard_zipWith _ hlen]
  rfl

theorem sum_localMean (hcp : 0 < cpSize) {p : List K × MaskedSample K}
    (hp : p.2.WellFormed qkvFormat) (hx : p.1.length = p.2.responseLength) :
    ∑ cpRank : Fin cpSize, localMean cpRank calculatePerTokenLoss qkvFormat p =
      localMean (0 : Fin 1) calculatePerTokenLoss qkvFormat p := by
  have hone : localSum (0 : Fin 1) qkvFormat p = (List.zipWith (· * ·) p.1 p.2.lossMask).sum := by
    simp [localSum, MaskedSample.shard, cpShard]
  cases calculatePerTokenLoss with
  | true => simp [localMean, hone, sum_localSum hcp hp hx]
  | false => simp [localMean, hone, ← Finset.sum_div, sum_localSum hcp hp hx]

theorem sum_list_sum {α M : Type} [AddCommMonoid M] (f : Fin cpSize → α → M) (l : List α) :
    ∑ r, (l.map (f r)).sum = (l.map fun a => ∑ r, f r a).sum := by
  induction l with
  | nil => simp
  | cons a l ih => simp [Finset.sum_add_distrib, ih]

/-- The means that the ranks take of their slices add up to what one rank takes of everything. -/
theorem sum_sumOfSampleMean (hcp : 0 < cpSize) (h : ∀ p ∈ samples, p.2.WellFormed qkvFormat)
    (hx : ∀ p ∈ samples, p.1.length = p.2.responseLength) :
    ∃ (shards : Fin cpSize → List (List K)) (means : Fin cpSize → K),
      (∀ cpRank, samples.mapM (fun p => sliceLogProbWithCp cpRank p.1 p.2.totalLength
        p.2.responseLength qkvFormat p.2.maxSeqLen) = some (shards cpRank)) ∧
      (∀ cpRank, sumOfSampleMean cpRank (samples.map Prod.snd) calculatePerTokenLoss qkvFormat
        (shards cpRank).flatten = some (means cpRank)) ∧
      sumOfSampleMean (0 : Fin 1) (samples.map Prod.snd) calculatePerTokenLoss qkvFormat
        (samples.map Prod.fst).flatten = some (∑ cpRank, means cpRank) := by
  refine ⟨fun cpRank => samples.map fun p => p.2.shard cpRank qkvFormat p.1,
    fun cpRank => (samples.map (localMean cpRank calculatePerTokenLoss qkvFormat)).sum, ?_, ?_, ?_⟩
  · intro cpRank
    rw [mapM_eq_some_iff, List.map_map]
    apply List.map_congr_left
    intro p hp
    exact sliceLogProbWithCp_eq_cpShard (hx p hp) (h p hp).prompt (h p hp).fits
  · intro cpRank
    exact sumOfSampleMean_shards cpRank calculatePerTokenLoss h hx
  · have hplain := sumOfSampleMean_shards (0 : Fin 1) calculatePerTokenLoss h hx
    have hshards : (samples.map fun p => p.2.shard (0 : Fin 1) qkvFormat p.1) =
        samples.map Prod.fst := by
      apply List.map_congr_left
      intro p _
      simp [MaskedSample.shard, cpShard]
    rw [hshards] at hplain
    rw [hplain, sum_list_sum]
    congr 2
    apply List.map_congr_left
    intro p hp
    exact (sum_localMean hcp (h p hp) (hx p hp)).symm

/-- A sample of five tokens with a response of three, of which one does not count. -/
def maskedResponse : List ℚ × MaskedSample ℚ := ([1, 2, 3], ⟨5, 3, [1, 0, 1], none⟩)

theorem sum_sumOfSampleMean_maskedResponse :
    ∃ (shards : Fin 2 → List (List ℚ)) (means : Fin 2 → ℚ),
      (∀ cpRank, [maskedResponse].mapM (fun p => sliceLogProbWithCp cpRank p.1 p.2.totalLength
        p.2.responseLength .thd p.2.maxSeqLen) = some (shards cpRank)) ∧
      (∀ cpRank, sumOfSampleMean cpRank [maskedResponse.2] false .thd (shards cpRank).flatten =
        some (means cpRank)) ∧
      sumOfSampleMean (0 : Fin 1) [maskedResponse.2] false .thd [1, 2, 3] =
        some (∑ cpRank, means cpRank) := by
  have hsample : ∀ p ∈ [maskedResponse], p.2.WellFormed .thd := by
    intro p hp
    obtain rfl := List.mem_singleton.mp hp
    exact ⟨by decide, rfl, fun h => by cases h⟩
  have hlength : ∀ p ∈ [maskedResponse], p.1.length = p.2.responseLength := by
    intro p hp
    obtain rfl := List.mem_singleton.mp hp
    rfl
  exact sum_sumOfSampleMean (by decide) hsample hlength

end Belayer.Train
