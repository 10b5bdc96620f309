import Belayer.Framework.Traverse
import Belayer.Train.CpUtils
import Mathlib.Algebra.BigOperators.Fin

namespace Belayer.Train

open Belayer.Framework

variable {cpSize : Nat} {cpRank : Fin cpSize} {totalLength responseLength c : Nat}
  {qkvFormat : QkvFormat} {maxSeqLen : Option Nat} {α : Type}

theorem le_mul_cpChunkSize (h : 0 < cpSize) (n : Nat) : n ≤ 2 * cpSize * cpChunkSize cpSize n := by
  have hdiv := Nat.div_add_mod (n + 2 * cpSize - 1) (2 * cpSize)
  have hmod := Nat.mod_lt (n + 2 * cpSize - 1) (by omega : 0 < 2 * cpSize)
  unfold cpChunkSize
  omega

/-- Sequences are not longer than what they are padded to. -/
def FitsFormat (qkvFormat : QkvFormat) (totalLength : Nat) (maxSeqLen : Option Nat) : Prop :=
  qkvFormat = .bshd → ∃ m ∈ maxSeqLen, totalLength ≤ m

theorem fitsFormat_thd (totalLength : Nat) (maxSeqLen : Option Nat) :
    FitsFormat .thd totalLength maxSeqLen := fun h => by cases h

/-- The chunks of a sequence cover it. -/
theorem exists_formatChunkSize (h : 0 < cpSize) (hfits : FitsFormat qkvFormat totalLength maxSeqLen) :
    ∃ c, formatChunkSize cpSize totalLength qkvFormat maxSeqLen = some c ∧
      totalLength ≤ 2 * cpSize * c := by
  cases qkvFormat with
  | thd => exact ⟨_, rfl, le_mul_cpChunkSize h totalLength⟩
  | bshd =>
    obtain ⟨m, hm, hle⟩ := hfits rfl
    obtain rfl := Option.mem_def.mp hm
    exact ⟨_, rfl, hle.trans (le_mul_cpChunkSize h m)⟩

theorem offsets_eq (hcp : 1 < cpSize)
    (hc : formatChunkSize cpSize totalLength qkvFormat maxSeqLen = some c) :
    getLogitsAndTokensOffsetWithCp cpRank totalLength responseLength qkvFormat maxSeqLen =
      let promptLength : Int := totalLength - responseLength
      let chunks := cpChunks cpRank c
      let logits := (logitsOffset totalLength promptLength chunks.1,
        logitsOffset totalLength promptLength chunks.2)
      some ⟨c, chunks, logits, (tokensOffset logits.1, tokensOffset logits.2)⟩ := by
  simp [getLogitsAndTokensOffsetWithCp, hcp, hc, guard]

/-! ### The response in chunks

The first logits of the response are those of the last token of the prompt. -/

/-- A place lies in the `i`-th chunk. -/
def InChunk (c i p : Nat) : Prop := i * c ≤ p ∧ p < (i + 1) * c

instance (c i p : Nat) : Decidable (InChunk c i p) := inferInstanceAs (Decidable (_ ∧ _))

theorem inChunk_iff (hc : 0 < c) {i p : Nat} : InChunk c i p ↔ i = p / c := by
  rw [eq_comm, Nat.div_eq_iff hc, InChunk]
  have : (i + 1) * c = i * c + c := Nat.succ_mul i c
  omega

/-- The `i`-th chunk as the source writes it. -/
def chunkRange (c i : Nat) : Int × Int := ((i * c : Nat), ((i + 1) * c : Nat))

theorem cpChunks_eq (cpRank : Fin cpSize) (c : Nat) :
    cpChunks cpRank c = (chunkRange c cpRank, chunkRange c (2 * cpSize - 1 - cpRank)) := by
  have hrank := cpRank.isLt
  have h1 : 2 * cpSize - cpRank.val - 1 = 2 * cpSize - 1 - cpRank.val := by omega
  have h2 : 2 * cpSize - cpRank.val = 2 * cpSize - 1 - cpRank.val + 1 := by omega
  simp only [cpChunks, chunkRange]
  rw [h1, h2]

/-- The logits of a chunk, counted from the first one of the response on. -/
theorem logitsOffset_range (hprompt : responseLength < totalLength) (lo hi : Nat) :
    let s := totalLength - responseLength - 1
    (∃ a b : Nat, logitsOffset totalLength ((totalLength : Int) - responseLength) (lo, hi) =
        ((a : Int) + s, (b : Int) + s) ∧
        a < b ∧ b ≤ responseLength ∧
        ∀ j < responseLength, (lo ≤ s + j ∧ s + j < hi ↔ a ≤ j ∧ j < b)) ∨
      logitsOffset totalLength ((totalLength : Int) - responseLength) (lo, hi) = (0, 0) ∧
        ∀ j < responseLength, ¬(lo ≤ s + j ∧ s + j < hi) := by
  intro s
  simp only [logitsOffset]
  by_cases hlt : max (lo : Int) ((totalLength : Int) - responseLength - 1) <
      min (hi : Int) ((totalLength : Int) - 1)
  · left
    refine ⟨lo - s, min hi (totalLength - 1) - s, ?_, by omega, by omega, ?_⟩
    · rw [if_pos hlt, Prod.mk.injEq]
      omega
    · intro j hj
      omega
  · right
    rw [if_neg hlt]
    refine ⟨rfl, ?_⟩
    intro j hj
    omega

theorem logitsOffset_eq (hprompt : responseLength < totalLength) (c i : Nat) :
    let s := totalLength - responseLength - 1
    (∃ a b : Nat,
        logitsOffset totalLength ((totalLength : Int) - responseLength) (chunkRange c i) =
          ((a : Int) + s, (b : Int) + s) ∧
        a < b ∧ b ≤ responseLength ∧
        ∀ j < responseLength, (InChunk c i (s + j) ↔ a ≤ j ∧ j < b)) ∨
      logitsOffset totalLength ((totalLength : Int) - responseLength) (chunkRange c i) = (0, 0) ∧
        ∀ j < responseLength, ¬InChunk c i (s + j) :=
  logitsOffset_range hprompt (i * c) ((i + 1) * c)

theorem chunkAt_eq_window {l : List α} {s i a b : Nat}
    (h : ∀ j < l.length, (InChunk c i (s + j) ↔ a ≤ j ∧ j < b)) :
    chunkAt c s i l = window l a b := by
  apply window_congr
  intro j hj
  rw [← h j hj, InChunk]
  omega

theorem chunkAt_eq_nil {l : List α} {s i : Nat} (h : ∀ j < l.length, ¬InChunk c i (s + j)) :
    chunkAt c s i l = [] := by
  have hwindow : chunkAt c s i l = window l 0 0 := by
    apply chunkAt_eq_window
    intro j hj
    simp [h j hj]
  rw [hwindow, window_eq_nil (Or.inl le_rfl)]

/-- A chunk has the logits of the response from one place to another, or none. -/
theorem chunk_cases {l : List α} (hl : l.length = responseLength)
    (hprompt : responseLength < totalLength) (c i : Nat) :
    let s := totalLength - responseLength - 1
    let logits := logitsOffset totalLength ((totalLength : Int) - responseLength) (chunkRange c i)
    (∃ a b : Nat, logits = ((a : Int) + s, (b : Int) + s) ∧ a < b ∧ b ≤ responseLength ∧
        (∀ j < responseLength, (InChunk c i (s + j) ↔ a ≤ j ∧ j < b)) ∧
        chunkAt c s i l = window l a b) ∨
      logits = (0, 0) ∧ (∀ j < responseLength, ¬InChunk c i (s + j)) ∧ chunkAt c s i l = [] := by
  subst hl
  rcases logitsOffset_eq hprompt c i with ⟨a, b, hlogits, hab, hb, hin⟩ | ⟨hlogits, hout⟩
  · exact Or.inl ⟨a, b, hlogits, hab, hb, hin, chunkAt_eq_window hin⟩
  · exact Or.inr ⟨hlogits, hout, chunkAt_eq_nil hout⟩

/-- The part of the response whose logits lie in a chunk. -/
theorem pySlice_logitsOffset {l : List α} (hl : l.length = responseLength)
    (hprompt : responseLength < totalLength) (c i : Nat) :
    let logits := logitsOffset totalLength ((totalLength : Int) - responseLength) (chunkRange c i)
    pySlice l (logits.1 - ((totalLength : Int) - responseLength - 1))
        (logits.2 - ((totalLength : Int) - responseLength - 1)) =
      chunkAt c (totalLength - responseLength - 1) i l := by
  intro logits
  rcases chunk_cases hl hprompt c i with
    ⟨a, b, hlogits, hab, hb, hin, hchunk⟩ | ⟨hlogits, hout, hchunk⟩
  · have ha : logits.1 - ((totalLength : Int) - responseLength - 1) = a := by
      simp only [logits, hlogits]
      omega
    have hb' : logits.2 - ((totalLength : Int) - responseLength - 1) = b := by
      simp only [logits, hlogits]
      omega
    rw [ha, hb', hchunk, pySlice_natCast]
  · simp only [logits, hlogits]
    rw [pySlice_self, hchunk]

/-- A rank slices out the logits of its two chunks. -/
theorem sliceLogProbWithCp_eq (hcp : 1 < cpSize) {l : List α} (hl : l.length = responseLength)
    (hprompt : responseLength < totalLength)
    (hc : formatChunkSize cpSize totalLength qkvFormat maxSeqLen = some c) :
    sliceLogProbWithCp cpRank l totalLength responseLength qkvFormat maxSeqLen =
      some (zigzag cpSize c (totalLength - responseLength - 1) cpRank l) := by
  have hne : cpSize ≠ 1 := by omega
  have h0 := pySlice_logitsOffset hl hprompt c cpRank
  have h1 := pySlice_logitsOffset hl hprompt c (2 * cpSize - 1 - cpRank)
  simp only [sliceLogProbWithCp, offsets_eq hcp hc, cpChunks_eq, hl, hne, guard]
  simp only [zigzag, ← h0, ← h1]
  rfl

/-- What a rank has of a response. -/
def cpShard (cpRank : Fin cpSize) (totalLength responseLength : Nat) (qkvFormat : QkvFormat)
    (maxSeqLen : Option Nat) (l : List α) : List α :=
  if cpSize = 1 then l
  else
    zigzag cpSize ((formatChunkSize cpSize totalLength qkvFormat maxSeqLen).getD 0)
      (totalLength - responseLength - 1) cpRank l

theorem cpShard_of_lt (hcp : 1 < cpSize)
    (hc : formatChunkSize cpSize totalLength qkvFormat maxSeqLen = some c) (l : List α) :
    cpShard cpRank totalLength responseLength qkvFormat maxSeqLen l =
      zigzag cpSize c (totalLength - responseLength - 1) cpRank l := by
  have hne : cpSize ≠ 1 := by omega
  simp [cpShard, hne, hc]

theorem sliceLogProbWithCp_eq_cpShard {l : List α} (hl : l.length = responseLength)
    (hprompt : responseLength < totalLength) (hfits : FitsFormat qkvFormat totalLength maxSeqLen) :
    sliceLogProbWithCp cpRank l totalLength responseLength qkvFormat maxSeqLen =
      some (cpShard cpRank totalLength responseLength qkvFormat maxSeqLen l) := by
  have hpos := Nat.zero_lt_of_lt cpRank.isLt
  by_cases hone : cpSize = 1
  · simp [sliceLogProbWithCp, cpShard, hone, hl, guard]
  · obtain ⟨c, hc, -⟩ := exists_formatChunkSize hpos hfits
    have hlt : 1 < cpSize := by omega
    rw [sliceLogProbWithCp_eq hlt hl hprompt hc, cpShard_of_lt hlt hc]

section Shards

variable {β γ : Type}

@[simp] theorem cpShard_map (f : α → β) (l : List α) :
    cpShard cpRank totalLength responseLength qkvFormat maxSeqLen (l.map f) =
      (cpShard cpRank totalLength responseLength qkvFormat maxSeqLen l).map f := by
  unfold cpShard
  split_ifs <;> simp

theorem cpShard_zipWith (f : α → β → γ) {l : List α} {m : List β} (h : l.length = m.length) :
    cpShard cpRank totalLength responseLength qkvFormat maxSeqLen (List.zipWith f l m) =
      List.zipWith f (cpShard cpRank totalLength responseLength qkvFormat maxSeqLen l)
        (cpShard cpRank totalLength responseLength qkvFormat maxSeqLen m) := by
  unfold cpShard
  split_ifs
  · rfl
  · exact zigzag_zipWith f h

theorem length_cpShard_eq {l : List α} {m : List β} (h : l.length = m.length) :
    (cpShard cpRank totalLength responseLength qkvFormat maxSeqLen l).length =
      (cpShard cpRank totalLength responseLength qkvFormat maxSeqLen m).length := by
  unfold cpShard
  split_ifs
  · exact h
  · exact length_zigzag_eq h

/-- What the ranks have of a response adds up to the whole. -/
theorem sum_sum_cpShard {M : Type} [AddCommMonoid M] (hcp : 0 < cpSize) {l : List M}
    (hl : l.length = responseLength) (hprompt : responseLength < totalLength)
    (hfits : FitsFormat qkvFormat totalLength maxSeqLen) :
    ∑ cpRank : Fin cpSize,
      (cpShard cpRank totalLength responseLength qkvFormat maxSeqLen l).sum = l.sum := by
  by_cases hone : cpSize = 1
  · subst hone
    simp only [cpShard, if_true]
    rw [Fin.sum_univ_one]
  · obtain ⟨c, hc, hcover⟩ := exists_formatChunkSize hcp hfits
    have hlt : 1 < cpSize := by omega
    simp only [cpShard_of_lt hlt hc]
    rw [Fin.sum_univ_eq_sum_range fun r =>
      (zigzag cpSize c (totalLength - responseLength - 1) r l).sum]
    exact sum_sum_zigzag (by omega)

end Shards

/-! ### Gathering -/

section Gather

variable {R : Type} [AddCommMonoid R]

theorem zeroTensor_eq (n : Nat) {length : Int} (h : length = n) :
    (zeroTensor length : Option (List R)) = some (List.replicate n 0) := by
  subst h
  simp [zeroTensor]

/-- The elements of a list that lie in a chunk, and zeros elsewhere. -/
def inPlace (c s i : Nat) (l : List R) (j : Nat) : R :=
  if InChunk c i (s + j) then l.getD j 0 else 0

theorem getD_pad (l : List R) {a b : Nat} (hab : a ≤ b) (hb : b ≤ l.length) (n j : Nat) :
    (List.replicate a 0 ++ window l a b ++ List.replicate n 0).getD j 0 =
      if a ≤ j ∧ j < b then l.getD j 0 else 0 := by
  have hlen : (window l a b).length = b - a := by
    rw [length_window]
    omega
  simp only [List.getD_eq_getElem?_getD, List.getElem?_append, List.length_append,
    List.length_replicate, hlen, getElem?_window, List.getElem?_replicate]
  split_ifs <;> first
    | rfl
    | (exfalso; omega)
    | (congr 2; omega)

theorem getD_pad_two (l : List R) {a b a' b' : Nat} (hab : a ≤ b) (hba : b ≤ a') (hab' : a' ≤ b')
    (hb : b' ≤ l.length) (n j : Nat) :
    (List.replicate a 0 ++ window l a b ++ List.replicate (a' - b) 0 ++ window l a' b' ++
        List.replicate n 0).getD j 0 =
      (if a ≤ j ∧ j < b then l.getD j 0 else 0) +
        if a' ≤ j ∧ j < b' then l.getD j 0 else 0 := by
  have hlen : (window l a b).length = b - a := by
    rw [length_window]
    omega
  have hlen' : (window l a' b').length = b' - a' := by
    rw [length_window]
    omega
  simp only [List.getD_eq_getElem?_getD, List.getElem?_append, List.length_append,
    List.length_replicate, hlen, hlen', getElem?_window, List.getElem?_replicate]
  split_ifs <;> first
    | (exfalso; omega)
    | (simp; done)
    | (simp only [add_zero, zero_add]; congr 2; omega)

theorem pySlice_append_left (l m : List α) {k : Int} (hk : k = l.length) :
    pySlice (l ++ m) 0 k = l := by
  have hwindow := pySlice_natCast (l ++ m) 0 l.length
  rw [hk]
  exact hwindow.trans (List.take_left ..)

theorem pySlice_append_right (l m : List α) {k : Int} (hk : k = l.length) :
    pySlice (l ++ m) k (l ++ m).length = m := by
  rw [hk, pySlice_natCast, window, List.take_length, List.drop_left]

theorem length_chunkAt {l : List α} (hl : l.length = responseLength)
    (hprompt : responseLength < totalLength) (c i : Nat) :
    let logits := logitsOffset totalLength ((totalLength : Int) - responseLength) (chunkRange c i)
    logits.2 - logits.1 = (chunkAt c (totalLength - responseLength - 1) i l).length := by
  intro logits
  rcases chunk_cases hl hprompt c i with
    ⟨a, b, hlogits, hab, hb, hin, hchunk⟩ | ⟨hlogits, hout, hchunk⟩
  · rw [hchunk, length_window]
    simp only [logits, hlogits]
    omega
  · simp [logits, hlogits, hchunk]

/-- Chunks that lie one behind the other go to their places. -/
theorem placeChunks_eq {l : List R} (hl : l.length = responseLength)
    (hprompt : responseLength < totalLength) {c i i' : Nat} (hi : i < i') :
    let s := totalLength - responseLength - 1
    let logits := fun i =>
      logitsOffset totalLength ((totalLength : Int) - responseLength) (chunkRange c i)
    ∃ full, placeChunks totalLength responseLength (logits i) (logits i') (chunkAt c s i l)
        (chunkAt c s i' l) = some full ∧ full.length = responseLength ∧
      ∀ j < responseLength, full.getD j 0 = inPlace c s i l j + inPlace c s i' l j := by
  intro s logits
  have hnext : (i + 1) * c ≤ i' * c := Nat.mul_le_mul_right c hi
  have hlen : ∀ {a b : Nat}, a < b → b ≤ responseLength → (window l a b).length = b - a := by
    intro a b hab hb
    rw [length_window]
    omega
  rcases chunk_cases hl hprompt c i with
    ⟨a, b, hlogits, hab, hb, hin, hchunk⟩ | ⟨hlogits, hout, hchunk⟩ <;>
  rcases chunk_cases hl hprompt c i' with
    ⟨a', b', hlogits', hab', hb', hin', hchunk'⟩ | ⟨hlogits', hout', hchunk'⟩
  · have hba : b ≤ a' := by
      have hlast := (hin (b - 1) (by omega)).mpr (by omega)
      have hfirst := (hin' a' (by omega)).mpr (by omega)
      unfold InChunk at hlast hfirst
      omega
    have hne : ¬(b - a = 0 ∧ b' - a' = 0) := by omega
    have hne' : ¬(b - a ≠ 0 ∧ b' - a' = 0) := by omega
    have hne'' : ¬(b - a = 0 ∧ b' - a' ≠ 0) := by omega
    refine ⟨List.replicate a 0 ++ window l a b ++ List.replicate (a' - b) 0 ++ window l a' b' ++
      List.replicate (responseLength - b') 0, ?_, ?_, ?_⟩
    · rw [placeChunks, hchunk, hchunk', hlen hab hb, hlen hab' hb', if_neg hne, if_neg hne',
        if_neg hne'']
      simp only [logits, hlogits, hlogits']
      rw [zeroTensor_eq a (by omega), zeroTensor_eq (a' - b) (by omega),
        zeroTensor_eq (responseLength - b') (by omega)]
      rfl
    · simp [hlen hab hb, hlen hab' hb']
      omega
    · intro j hj
      rw [getD_pad_two l hab.le hba hab'.le (hl ▸ hb')]
      simp only [inPlace, s, hin j hj, hin' j hj]
  · have hne : ¬(b - a = 0 ∧ 0 = 0) := by omega
    have hone : b - a ≠ 0 ∧ 0 = 0 := by omega
    refine ⟨List.replicate a 0 ++ window l a b ++ List.replicate (responseLength - b) 0, ?_, ?_, ?_⟩
    · rw [placeChunks, hchunk, hchunk', hlen hab hb, List.length_nil, if_neg hne, if_pos hone]
      simp only [logits, hlogits]
      rw [zeroTensor_eq a (by omega), zeroTensor_eq (responseLength - b) (by omega)]
      rfl
    · simp [hlen hab hb]
      omega
    · intro j hj
      rw [getD_pad l hab.le (hl ▸ hb)]
      simp only [inPlace, s, hin j hj, hout' j hj, if_false, add_zero]
  · have hne : ¬(0 = 0 ∧ b' - a' = 0) := by omega
    have hne' : ¬(0 ≠ 0 ∧ b' - a' = 0) := by omega
    have hone : 0 = 0 ∧ b' - a' ≠ 0 := by omega
    refine ⟨List.replicate a' 0 ++ window l a' b' ++ List.replicate (responseLength - b') 0,
      ?_, ?_, ?_⟩
    · rw [placeChunks, hchunk, hchunk', hlen hab' hb', List.length_nil, if_neg hne, if_neg hne',
        if_pos hone]
      simp only [logits, hlogits']
      rw [zeroTensor_eq a' (by omega), zeroTensor_eq (responseLength - b') (by omega)]
      rfl
    · simp [hlen hab' hb']
      omega
    · intro j hj
      rw [getD_pad l hab'.le (hl ▸ hb')]
      simp only [inPlace, s, hout j hj, hin' j hj, if_false, zero_add]
  · refine ⟨List.replicate responseLength 0, ?_, List.length_replicate, ?_⟩
    · rw [placeChunks, hchunk, hchunk', if_pos ⟨rfl, rfl⟩]
      exact zeroTensor_eq responseLength rfl
    · intro j hj
      simp [inPlace, s, hout j hj, hout' j hj, hj]

/-- The full tensor of a rank has the response at the places of its chunks. -/
theorem fullTensor_eq (hcp : 1 < cpSize) {l : List R} (hl : l.length = responseLength)
    (hprompt : responseLength < totalLength) (cpRank : Fin cpSize) :
    let c := cpChunkSize cpSize totalLength
    let s := totalLength - responseLength - 1
    ∃ full, fullTensor cpRank (zigzag cpSize c s cpRank l) totalLength responseLength = some full ∧
      ∀ j < responseLength,
        full.getD j 0 = inPlace c s cpRank l j + inPlace c s (2 * cpSize - 1 - cpRank) l j := by
  intro c s
  have hrank := cpRank.isLt
  have hoffsets : getLogitsAndTokensOffsetWithCp cpRank totalLength responseLength .thd none = _ :=
    offsets_eq hcp (show formatChunkSize cpSize totalLength .thd none = some c from rfl)
  rw [cpChunks_eq] at hoffsets
  obtain ⟨full, hfull, hlength, hgetD⟩ := placeChunks_eq hl hprompt (c := c)
    (show cpRank.val < 2 * cpSize - 1 - cpRank by omega)
  have hfirst := length_chunkAt hl hprompt c cpRank
  have hsecond := length_chunkAt hl hprompt c (2 * cpSize - 1 - cpRank)
  refine ⟨full, ?_, hgetD⟩
  have hleft := pySlice_append_left _ (chunkAt c s (2 * cpSize - 1 - cpRank) l) hfirst
  have hright := pySlice_append_right _ (chunkAt c s (2 * cpSize - 1 - cpRank) l) hfirst
  simp only [fullTensor, hoffsets, Option.bind_eq_bind, Option.bind_some, zigzag, hleft, hright,
    hsecond, s, hfull, hlength, guard, if_true]
  rfl

theorem mapM_finRange {f : Fin cpSize → Option α} {g : Fin cpSize → α} (h : ∀ i, f i = some (g i)) :
    (List.finRange cpSize).mapM f = some ((List.finRange cpSize).map g) := by
  rw [mapM_eq_some_iff, List.map_map]
  exact List.map_congr_left fun i _ => h i

/-- Every place of the response is in one chunk. -/
theorem sum_inPlace (hcp : 1 < cpSize) (l : List R)
    (hprompt : responseLength < totalLength) {j : Nat} (hj : j < responseLength) :
    let c := cpChunkSize cpSize totalLength
    let s := totalLength - responseLength - 1
    ∑ cpRank : Fin cpSize, (inPlace c s cpRank l j + inPlace c s (2 * cpSize - 1 - cpRank) l j) =
      l.getD j 0 := by
  intro c s
  have hcover : totalLength ≤ 2 * cpSize * c := le_mul_cpChunkSize (by omega) totalLength
  have hpos : 0 < c := by
    rcases Nat.eq_zero_or_pos c with hzero | hpos
    · rw [hzero] at hcover
      omega
    · exact hpos
  have hchunk : (s + j) / c ∈ Finset.range (2 * cpSize) := by
    rw [Finset.mem_range, Nat.div_lt_iff_lt_mul hpos]
    omega
  rw [Fin.sum_univ_eq_sum_range fun r => inPlace c s r l j + inPlace c s (2 * cpSize - 1 - r) l j,
    sum_zigzag_chunks cpSize fun i => inPlace c s i l j]
  simp only [inPlace, inChunk_iff hpos]
  rw [Finset.sum_ite_eq' , if_pos hchunk]

/-- The ranks that gather their slices of a response all get the response back. -/
theorem allGatherWithCp_cpShard {l : List R} (hl : l.length = responseLength)
    (hprompt : responseLength < totalLength) (cpRank : Fin cpSize) :
    allGatherWithCp cpRank (fun rank => cpShard rank totalLength responseLength .thd none l)
      totalLength responseLength = some l := by
  have hpos := Nat.zero_lt_of_lt cpRank.isLt
  by_cases hone : cpSize = 1
  · simp [allGatherWithCp, cpShard, hone]
  have hcp : 1 < cpSize := by omega
  choose full hfull hgetD using fullTensor_eq hcp hl hprompt
  have hall := mapM_finRange hfull
  have hrank : ∀ r : Fin cpSize, ((List.finRange cpSize).map full).getD r [] = full r := by
    intro r
    simp [List.getD_eq_getElem?_getD]
  have hreduce : allReduce responseLength full = l := by
    apply List.ext_getElem
    · simp [allReduce, hl]
    · intro j hj hj'
      have hj : j < responseLength := by simpa [allReduce] using hj
      have hsum := sum_inPlace hcp l hprompt hj
      simp only [allReduce, List.getElem_map, List.getElem_range]
      rw [Finset.sum_congr rfl fun r _ => hgetD r j hj, hsum, List.getD_eq_getElem]
  have hthd : formatChunkSize cpSize totalLength .thd none = some (cpChunkSize cpSize totalLength) :=
    rfl
  simp only [allGatherWithCp, hone, if_false, cpShard_of_lt hcp hthd, hall, Option.bind_eq_bind,
    Option.bind_some, hrank, hreduce]
  rfl

/-- The ranks that slice a response and gather their slices all get the response back. -/
theorem allGatherWithCp_sliceLogProbWithCp {l : List R} (hl : l.length = responseLength)
    (hprompt : responseLength < totalLength) :
    ∃ tensors : Fin cpSize → List R,
      (∀ cpRank, sliceLogProbWithCp cpRank l totalLength responseLength .thd none =
        some (tensors cpRank)) ∧
      ∀ cpRank, allGatherWithCp cpRank tensors totalLength responseLength = some l :=
  ⟨fun cpRank => cpShard cpRank totalLength responseLength .thd none l,
    fun _ => sliceLogProbWithCp_eq_cpShard hl hprompt (fitsFormat_thd totalLength none),
    allGatherWithCp_cpShard hl hprompt⟩

theorem allGatherWithCp_sliceLogProbWithCp_three :
    ∃ tensors : Fin 2 → List ℤ,
      (∀ cpRank, sliceLogProbWithCp cpRank [1, 2, 3] 5 3 .thd none = some (tensors cpRank)) ∧
      ∀ cpRank, allGatherWithCp cpRank tensors 5 3 = some [1, 2, 3] :=
  allGatherWithCp_sliceLogProbWithCp rfl (by decide)

end Gather

end Belayer.Train
