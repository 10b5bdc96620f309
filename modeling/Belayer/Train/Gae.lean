import Belayer.Framework.Memory
import Belayer.Framework.Recurrence

namespace Belayer.Train

open Belayer.Framework

/-! Generalized advantage estimation: every row of the batch goes through the same recurrence -/

variable {R : Type} [CommRing R]

/-- What an advantage adds to the ones behind it, where the value after the last step is 0. -/
def gaeDelta (rewards values : List R) (gamma : R) (t : Nat) : R :=
  let nextValue := if t < values.length - 1 then values.getD (t + 1) 0 else 0
  rewards.getD t 0 + gamma * nextValue - values.getD t 0

/-- `vanilla_gae` of a row: the advantages and the returns. -/
def vanillaGae (rewards values : List R) (gamma lambd : R) : List R × List R :=
  let step := fun (p : R × List R) t =>
    let lastgaelam := gaeDelta rewards values gamma t + gamma * lambd * p.1
    (lastgaelam, p.2 ++ [lastgaelam])
  let advRev := ((List.range values.length).reverse.foldl step (0, [])).2
  let advantages := advRev.reverse
  (advantages, List.zipWith (· + ·) advantages values)

section

variable [DecidableEq R]

/-- The kernel `M` of the scan within a chunk. -/
def scanKernel (w : R) (row col : Nat) : R :=
  if row ≤ col then
    if w = 0 then if col - row = 0 then 1 else 0
    else w ^ (col - row)
  else 0

/-- `deltas_chunk @ M`. -/
def scanChunk (w : R) (chunkSize : Nat) (chunk : List R) : List R :=
  (List.range chunkSize).map fun col =>
    ∑ row ∈ Finset.range chunkSize, chunk.getD row 0 * scanKernel w row col

def powVec (w : R) (chunkSize : Nat) : List R :=
  if w = 0 then List.replicate chunkSize 0
  else (List.range chunkSize).map fun t => w ^ (t + 1)

/-- The effective lengths of the chunks; the last chunk may be padded. -/
def chunkLengths (chunkSize numChunks pad : Nat) : List Nat :=
  let lengths := List.replicate numChunks chunkSize
  if 0 < pad then lengths.set (numChunks - 1) (chunkSize - pad) else lengths

/-- One round of the propagation between chunks, on `S_rev` and `s_prev`. -/
def propagateChunk (w : R) (chunkSize : Nat) (deltas : List R) (lengths : List Nat)
    (p : List R × R) (c : Nat) : List R × R :=
  let length := lengths.getD c 0
  let start := c * chunkSize
  let sLocal := (scanChunk w chunkSize (readAt deltas start chunkSize)).take length
  let sGlobal := List.zipWith (· + ·) sLocal (((powVec w chunkSize).take length).map (p.2 * ·))
  (writeAt p.1 start sGlobal, sGlobal.getLastD 0)

/-- `chunked_gae` of a row: the advantages and the returns. -/
def chunkedGae (rewards values : List R) (gamma lambd : R) (chunkSize : Nat) : List R × List R :=
  let nextValues := values.drop 1 ++ [0]
  let deltas := List.zipWith (· - ·)
    (List.zipWith (· + ·) rewards (nextValues.map (gamma * ·))) values
  let w := gamma * lambd
  let length := deltas.length
  let pad := if length % chunkSize ≠ 0 then chunkSize - length % chunkSize else 0
  let deltasRev := deltas.reverse ++ List.replicate pad 0
  let numChunks := deltasRev.length / chunkSize
  let lengths := chunkLengths chunkSize numChunks pad
  let sRev := ((List.range numChunks).foldl (propagateChunk w chunkSize deltasRev lengths)
    (List.replicate deltasRev.length 0, 0)).1
  let sRev := if 0 < pad then sRev.take length else sRev
  let advantages := sRev.reverse
  (advantages, List.zipWith (· + ·) advantages values)

end

/-! ### The chunked scan agrees with the plain one -/

variable {rewards values : List R} {gamma lambd w : R} {chunkSize : Nat}

/-- The advantages are a recurrence from the last step back. -/
theorem vanillaGae_fst (rewards values : List R) (gamma lambd : R) :
    (vanillaGae rewards values gamma lambd).1 =
      (recurrence (gamma * lambd) 0
        ((List.range values.length).map (gaeDelta rewards values gamma)).reverse).reverse := by
  simp only [vanillaGae]
  rw [foldl_recurrence, List.nil_append, List.map_reverse]

theorem deltas_eq (h : rewards.length = values.length) (gamma : R) :
    List.zipWith (· - ·)
      (List.zipWith (· + ·) rewards ((values.drop 1 ++ [0]).map (gamma * ·))) values =
        (List.range values.length).map (gaeDelta rewards values gamma) := by
  apply List.ext_getElem
  · simp [h]
    omega
  · intro t ht ht'
    have hlt : t < values.length := by simpa using ht'
    have hr : t < rewards.length := by omega
    rw [List.getElem_zipWith, List.getElem_zipWith, List.getElem_map, List.getElem_map,
      List.getElem_range, gaeDelta, List.getD_eq_getElem _ _ hr, List.getD_eq_getElem _ _ hlt]
    congr 3
    by_cases hnext : t < values.length - 1
    · have hsucc : t + 1 < values.length := by omega
      have hdrop : t < (values.drop 1).length := by
        rw [List.length_drop]
        exact hnext
      rw [if_pos hnext, List.getD_eq_getElem _ _ hsucc, List.getElem_append_left hdrop,
        List.getElem_drop]
      congr 1
      omega
    · have hend : (values.drop 1).length ≤ t := by
        rw [List.length_drop]
        omega
      rw [if_neg hnext, List.getElem_append_right hend]
      simp

section

variable [DecidableEq R]

theorem scanKernel_eq (w : R) (row col : Nat) :
    scanKernel w row col = if row ≤ col then w ^ (col - row) else 0 := by
  unfold scanKernel
  by_cases hw : w = 0
  · subst hw
    by_cases hdiff : col - row = 0 <;> simp [hdiff]
  · simp [hw]

theorem powVec_eq (w : R) (chunkSize : Nat) :
    powVec w chunkSize = (List.range chunkSize).map fun t => w ^ (t + 1) := by
  unfold powVec
  split_ifs with hw
  · subst hw
    simp [List.map_const']
  · rfl

/-- Within a chunk the product with the kernel is the recurrence from 0 on. -/
theorem scanChunk_eq {chunk : List R} (hchunk : chunk.length = chunkSize) :
    scanChunk w chunkSize chunk = recurrence w 0 chunk := by
  apply List.ext_getElem
  · simp [scanChunk, hchunk]
  · intro t ht ht'
    have hlt : t < chunk.length := by simpa using ht'
    have hclosed := getD_recurrence (w := w) (s := 0) hlt
    rw [List.getD_eq_getElem _ _ ht', mul_zero, add_zero] at hclosed
    rw [hclosed]
    simp only [scanChunk, List.getElem_map, List.getElem_range, scanKernel_eq, mul_ite, mul_zero]
    rw [← Finset.sum_filter]
    have hrange : (Finset.range chunkSize).filter (· ≤ t) = Finset.range (t + 1) := by
      ext row
      simp only [Finset.mem_filter, Finset.mem_range]
      omega
    rw [hrange]
    exact Finset.sum_congr rfl fun row _ => mul_comm _ _

theorem chunkLengths_getD {pad c : Nat} (hpad : pad < chunkSize) (numChunks : Nat)
    (hc : c < numChunks) :
    (chunkLengths chunkSize numChunks pad).getD c 0 =
      min chunkSize (numChunks * chunkSize - pad - c * chunkSize) := by
  have hnext : (c + 1) * chunkSize ≤ numChunks * chunkSize := Nat.mul_le_mul_right _ hc
  rw [Nat.succ_mul] at hnext
  have hlen : c < (List.replicate numChunks chunkSize).length := by
    rw [List.length_replicate]
    exact hc
  simp only [chunkLengths]
  by_cases hp : 0 < pad
  · rw [if_pos hp, List.getD_eq_getElem _ _ (by simpa using hc), List.getElem_set]
    by_cases hlast : numChunks - 1 = c
    · obtain rfl : numChunks = c + 1 := by omega
      rw [if_pos hlast, Nat.succ_mul]
      omega
    · have hnext' : (c + 1 + 1) * chunkSize ≤ numChunks * chunkSize :=
        Nat.mul_le_mul_right _ (by omega)
      rw [Nat.succ_mul, Nat.succ_mul] at hnext'
      rw [if_neg hlast, List.getElem_replicate]
      omega
  · rw [if_neg hp, List.getD_eq_getElem _ _ hlen, List.getElem_replicate]
    omega

/-- A chunk goes on from the state that the chunk before it has left. -/
theorem propagateChunk_eq {deltas sRev : List R} {lengths : List Nat} {sPrev : R} {c n : Nat}
    (hlen : c * chunkSize + chunkSize ≤ deltas.length) (hn : n ≤ chunkSize)
    (hlengths : lengths.getD c 0 = n) :
    propagateChunk w chunkSize deltas lengths (sRev, sPrev) c =
      (writeAt sRev (c * chunkSize) (recurrence w sPrev (readAt deltas (c * chunkSize) n)),
        (recurrence w sPrev (readAt deltas (c * chunkSize) n)).getLastD 0) := by
  have hchunk : (readAt deltas (c * chunkSize) chunkSize).length = chunkSize := length_readAt hlen
  have htake : (readAt deltas (c * chunkSize) chunkSize).take n = readAt deltas (c * chunkSize) n := by
    rw [readAt, List.take_take, Nat.min_eq_left hn, readAt]
  have hread : (readAt deltas (c * chunkSize) n).length = n := length_readAt (by omega)
  have hglobal : List.zipWith (· + ·) ((scanChunk w chunkSize
      (readAt deltas (c * chunkSize) chunkSize)).take n)
        (((powVec w chunkSize).take n).map (sPrev * ·)) =
      recurrence w sPrev (readAt deltas (c * chunkSize) n) := by
    rw [scanChunk_eq hchunk, take_recurrence, htake, recurrence_eq_add w sPrev, hread, powVec_eq,
      ← List.map_take, List.take_range, Nat.min_eq_left hn, List.map_map]
    rfl
  simp only [propagateChunk, hlengths, hglobal]

/-- After some chunks the states of their deltas are written, and the last one of them is kept. -/
theorem foldl_propagateChunk {deltas : List R} {lengths : List Nat} {numChunks total : Nat}
    (hdeltas : deltas.length = numChunks * chunkSize) (htotal : total ≤ deltas.length)
    (hlengths : ∀ c < numChunks, lengths.getD c 0 = min chunkSize (total - c * chunkSize))
    (hfull : ∀ c < numChunks, c * chunkSize < total) (n : Nat) (hn : n ≤ numChunks) :
    (List.range n).foldl (propagateChunk w chunkSize deltas lengths)
        (List.replicate deltas.length 0, 0) =
      (recurrence w 0 (deltas.take (min total (n * chunkSize))) ++
          List.replicate (deltas.length - min total (n * chunkSize)) 0,
        runRecurrence w 0 (deltas.take (min total (n * chunkSize)))) := by
  induction n with
  | zero => simp [runRecurrence]
  | succ n ih =>
    have hlast : n < numChunks := hn
    have hnext : (n + 1) * chunkSize ≤ numChunks * chunkSize := Nat.mul_le_mul_right _ hn
    have hlt := hfull n hlast
    rw [Nat.succ_mul] at hnext
    rw [List.range_succ, List.foldl_append, ih (by omega), List.foldl_cons, List.foldl_nil,
      propagateChunk_eq (by omega) (Nat.min_le_left ..) (hlengths n hlast), Nat.succ_mul]
    have hmin : min total (n * chunkSize) = n * chunkSize := by omega
    have hmin' : min total (n * chunkSize + chunkSize) =
        n * chunkSize + min chunkSize (total - n * chunkSize) := by omega
    have hsplit : deltas.take (min total (n * chunkSize + chunkSize)) =
        deltas.take (n * chunkSize) ++
          readAt deltas (n * chunkSize) (min chunkSize (total - n * chunkSize)) := by
      rw [hmin', List.take_add]
      rfl
    have hread : (readAt deltas (n * chunkSize) (min chunkSize (total - n * chunkSize))).length =
        min chunkSize (total - n * chunkSize) := length_readAt (by omega)
    have hne : readAt deltas (n * chunkSize) (min chunkSize (total - n * chunkSize)) ≠ [] := by
      rw [← List.length_pos_iff, hread]
      have hpos : 0 < chunkSize := by
        rcases Nat.eq_zero_or_pos chunkSize with hzero | hpos
        · rw [hzero, Nat.mul_zero] at hdeltas
          omega
        · exact hpos
      omega
    have hwritten : (recurrence w 0 (deltas.take (n * chunkSize))).length = n * chunkSize := by
      rw [length_recurrence, List.length_take]
      omega
    have hwrite := writeAt_append_replicate (recurrence w 0 (deltas.take (n * chunkSize)))
      (recurrence w (runRecurrence w 0 (deltas.take (n * chunkSize)))
        (readAt deltas (n * chunkSize) (min chunkSize (total - n * chunkSize))))
      (deltas.length - n * chunkSize) 0
    rw [hwritten, length_recurrence, hread] at hwrite
    rw [hsplit, hmin, hwrite, recurrence_append, runRecurrence_append, getLastD_recurrence hne, hmin',
      Nat.sub_sub]

/-- Without anything but the padding there is no chunk. -/
theorem numChunks_spec (hchunk : 0 < chunkSize) (total : Nat) :
    let pad := if total % chunkSize ≠ 0 then chunkSize - total % chunkSize else 0
    pad < chunkSize ∧ total + pad = (total + pad) / chunkSize * chunkSize ∧
      ∀ c < (total + pad) / chunkSize, c * chunkSize < total := by
  intro pad
  have hmod := Nat.mod_lt total hchunk
  have hpad : pad < chunkSize := by
    simp only [pad]
    split_ifs <;> omega
  have hdvd : (total + pad) % chunkSize = 0 := by
    simp only [pad]
    split_ifs with hrest
    · have hsum : total + (chunkSize - total % chunkSize) =
          chunkSize * (total / chunkSize + 1) := by
        have hdiv := Nat.div_add_mod total chunkSize
        rw [Nat.mul_succ]
        omega
      rw [hsum, Nat.mul_mod_right]
    · rw [Nat.add_zero]
      omega
  have hwhole : total + pad = (total + pad) / chunkSize * chunkSize :=
    (Nat.div_mul_cancel (Nat.dvd_of_mod_eq_zero hdvd)).symm
  refine ⟨hpad, hwhole, ?_⟩
  intro c hc
  have hnext : (c + 1) * chunkSize ≤ (total + pad) / chunkSize * chunkSize :=
    Nat.mul_le_mul_right _ hc
  rw [Nat.succ_mul] at hnext
  omega

theorem chunkedGae_eq (hchunk : 0 < chunkSize) (h : rewards.length = values.length) :
    chunkedGae rewards values gamma lambd chunkSize = vanillaGae rewards values gamma lambd := by
  have hfst : (chunkedGae rewards values gamma lambd chunkSize).1 =
      (vanillaGae rewards values gamma lambd).1 := by
    rw [vanillaGae_fst]
    simp only [chunkedGae]
    rw [deltas_eq h]
    set deltas := (List.range values.length).map (gaeDelta rewards values gamma) with hdeltas
    set pad := if deltas.length % chunkSize ≠ 0 then chunkSize - deltas.length % chunkSize else 0
      with hpaddef
    obtain ⟨hpad, hwhole, hfull⟩ := numChunks_spec hchunk deltas.length
    rw [← hpaddef] at hpad hwhole hfull
    have hlen : (deltas.reverse ++ List.replicate pad 0).length = deltas.length + pad := by simp
    have hlengths := fun c => chunkLengths_getD (c := c) hpad ((deltas.length + pad) / chunkSize)
    rw [← hwhole, Nat.add_sub_cancel] at hlengths
    have hloop := foldl_propagateChunk (w := gamma * lambd) (hlen.trans hwhole)
      (hlen ▸ Nat.le_add_right ..) hlengths hfull ((deltas.length + pad) / chunkSize) le_rfl
    have hmin : min deltas.length ((deltas.length + pad) / chunkSize * chunkSize) =
        deltas.length := by omega
    have htake : (deltas.reverse ++ List.replicate pad 0).take deltas.length = deltas.reverse :=
      List.take_left' (List.length_reverse ..)
    rw [hmin, htake, hlen, Nat.add_sub_cancel_left] at hloop
    rw [hlen, hloop]
    congr 1
    split_ifs with hp
    · exact List.take_left' (by rw [length_recurrence, List.length_reverse])
    · rw [Nat.eq_zero_of_not_pos hp, List.replicate_zero, List.append_nil]
  simp only [chunkedGae, vanillaGae, Prod.mk.injEq] at hfst ⊢
  exact ⟨hfst, by rw [hfst]⟩

/-- The scan in chunks of any size gives the advantages and returns of the plain loop. -/
theorem chunkedGae_eq_vanillaGae (hchunk : 0 < chunkSize) (h : rewards.length = values.length) :
    chunkedGae rewards values gamma lambd chunkSize = vanillaGae rewards values gamma lambd :=
  chunkedGae_eq hchunk h

end

theorem chunkedGae_eq_vanillaGae_three :
    chunkedGae ([1, 2, 3] : List ℤ) [4, 5, 6] 1 2 2 = vanillaGae [1, 2, 3] [4, 5, 6] 1 2 :=
  chunkedGae_eq_vanillaGae (by decide) rfl

end Belayer.Train
