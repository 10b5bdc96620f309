import Belayer.Weights.Registration

namespace Belayer.Weights.Ps

open Belayer.Framework

/-! The buckets of an owner take each of its tensors to the devices, once and whole. -/

/-- The bytes of a range of the memory pool. -/
def rangeBytes (pool : List (List UInt8)) (r : BucketRange) : Option (List UInt8) := do
  let buffer ← pool[r.idx]?
  let bytes := readAt buffer r.offset r.size
  if bytes.length = r.size then some bytes else none

theorem copyRanges_eq {pool : List (List UInt8)} {bucketSize : Nat} {ranges : List BucketRange}
    {parts : List (List UInt8)} (hparts : ranges.mapM (rangeBytes pool) = some parts)
    {copied : List UInt8} (hsize : copied.length + parts.flatten.length = bucketSize) :
    copyRanges pool bucketSize ranges copied = some (copied ++ parts.flatten) := by
  induction ranges generalizing copied parts with
  | nil =>
    rw [List.mapM_nil] at hparts
    cases hparts
    rw [List.flatten_nil, List.length_nil, Nat.add_zero] at hsize
    rw [copyRanges, if_pos hsize, List.flatten_nil, List.append_nil]
  | cons r ranges ih =>
    rw [List.mapM_cons] at hparts
    obtain ⟨bytes, hbytes, hparts⟩ := Option.bind_eq_some_iff.mp hparts
    obtain ⟨rest, hrest, he⟩ := Option.bind_eq_some_iff.mp hparts
    cases he
    obtain ⟨buffer, hbuffer, hread⟩ := Option.bind_eq_some_iff.mp hbytes
    dsimp only at hread
    split_ifs at hread with hlength
    obtain rfl : readAt buffer r.offset r.size = bytes := Option.some.inj hread
    rw [List.flatten_cons, List.length_append, hlength] at hsize
    have hsize' : (copied ++ readAt buffer r.offset r.size).length + rest.flatten.length =
        bucketSize := by
      rw [List.length_append, hlength]
      omega
    have hnext := ih hrest hsize'
    rw [copyRanges, if_pos (by omega), hbuffer]
    simp only [Option.bind_eq_bind, Option.bind_some, hlength, if_true]
    rw [hnext, List.flatten_cons, List.append_assoc]

/-! Metas with their blocks -/

/-- A meta with the block of its tensor. -/
abbrev Entry := ParameterMeta × List UInt8

def Entry.size (e : Entry) : Nat := e.1.size

/-- The metas of a memory buffer with their blocks. -/
def MemoryBuffer.entries (b : MemoryBuffer) : List Entry := b.metas.zip (blocksOf b.metas b.buffer)

theorem MemoryBuffer.fst_entries (b : MemoryBuffer) : b.entries.map Prod.fst = b.metas := by
  rw [entries, List.map_fst_zip]
  rw [blocksOf, length_cutBy, List.length_map]

theorem MemoryBuffer.snd_entries (b : MemoryBuffer) :
    b.entries.map Prod.snd = blocksOf b.metas b.buffer := by
  rw [entries, List.map_snd_zip]
  rw [blocksOf, length_cutBy, List.length_map]

theorem MemoryBuffer.tensors_eq (b : MemoryBuffer) :
    b.tensors = b.entries.mapM fun e => extractBlock e.1 e.2 :=
  extractWeights_toNamedTensor b.metas (Nat.dvd_zero 256) b.buffer

/-- The blocks of a buffer that fits are as long as their metas say, and make up the buffer. -/
theorem MemoryBuffer.Fits.blocks {b : MemoryBuffer} (h : b.Fits) :
    (b.entries.map Prod.snd).flatten = b.buffer ∧
      ∀ e ∈ b.entries, e.2.length = Entry.size e := by
  have hsum : b.buffer.length = (b.metas.map ParameterMeta.size).sum := h.1.trans h.2
  refine ⟨?_, ?_⟩
  · rw [b.snd_entries, blocksOf, flatten_cutBy hsum.le]
  · have hlengths := map_length_cutBy hsum.ge
    have hmap : b.entries.map (fun e => e.2.length) = b.entries.map Entry.size := by
      calc b.entries.map (fun e => e.2.length)
          = (b.entries.map Prod.snd).map List.length := (List.map_map ..).symm
        _ = b.metas.map ParameterMeta.size := by rw [b.snd_entries, blocksOf, hlengths]
        _ = (b.entries.map Prod.fst).map ParameterMeta.size := by rw [b.fst_entries]
        _ = b.entries.map Entry.size := List.map_map ..
    exact List.map_inj_left.mp hmap

/-! What a bucket takes along -/

/-- A bucket has the metas of the entries, and its ranges are their blocks. -/
structure Covers (pool : List (List UInt8)) (bucket : H2DBucket) (es : List Entry) : Prop where
  items : bucket.items = es.map Prod.fst
  size : bucket.size = (es.map Entry.size).sum
  ranges : ∃ parts, bucket.ranges.mapM (rangeBytes pool) = some parts ∧
    parts.flatten = (es.map Prod.snd).flatten

/-- A state of the loops in the buffer `buf`: the closed buckets are complete, and the last one lacks
the range that has been passed since the last one was noted. -/
structure GenInv (pool : List (List UInt8)) (buf : List UInt8) (s : GenState)
    (b : Bucketing Entry) : Prop where
  closed : List.Forall₂ (Covers pool) s.closed b.closed
  items : s.last.items = b.last.map Prod.fst
  size : s.last.size = (b.last.map Entry.size).sum
  le : s.startOffset ≤ s.offset
  parts : ∃ parts, s.last.ranges.mapM (rangeBytes pool) = some parts ∧
    parts.flatten ++ readAt buf s.startOffset (s.offset - s.startOffset) =
      (b.last.map Prod.snd).flatten

variable {pool : List (List UInt8)} {buf : List UInt8} {idx bucketSize : Nat} {s : GenState}
  {b : Bucketing Entry}

/-- Noting the passed range completes the last bucket. -/
theorem GenInv.covers_addRange (h : GenInv pool buf s b) (hbuf : pool[idx]? = some buf)
    (hoffset : s.offset ≤ buf.length) : Covers pool (s.last.addRange (s.pending idx)) b.last := by
  obtain ⟨parts, hparts, hflat⟩ := h.parts
  refine ⟨h.items, h.size, parts ++ [readAt buf s.startOffset (s.offset - s.startOffset)], ?_, ?_⟩
  · refine mapM_append_eq_some_iff.mpr ⟨parts, _, hparts, ?_, rfl⟩
    have hle := h.le
    have hlength : (readAt buf s.startOffset (s.offset - s.startOffset)).length =
        s.offset - s.startOffset := length_readAt (by omega)
    have hrange : rangeBytes pool (s.pending idx) =
        some (readAt buf s.startOffset (s.offset - s.startOffset)) := by
      simp [rangeBytes, GenState.pending, hbuf, hlength]
    rw [List.mapM_cons, hrange]
    rfl
  · rw [List.flatten_append, List.flatten_singleton, hflat]

/-- Where no byte has been passed, the last bucket is complete. -/
theorem GenInv.covers_last (h : GenInv pool buf s b) (hoffset : s.offset = s.startOffset) :
    Covers pool s.last b.last := by
  obtain ⟨parts, hparts, hflat⟩ := h.parts
  refine ⟨h.items, h.size, parts, hparts, ?_⟩
  rw [← hflat, hoffset, Nat.sub_self, readAt, List.take_zero, List.append_nil]

theorem addMeta_of_fits {m : ParameterMeta} (h : ¬bucketSize < s.last.size + m.size) :
    s.addMeta bucketSize idx m =
      { s with
        offset := s.offset + m.size
        last := { s.last with size := s.last.size + m.size, items := s.last.items ++ [m] } } := by
  unfold GenState.addMeta
  simp only [gt_iff_lt, if_neg h]

theorem addMeta_of_full {m : ParameterMeta} (h : bucketSize < s.last.size + m.size) :
    s.addMeta bucketSize idx m =
      ⟨s.closed ++ [if s.offset - s.startOffset > 0 then s.last.addRange (s.pending idx) else s.last],
        ⟨m.size, [], [m]⟩, s.offset, s.offset + m.size⟩ := by
  unfold GenState.addMeta
  simp only [gt_iff_lt, if_pos h, H2DBucket.empty, Nat.zero_add, List.nil_append]

/-- One tensor more, in the last bucket or in a new one. -/
theorem GenInv.addMeta (bucketSize : Nat) (h : GenInv pool buf s b) (hbuf : pool[idx]? = some buf) {e : Entry}
    (hblock : e.2 = readAt buf s.offset e.1.size) (hroom : s.offset + e.1.size ≤ buf.length) :
    GenInv pool buf (s.addMeta bucketSize idx e.1) (b.add (exceeds Entry.size bucketSize) e) := by
  have hfull : exceeds Entry.size bucketSize b.last e =
      decide (bucketSize < s.last.size + e.1.size) := by
    rw [h.size]
    rfl
  have hle := h.le
  unfold Bucketing.add
  rw [hfull]
  by_cases hcap : bucketSize < s.last.size + e.1.size
  · rw [addMeta_of_full hcap, if_pos (decide_eq_true hcap)]
    refine ⟨?_, rfl, by simp [Entry.size], Nat.le_add_right .., ⟨[], rfl, ?_⟩⟩
    · refine List.rel_append h.closed (List.Forall₂.cons ?_ .nil)
      split_ifs with hpassed
      · exact h.covers_addRange hbuf (by omega)
      · exact h.covers_last (by omega)
    · simp [hblock]
  · rw [addMeta_of_fits hcap, if_neg (by simpa using hcap)]
    obtain ⟨parts, hparts, hflat⟩ := h.parts
    refine ⟨h.closed, by simp [h.items], by simp [h.size, Entry.size], Nat.le_trans hle (by simp),
      ⟨parts, hparts, ?_⟩⟩
    have hjoin := readAt_append_readAt buf s.startOffset (s.offset - s.startOffset) e.1.size
    rw [show s.startOffset + (s.offset - s.startOffset) = s.offset by omega, ← hblock] at hjoin
    dsimp only
    rw [show s.offset + e.1.size - s.startOffset = s.offset - s.startOffset + e.1.size by omega,
      ← hjoin, ← List.append_assoc, hflat]
    simp

theorem addMeta_offset (m : ParameterMeta) :
    (s.addMeta bucketSize idx m).offset = s.offset + m.size := by
  by_cases h : bucketSize < s.last.size + m.size
  · rw [addMeta_of_full h]
  · rw [addMeta_of_fits h]

/-- The loop over the metas of a buffer. -/
theorem GenInv.addMetas (bucketSize : Nat) (h : GenInv pool buf s b) (hbuf : pool[idx]? = some buf) {es : List Entry}
    (hblocks : ∀ e ∈ es, e.2.length = Entry.size e)
    (hrest : buf.drop s.offset = (es.map Prod.snd).flatten) (hoffset : s.offset ≤ buf.length) :
    GenInv pool buf ((es.map Prod.fst).foldl (GenState.addMeta bucketSize idx) s)
        (b.addAll (exceeds Entry.size bucketSize) es) ∧
      ((es.map Prod.fst).foldl (GenState.addMeta bucketSize idx) s).offset ≤ buf.length := by
  induction es generalizing s b with
  | nil => exact ⟨h, hoffset⟩
  | cons e es ih =>
    obtain ⟨he, hes⟩ := List.forall_mem_cons.mp hblocks
    rw [List.map_cons, List.flatten_cons] at hrest
    have hlength := congrArg List.length hrest
    rw [List.length_drop, List.length_append] at hlength
    have hroom : s.offset + e.1.size ≤ buf.length := by
      have : e.2.length = e.1.size := he
      omega
    have hblock : e.2 = readAt buf s.offset e.1.size := by
      rw [readAt, hrest]
      exact (List.take_left' he).symm
    have hnext : buf.drop (s.addMeta bucketSize idx e.1).offset = (es.map Prod.snd).flatten := by
      rw [addMeta_offset, ← List.drop_drop, hrest]
      exact List.drop_left' he
    have hle : (s.addMeta bucketSize idx e.1).offset ≤ buf.length := by
      rw [addMeta_offset]
      exact hroom
    exact ih (h.addMeta bucketSize hbuf hblock hroom) hes hnext hle

/-- Between two buffers all buckets are complete. -/
def GenCovers (pool : List (List UInt8)) (s : GenState) (b : Bucketing Entry) : Prop :=
  List.Forall₂ (Covers pool) s.closed b.closed ∧ Covers pool s.last b.last

theorem GenCovers.addBuffer (bucketSize : Nat) (h : GenCovers pool s b) {m : MemoryBuffer} (hfits : m.Fits)
    (hbuf : pool[idx]? = some m.buffer) :
    GenCovers pool (s.addBuffer bucketSize (m.metas, idx))
      (b.addAll (exceeds Entry.size bucketSize) m.entries) := by
  obtain ⟨parts, hparts, hflat⟩ := h.2.ranges
  have hstart : GenInv pool m.buffer { s with startOffset := 0, offset := 0 } b :=
    ⟨h.1, h.2.items, h.2.size, Nat.le_refl 0, ⟨parts, hparts, by simp [readAt, hflat]⟩⟩
  obtain ⟨hflat, hlengths⟩ := hfits.blocks
  obtain ⟨hinv, hle⟩ := hstart.addMetas bucketSize hbuf hlengths
    (by rw [hflat]; rfl) (Nat.zero_le _)
  rw [m.fst_entries] at hinv hle
  exact ⟨hinv.closed, hinv.covers_addRange hbuf hle⟩

/-- The loop over the buffers of an owner. -/
theorem GenCovers.addBuffers (bucketSize : Nat) {buffers : List MemoryBuffer}
    (hfits : ∀ m ∈ buffers, m.Fits) (before : List (List UInt8)) (hpool : pool = before ++ buffers.map MemoryBuffer.buffer)
    (h : GenCovers pool s b) :
    GenCovers pool
      (((buffers.map MemoryBuffer.metas).zipIdx before.length).foldl
        (GenState.addBuffer bucketSize) s)
      (b.addAll (exceeds Entry.size bucketSize) (buffers.flatMap MemoryBuffer.entries)) := by
  induction buffers generalizing before s b with
  | nil => exact h
  | cons m buffers ih =>
    obtain ⟨hm, hrest⟩ := List.forall_mem_cons.mp hfits
    have hbuf : pool[before.length]? = some m.buffer := by
      rw [hpool, List.map_cons, List.getElem?_append_right (Nat.le_refl _), Nat.sub_self]
      rfl
    have hpool' : pool = (before ++ [m.buffer]) ++ buffers.map MemoryBuffer.buffer := by
      rw [hpool, List.map_cons, List.append_assoc, List.singleton_append]
    have hnext := ih hrest (before ++ [m.buffer]) hpool' (h.addBuffer bucketSize hm hbuf)
    rw [List.length_append, List.length_singleton] at hnext
    rw [List.map_cons, List.zipIdx_cons, List.foldl_cons, List.flatMap_cons, Bucketing.addAll,
      List.foldl_append]
    exact hnext

/-! Buckets that are delivered -/

/-- Copied from the pool to an aligned place of any memory, the bucket is read there as the
tensors. -/
def Delivers (pool : List (List UInt8)) (bucket : H2DBucket) (tensors : List (String × RawTensor)) :
    Prop :=
  ∃ bytes, copyToBuffer pool bucket = some bytes ∧ bytes.length = bucket.size ∧
    ∀ memory offset, 256 ∣ offset → readAt memory offset bucket.size = bytes →
      extractWeights (toNamedTensor bucket.items offset) memory = some tensors

theorem Covers.delivers {bucket : H2DBucket} {es : List Entry} (h : Covers pool bucket es)
    (hblocks : ∀ e ∈ es, e.2.length = Entry.size e) {tensors : List (String × RawTensor)}
    (htensors : (es.mapM fun e => extractBlock e.1 e.2) = some tensors) :
    Delivers pool bucket tensors := by
  obtain ⟨parts, hparts, hflat⟩ := h.ranges
  have hsizes : (es.map Prod.snd).map List.length = es.map Entry.size := by
    rw [List.map_map]
    exact List.map_congr_left hblocks
  have hlength : parts.flatten.length = bucket.size := by
    rw [hflat, List.length_flatten, hsizes, h.size]
  refine ⟨parts.flatten, ?_, hlength, ?_⟩
  · rw [copyToBuffer, copyRanges_eq hparts (by rw [List.length_nil, hlength, Nat.zero_add]),
      List.nil_append]
  · intro memory offset hoffset hread
    have hitems : bucket.items.map ParameterMeta.size = es.map Entry.size := by
      rw [h.items, List.map_map]
      rfl
    have hblocksOf : blocksOf bucket.items (memory.drop offset) = es.map Prod.snd := by
      rw [blocksOf, ← cutBy_take, hitems, ← h.size]
      change cutBy _ (readAt memory offset bucket.size) = _
      rw [hread, hflat, ← hsizes, cutBy_flatten]
    have hzip : (es.map Prod.fst).zip (es.map Prod.snd) = es := (List.zip_of_prod rfl rfl).symm
    rw [extractWeights_toNamedTensor _ hoffset, hblocksOf, h.items, hzip]
    exact htensors

/-- Where every meta fits into a bucket and some meta takes room, the last bucket has room taken. -/
theorem last_pos {es : List Entry} {b : Bucketing Entry} (hfit : ∀ e ∈ es, Entry.size e ≤ bucketSize)
    (hb : (b.last.map Entry.size).sum ≤ bucketSize)
    (hpos : (b.closed = [] ∧ 0 < (b.last.map Entry.size).sum + (es.map Entry.size).sum) ∨
      0 < (b.last.map Entry.size).sum) :
    0 < ((b.addAll (exceeds Entry.size bucketSize) es).last.map Entry.size).sum := by
  induction es generalizing b with
  | nil =>
    rw [Bucketing.addAll, List.foldl_nil]
    rcases hpos with ⟨-, hpos⟩ | hpos
    · simpa using hpos
    · exact hpos
  | cons e es ih =>
    obtain ⟨he, hes⟩ := List.forall_mem_cons.mp hfit
    rw [Bucketing.addAll, List.foldl_cons]
    refine ih hes ?_ ?_
    · unfold Bucketing.add
      split_ifs with hfull
      · simpa using he
      · have hle := Nat.le_of_not_lt (of_decide_eq_false (Bool.eq_false_iff.mpr hfull))
        simpa using hle
    · unfold Bucketing.add
      split_ifs with hfull
      · have hlt := of_decide_eq_true hfull
        refine .inr ?_
        simp only [List.map_cons, List.map_nil, List.sum_singleton]
        omega
      · simp only [List.map_append, List.map_cons, List.map_nil, List.sum_append,
          List.sum_cons] at hpos ⊢
        rcases hpos with ⟨hclosed, hpos⟩ | hpos
        · exact .inl ⟨hclosed, by omega⟩
        · exact .inr (by omega)

/-- The loops over the buffers of an owner, to their end. -/
def genState (bucketSize : Nat) (buffers : List MemoryBuffer) : GenState :=
  (buffers.map MemoryBuffer.metas).zipIdx.foldl (GenState.addBuffer bucketSize) ⟨[], .empty, 0, 0⟩

/-- The entries of the buffers in buckets. -/
def bucketing (bucketSize : Nat) (buffers : List MemoryBuffer) : Bucketing Entry :=
  Bucketing.empty.addAll (exceeds Entry.size bucketSize) (buffers.flatMap MemoryBuffer.entries)

theorem genState_covers (bucketSize : Nat) {buffers : List MemoryBuffer}
    (hfits : ∀ m ∈ buffers, m.Fits) :
    GenCovers (buffers.map MemoryBuffer.buffer) (genState bucketSize buffers)
      (bucketing bucketSize buffers) := by
  have hempty : GenCovers (buffers.map MemoryBuffer.buffer) ⟨[], .empty, 0, 0⟩ .empty :=
    ⟨.nil, rfl, rfl, [], rfl, rfl⟩
  exact GenCovers.addBuffers bucketSize hfits [] rfl hempty

theorem size_entries_le {buffers : List MemoryBuffer}
    (hfit : ∀ m ∈ buffers, ∀ p ∈ m.metas, p.size ≤ bucketSize) :
    ∀ e ∈ buffers.flatMap MemoryBuffer.entries, Entry.size e ≤ bucketSize := by
  intro e he
  obtain ⟨m, hm, he⟩ := List.mem_flatMap.mp he
  exact hfit m hm e.1 (m.fst_entries ▸ List.mem_map_of_mem he)

/-- The buckets of an owner deliver the tensors of its memory buffers in their order, and none of
them is larger than a bucket may be. -/
theorem delivers_of_ownerBuckets {buffers : List MemoryBuffer} (hfits : ∀ m ∈ buffers, m.Fits)
    {tensors : List (List (String × RawTensor))}
    (htensors : buffers.mapM MemoryBuffer.tensors = some tensors)
    (hfit : ∀ m ∈ buffers, ∀ p ∈ m.metas, p.size ≤ bucketSize) {buckets : List H2DBucket}
    (h : ownerBuckets bucketSize (buffers.map MemoryBuffer.metas) = some buckets) :
    (∀ bucket ∈ buckets, bucket.size ≤ bucketSize) ∧
      ∃ loads, List.Forall₂ (Delivers (buffers.map MemoryBuffer.buffer)) buckets loads ∧
        loads.flatten = tensors.flatten := by
  have hcovers := genState_covers bucketSize hfits
  have hall : List.Forall₂ (Covers (buffers.map MemoryBuffer.buffer))
      ((genState bucketSize buffers).closed ++ [(genState bucketSize buffers).last])
      (bucketing bucketSize buffers).buckets :=
    List.rel_append hcovers.1 (.cons hcovers.2 .nil)
  have hflat : (bucketing bucketSize buffers).buckets.flatten =
      buffers.flatMap MemoryBuffer.entries := Bucketing.flatten_addAll .empty _
  have hextract : (buffers.flatMap MemoryBuffer.entries).mapM (fun e => extractBlock e.1 e.2) =
      some tensors.flatten := by
    rw [List.flatMap_def, mapM_flatten_eq_some_iff]
    refine ⟨tensors, ?_, rfl⟩
    rw [mapM_eq_some_iff] at htensors ⊢
    rw [← htensors, List.map_map]
    exact List.map_congr_left fun m _ => m.tensors_eq.symm
  rw [← hflat, mapM_flatten_eq_some_iff] at hextract
  obtain ⟨loads, hloads, hloadsFlat⟩ := hextract
  unfold ownerBuckets at h
  dsimp only at h
  change (if (genState bucketSize buffers).last.size > 0 then
    some ((genState bucketSize buffers).closed ++ [(genState bucketSize buffers).last])
    else none) = some buckets at h
  split_ifs at h
  obtain rfl := Option.some.inj h
  refine ⟨fun bucket hbucket => ?_, loads, ?_, hloadsFlat⟩
  · obtain ⟨bes, hbes, hcov⟩ := exists_of_mem_forall₂ hall hbucket
    rw [hcov.size]
    exact sum_le_of_exceeds (size_entries_le hfit) bes hbes
  · refine forall₂_trans hall (forall₂_mapM hloads) fun bucket bes hbes load hcov hload => ?_
    refine hcov.delivers (fun e he => ?_) hload
    have hmem : e ∈ buffers.flatMap MemoryBuffer.entries := by
      rw [← hflat]
      exact List.mem_flatten.mpr ⟨bes, hbes, he⟩
    obtain ⟨m, hm, hem⟩ := List.mem_flatMap.mp hmem
    exact (hfits m hm).blocks.2 e hem

/-- An owner with memory in use gets its buckets. -/
theorem exists_ownerBuckets {buffers : List MemoryBuffer} (hfits : ∀ m ∈ buffers, m.Fits)
    (hfit : ∀ m ∈ buffers, ∀ p ∈ m.metas, p.size ≤ bucketSize)
    (hpos : ∃ m ∈ buffers, 0 < m.size) :
    ∃ buckets, ownerBuckets bucketSize (buffers.map MemoryBuffer.metas) = some buckets := by
  have hcovers := genState_covers bucketSize hfits
  have htotal : 0 < ((buffers.flatMap MemoryBuffer.entries).map Entry.size).sum := by
    obtain ⟨m, hm, hmpos⟩ := hpos
    have hsizes : m.entries.map Entry.size = m.metas.map ParameterMeta.size := by
      rw [← m.fst_entries, List.map_map]
      rfl
    have hsub : (m.entries.map Entry.size).sum ≤
        ((buffers.flatMap MemoryBuffer.entries).map Entry.size).sum := by
      have hsublist : m.entries.Sublist (buffers.flatMap MemoryBuffer.entries) := by
        rw [List.flatMap_def]
        exact List.sublist_flatten_of_mem (List.mem_map_of_mem hm)
      exact (hsublist.map Entry.size).sum_le_sum fun _ _ => Nat.zero_le _
    rw [hsizes, ← (hfits m hm).2] at hsub
    omega
  have hlast : (genState bucketSize buffers).last.size > 0 := by
    rw [hcovers.2.size]
    exact last_pos (size_entries_le hfit) (Nat.zero_le _)
      (.inl ⟨rfl, by simpa [Bucketing.empty] using htotal⟩)
  exact ⟨_, if_pos hlast⟩

end Belayer.Weights.Ps
