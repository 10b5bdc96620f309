import Belayer.Framework.Traverse
import Belayer.Weights.ParameterServer

namespace Belayer.Weights.Ps

open Belayer.Framework

/-! What is registered can be read back from the memory buffers. -/

theorem le_alignSize (dtype : Dtype) (shape : List Nat) :
    dtype.itemsize * shape.prod ≤ alignSize dtype shape := by
  unfold alignSize
  omega

theorem dvd_alignSize (dtype : Dtype) (shape : List Nat) : 256 ∣ alignSize dtype shape :=
  Nat.dvd_mul_left 256 _

/-- A named tensor, by the room that it takes. -/
def pairSize (p : String × RawTensor) : Nat := alignSize p.2.dtype p.2.shape

/-! Blocks -/

/-- The tensor of a meta at the start of a block. -/
def extractBlock (m : ParameterMeta) (block : List UInt8) : Option (String × RawTensor) :=
  let bytes := block.take (m.dtype.itemsize * m.shape.prod)
  if h : bytes.length = m.dtype.itemsize * m.shape.prod then
    some (m.name, ⟨m.dtype, m.shape, bytes, h⟩)
  else none

/-- The blocks of a buffer that begin with the tensors of the metas. -/
def blocksOf (metas : List ParameterMeta) (buffer : List UInt8) : List (List UInt8) :=
  cutBy (metas.map ParameterMeta.size) buffer

theorem mod_itemsize {dtype : Dtype} {offset : Nat} (h : 256 ∣ offset) :
    offset % dtype.itemsize = 0 :=
  Nat.mod_eq_zero_of_dvd (dtype.itemsize_dvd.trans h)

/-- At an aligned place a tensor is read from the block that begins there. -/
theorem extractWeight_eq (m : ParameterMeta) {offset : Nat} (h : 256 ∣ offset)
    (buffer : List UInt8) :
    extractWeight buffer ⟨m.name, m.dtype, m.shape, offset⟩ =
      extractBlock m (readAt buffer offset m.size) := by
  have hbytes : readAt buffer offset (m.dtype.itemsize * m.shape.prod) =
      (readAt buffer offset m.size).take (m.dtype.itemsize * m.shape.prod) := by
    have hle : m.dtype.itemsize * m.shape.prod ≤ m.size := le_alignSize m.dtype m.shape
    rw [readAt, readAt, List.take_take, Nat.min_eq_left hle]
  have hmod : offset % m.dtype.itemsize = 0 := mod_itemsize h
  simp only [extractWeight, extractBlock, hbytes, hmod, if_true]

/-- The tensors of metas that lie one behind the other are those of the blocks there. -/
theorem extractWeights_toNamedTensor (metas : List ParameterMeta) {offset : Nat} (h : 256 ∣ offset)
    (buffer : List UInt8) :
    extractWeights (toNamedTensor metas offset) buffer =
      (metas.zip (blocksOf metas (buffer.drop offset))).mapM fun e => extractBlock e.1 e.2 := by
  induction metas generalizing offset with
  | nil => rfl
  | cons m metas ih =>
    have hnext : 256 ∣ offset + m.size := Nat.dvd_add h (dvd_alignSize m.dtype m.shape)
    have hrest := ih hnext
    rw [extractWeights] at hrest
    rw [extractWeights, toNamedTensor, List.mapM_cons, hrest, extractWeight_eq m h]
    simp only [blocksOf, List.map_cons, cutBy, List.zip_cons_cons, List.mapM_cons, List.drop_drop,
      readAt]

/-! The buckets -/

/-- The bucket of tensors. -/
def bucketOf (l : List (String × RawTensor)) : MemoryBucket :=
  ⟨(l.map pairSize).sum, l.map fun p => metaOf p.1 p.2⟩

theorem add_bucketOf (bucketSize : Nat) (b : Bucketing (String × RawTensor))
    (p : String × RawTensor) :
    MemoryBuckets.add bucketSize ⟨b.closed.map bucketOf, bucketOf b.last⟩ p =
      ⟨(b.add (exceeds pairSize bucketSize) p).closed.map bucketOf,
        bucketOf (b.add (exceeds pairSize bucketSize) p).last⟩ := by
  have hfull : exceeds pairSize bucketSize b.last p =
      decide (bucketSize < (bucketOf b.last).size + alignSize p.2.dtype p.2.shape) := rfl
  unfold MemoryBuckets.add Bucketing.add
  rw [hfull]
  by_cases h : bucketSize < (bucketOf b.last).size + alignSize p.2.dtype p.2.shape
  · simp only [if_pos h, decide_eq_true h, if_true]
    simp [bucketOf, pairSize]
  · simp only [if_neg h, decide_eq_false h, if_false, Bool.false_eq_true]
    simp [bucketOf, pairSize]

theorem foldl_bucketOf (bucketSize : Nat) (b : Bucketing (String × RawTensor))
    (l : List (String × RawTensor)) :
    (l.foldl (MemoryBuckets.add bucketSize) ⟨b.closed.map bucketOf, bucketOf b.last⟩).all =
      ((b.addAll (exceeds pairSize bucketSize) l).buckets).map bucketOf := by
  induction l generalizing b with
  | nil => simp [MemoryBuckets.all, Bucketing.addAll, Bucketing.buckets]
  | cons p l ih => rw [List.foldl_cons, add_bucketOf, ih, Bucketing.addAll, Bucketing.addAll,
      List.foldl_cons]

/-! The writes -/

/-- The calls that copy tensors to the places that `registerTensors` gives them. -/
def placedWrites (idx : Nat) : List (String × RawTensor) → Nat → List Write
  | [], _ => []
  | p :: l, offset => ⟨idx, offset, p.2⟩ :: placedWrites idx l (offset + pairSize p)

theorem registerTensors_eq {parameters : Dict String RawTensor} (idx : Nat)
    {l : List (String × RawTensor)} (hl : ∀ p ∈ l, parameters.lookup p.1 = some p.2)
    (offset : Nat) :
    registerTensors parameters idx (l.map fun p => metaOf p.1 p.2) offset =
      some (placedWrites idx l offset) := by
  induction l generalizing offset with
  | nil => rfl
  | cons p l ih =>
    obtain ⟨hp, hrest⟩ := List.forall_mem_cons.mp hl
    have hname : parameters.lookup (metaOf p.1 p.2).name = some p.2 := hp
    have hsize : alignSize p.2.dtype p.2.shape = (metaOf p.1 p.2).size := rfl
    simp only [List.map_cons, registerTensors, hname, Option.bind_eq_bind, Option.bind_some, hsize,
      if_true, ih hrest]
    rfl

/-- Where a write begins and what it writes. -/
def Write.part (w : Write) : Nat × List UInt8 := (w.offset, w.tensor.bytes)

theorem idx_of_mem_placedWrites {idx : Nat} {l : List (String × RawTensor)} {offset : Nat}
    {w : Write} (h : w ∈ placedWrites idx l offset) : w.idx = idx := by
  induction l generalizing offset with
  | nil => exact absurd h List.not_mem_nil
  | cons p l ih =>
    rcases List.mem_cons.mp h with rfl | h
    · rfl
    · exact ih h

/-- The writes of a bucket stay within its room. -/
theorem bounds_of_mem_placedWrites {idx : Nat} {l : List (String × RawTensor)} {offset : Nat}
    {w : Write} (h : w ∈ placedWrites idx l offset) :
    offset ≤ w.offset ∧ w.offset + w.tensor.bytes.length ≤ offset + (l.map pairSize).sum := by
  induction l generalizing offset with
  | nil => exact absurd h List.not_mem_nil
  | cons p l ih =>
    rw [List.map_cons, List.sum_cons]
    rcases List.mem_cons.mp h with rfl | h
    · have hlen : p.2.bytes.length ≤ pairSize p := by
        rw [p.2.length_bytes]
        exact le_alignSize p.2.dtype p.2.shape
      exact ⟨Nat.le_refl _, by dsimp only; omega⟩
    · have hrest := ih h
      omega

/-- No two writes of a bucket overlap. -/
theorem pairwise_placedWrites (idx : Nat) (l : List (String × RawTensor)) (offset : Nat) :
    (placedWrites idx l offset).Pairwise fun v w => PartsApart v.part w.part := by
  induction l generalizing offset with
  | nil => exact List.Pairwise.nil
  | cons p l ih =>
    refine List.pairwise_cons.mpr ⟨fun w hw => .inl ?_, ih _⟩
    have hbounds := bounds_of_mem_placedWrites hw
    have hlen : p.2.bytes.length ≤ pairSize p := by
      rw [p.2.length_bytes]
      exact le_alignSize p.2.dtype p.2.shape
    change offset + p.2.bytes.length ≤ w.offset
    omega

theorem foldl_apply (writes : List Write) (buffer : List UInt8) :
    writes.foldl Write.apply buffer = writeAll buffer (writes.map Write.part) := by
  rw [writeAll, List.foldl_map]
  rfl

/-- The writes of a bucket, in any order, leave its tensors in the buffer. -/
theorem extractWeights_of_writes {idx : Nat} {l : List (String × RawTensor)}
    {writes : List Write} (hwrites : writes.Perm (placedWrites idx l 0)) {buffer : List UInt8}
    (hbuffer : buffer.length = (l.map pairSize).sum) :
    (writes.foldl Write.apply buffer).length = buffer.length ∧
      extractWeights (toNamedTensor (l.map fun p => metaOf p.1 p.2) 0)
        (writes.foldl Write.apply buffer) = some l := by
  have hin : ∀ v ∈ writes.map Write.part, v.1 + v.2.length ≤ buffer.length := by
    intro v hv
    obtain ⟨w, hw, rfl⟩ := List.mem_map.mp hv
    have hbounds := bounds_of_mem_placedWrites (hwrites.mem_iff.mp hw)
    rw [hbuffer]
    simpa [Write.part] using hbounds.2
  have hapart : (writes.map Write.part).Pairwise PartsApart :=
    List.pairwise_map.mpr ((hwrites.pairwise_iff fun h => PartsApart.symm h).mpr
      (pairwise_placedWrites idx l 0))
  rw [foldl_apply]
  refine ⟨length_writeAll hin, ?_⟩
  have hread : ∀ w ∈ placedWrites idx l 0,
      readAt (writeAll buffer (writes.map Write.part)) w.offset w.tensor.bytes.length =
        w.tensor.bytes := by
    intro w hw
    exact readAt_writeAll hin hapart (List.mem_map_of_mem (hwrites.mem_iff.mpr hw))
  revert hread
  generalize writeAll buffer (writes.map Write.part) = memory
  -- the items of the payload lie where the writes begin
  suffices h : ∀ offset, 256 ∣ offset →
      (∀ w ∈ placedWrites idx l offset, readAt memory w.offset w.tensor.bytes.length =
        w.tensor.bytes) →
      extractWeights (toNamedTensor (l.map fun p => metaOf p.1 p.2) offset) memory = some l from
    h 0 (Nat.dvd_zero 256)
  clear hin hapart hwrites hbuffer
  induction l with
  | nil => exact fun _ _ _ => rfl
  | cons p l ih =>
    intro offset hoffset hread
    obtain ⟨hp, hrest⟩ := List.forall_mem_cons.mp hread
    have hnext := ih (offset + pairSize p)
      (Nat.dvd_add hoffset (dvd_alignSize p.2.dtype p.2.shape)) hrest
    have hfirst : extractWeight memory ⟨p.1, p.2.dtype, p.2.shape, offset⟩ = some p := by
      have hbytes : readAt memory offset (p.2.dtype.itemsize * p.2.shape.prod) = p.2.bytes := by
        rw [← p.2.length_bytes]
        exact hp
      simp only [extractWeight, hbytes, p.2.length_bytes, mod_itemsize hoffset, if_true, dif_pos]
    rw [extractWeights] at hnext
    rw [List.map_cons, toNamedTensor, extractWeights, List.mapM_cons]
    change (extractWeight memory ⟨p.1, p.2.dtype, p.2.shape, offset⟩ >>= _) = _
    rw [hfirst]
    change (List.mapM (extractWeight memory)
      (toNamedTensor (l.map fun p => metaOf p.1 p.2) (offset + pairSize p)) >>= _) = _
    rw [hnext]
    rfl

/-! The whole call -/

/-- Of all calls, those for one bucket are those that were made for it. -/
theorem filter_placedWrites {ls : List (List (String × RawTensor))} {k i : Nat}
    {l : List (String × RawTensor)} (h : (l, i) ∈ ls.zipIdx k) :
    ((ls.zipIdx k).map fun b => placedWrites b.2 b.1 0).flatten.filter (·.idx = i) =
      placedWrites i l 0 := by
  have hself : ∀ l i, (placedWrites i l 0).filter (·.idx = i) = placedWrites i l 0 :=
    fun l i => List.filter_eq_self.mpr fun w hw => decide_eq_true (idx_of_mem_placedWrites hw)
  have hother : ∀ l i j, i ≠ j → (placedWrites i l 0).filter (·.idx = j) = [] :=
    fun l i j hij => List.filter_eq_nil_iff.mpr fun w hw =>
      by rw [idx_of_mem_placedWrites hw]; simpa using hij
  have hlater : ∀ (ls : List (List (String × RawTensor))) (k i : Nat), i < k →
      ((ls.zipIdx k).map fun b => placedWrites b.2 b.1 0).flatten.filter (·.idx = i) = [] := by
    intro ls
    induction ls with
    | nil => exact fun _ _ _ => rfl
    | cons l ls ih =>
      intro k i hik
      rw [List.zipIdx_cons, List.map_cons, List.flatten_cons, List.filter_append,
        hother l k i (by omega), ih (k + 1) i (by omega), List.append_nil]
  induction ls generalizing k with
  | nil => exact absurd h List.not_mem_nil
  | cons l' ls ih =>
    rw [List.zipIdx_cons] at h
    rw [List.zipIdx_cons, List.map_cons, List.flatten_cons, List.filter_append]
    rcases List.mem_cons.mp h with he | h
    · obtain ⟨rfl, rfl⟩ := Prod.mk.inj he
      rw [hself, hlater ls (i + 1) i (Nat.lt_succ_self i), List.append_nil]
    · have hle : k + 1 ≤ i := List.le_snd_of_mem_zipIdx h
      rw [hother l' k i (by omega), List.nil_append, ih h]

/-- The tensors that a memory buffer holds by its metas. -/
def MemoryBuffer.tensors (b : MemoryBuffer) : Option (List (String × RawTensor)) :=
  extractWeights (toNamedTensor b.metas 0) b.buffer

/-- A buffer is as long as the room that its metas take. -/
def MemoryBuffer.Fits (b : MemoryBuffer) : Prop :=
  b.buffer.length = b.size ∧ b.size = (b.metas.map ParameterMeta.size).sum

theorem pairSize_le_of_max {l : List (String × RawTensor)} {n : Nat}
    (h : (l.map fun p => alignSize p.2.dtype p.2.shape).max? = some n) :
    ∀ p ∈ l, pairSize p ≤ max (4 * 2 ^ 30) n := by
  intro p hp
  have hle : pairSize p ≤ n := (List.max?_eq_some_iff.mp h).2 _ (List.mem_map_of_mem hp)
  exact hle.trans (Nat.le_max_right _ _)

/-- Two bytes. -/
def byteTensor : RawTensor := ⟨⟨"torch.uint8", 1, by decide⟩, [2], [7, 9], rfl⟩

end Belayer.Weights.Ps
