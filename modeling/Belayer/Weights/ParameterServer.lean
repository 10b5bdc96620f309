import Belayer.Framework.Buckets
import Belayer.Framework.Memory
import Belayer.Framework.SortedDict
import Belayer.Framework.WhileLoop
import Mathlib.Data.String.Basic

namespace Belayer.Weights.Ps

open Belayer.Framework

/-! The parameter server: where tensors lie in its memory, and how they get to the engines -/

/-- A torch dtype; an item of each of them is as long as a divisor of the alignment. -/
structure Dtype where
  name : String
  itemsize : Nat
  itemsize_dvd : itemsize ∣ 256
  deriving DecidableEq

/-- `ParameterMeta`. -/
structure ParameterMeta where
  name : String
  dtype : Dtype
  shape : List Nat
  deriving DecidableEq

/-- A contiguous tensor as its bytes. -/
structure RawTensor where
  dtype : Dtype
  shape : List Nat
  bytes : List UInt8
  length_bytes : bytes.length = dtype.itemsize * shape.prod
  deriving DecidableEq

/-- `_align_size`. -/
def alignSize (dtype : Dtype) (shape : List Nat) : Nat :=
  (dtype.itemsize * shape.prod + 256 - 1) / 256 * 256

def ParameterMeta.size (m : ParameterMeta) : Nat := alignSize m.dtype m.shape

/-- `ParameterMeta(name=name, shape=tensor.shape, dtype=tensor.dtype)`. -/
def metaOf (name : String) (tensor : RawTensor) : ParameterMeta := ⟨name, tensor.dtype, tensor.shape⟩

/-- `FlattenedTensorMetadata`. -/
structure FlattenedTensorMetadata where
  name : String
  dtype : Dtype
  shape : List Nat
  offset : Nat
  deriving DecidableEq

/-- `_to_named_tensor`. -/
def toNamedTensor : List ParameterMeta → Nat → List FlattenedTensorMetadata
  | [], _ => []
  | m :: metas, offset =>
    ⟨m.name, m.dtype, m.shape, offset⟩ :: toNamedTensor metas (offset + m.size)

/-- One tensor of `_extract_weights`: `none` where a view cannot be made. -/
def extractWeight (buffer : List UInt8) (item : FlattenedTensorMetadata) :
    Option (String × RawTensor) :=
  let bytes := readAt buffer item.offset (item.dtype.itemsize * item.shape.prod)
  if h : bytes.length = item.dtype.itemsize * item.shape.prod then
    if item.offset % item.dtype.itemsize = 0 then
      some (item.name, ⟨item.dtype, item.shape, bytes, h⟩)
    else none
  else none

/-- `_extract_weights`. -/
def extractWeights (payload : List FlattenedTensorMetadata) (buffer : List UInt8) :
    Option (List (String × RawTensor)) :=
  payload.mapM (extractWeight buffer)

/-! Registration -/

/-- `MemoryBucket`. -/
structure MemoryBucket where
  size : Nat
  metas : List ParameterMeta

/-- `MemoryBuffer`. -/
structure MemoryBuffer where
  buffer : List UInt8
  size : Nat
  metas : List ParameterMeta

/-- `buckets` of `_register_checkpoint`, the last one apart. -/
structure MemoryBuckets where
  closed : List MemoryBucket
  last : MemoryBucket

def MemoryBuckets.all (b : MemoryBuckets) : List MemoryBucket := b.closed ++ [b.last]

/-- One round of the loop that fills the buckets. -/
def MemoryBuckets.add (bucketSize : Nat) (b : MemoryBuckets) (p : String × RawTensor) :
    MemoryBuckets :=
  let size := alignSize p.2.dtype p.2.shape
  let b := if b.last.size + size > bucketSize then ⟨b.closed ++ [b.last], ⟨0, []⟩⟩ else b
  { b with last := ⟨b.last.size + size, b.last.metas ++ [metaOf p.1 p.2]⟩ }

/-- The `bucket_size` of `_register_checkpoint`; there is no largest tensor of none. -/
def registerBucketSize (parameters : Dict String RawTensor) : Option Nat :=
  (parameters.items.map fun p => alignSize p.2.dtype p.2.shape).max?.map (max (4 * 2 ^ 30))

/-- A call of `register_tensor` that is handed to the thread pool. -/
structure Write where
  idx : Nat
  offset : Nat
  tensor : RawTensor

/-- The calls for the tensors of a bucket. -/
def registerTensors (parameters : Dict String RawTensor) (idx : Nat) :
    List ParameterMeta → Nat → Option (List Write)
  | [], _ => some []
  | m :: metas, offset => do
    let tensor ← parameters.lookup m.name
    let size := alignSize tensor.dtype tensor.shape
    if size = m.size then
      let writes ← registerTensors parameters idx metas (offset + size)
      return ⟨idx, offset, tensor⟩ :: writes
    else none

/-- `register_tensor`. -/
def Write.apply (buffer : List UInt8) (w : Write) : List UInt8 :=
  writeAt buffer w.offset w.tensor.bytes

/-- `_register_checkpoint`: `loaded` are the parameters of the files, where there are files;
`alloc` is what a new buffer of a size holds; `order` is the order in which the threads come to
the calls. -/
def registerCheckpoint (alloc : Nat → Nat → List UInt8) (order : List Write → List Write)
    (loaded : Option (Dict String RawTensor)) (namedTensors : Dict String RawTensor) :
    Option (List MemoryBuffer) :=
  if loaded = none ∧ namedTensors = ∅ then some []
  else do
    let parameters := (loaded.getD ∅).setAll namedTensors.items
    let bucketSize ← registerBucketSize parameters
    let buckets := (parameters.sortKeys.items.foldl (MemoryBuckets.add bucketSize) ⟨[], ⟨0, []⟩⟩).all
    let writes ← buckets.zipIdx.mapM fun b => registerTensors parameters b.2 b.1.metas 0
    let ordered := order writes.flatten
    return buckets.zipIdx.map fun b =>
      ⟨(ordered.filter (·.idx = b.2)).foldl Write.apply (alloc b.2 b.1.size), b.1.size, b.1.metas⟩

/-! Buckets for the way to the devices -/

/-- `BucketRange`. -/
structure BucketRange where
  idx : Nat
  offset : Nat
  size : Nat
  deriving DecidableEq

/-- `H2DBucket`. -/
structure H2DBucket where
  size : Nat
  ranges : List BucketRange
  items : List ParameterMeta
  deriving DecidableEq

def H2DBucket.empty : H2DBucket := ⟨0, [], []⟩

/-- The variables of the loops of `_gen_h2d_buckets` for one owner, the last bucket apart. -/
structure GenState where
  closed : List H2DBucket
  last : H2DBucket
  startOffset : Nat
  offset : Nat

/-- The range from `start_offset` to `offset`. -/
def GenState.pending (idx : Nat) (s : GenState) : BucketRange :=
  ⟨idx, s.startOffset, s.offset - s.startOffset⟩

/-- `buckets[-1][1].ranges.append(...)`. -/
def H2DBucket.addRange (b : H2DBucket) (r : BucketRange) : H2DBucket :=
  { b with ranges := b.ranges ++ [r] }

/-- One round of the loop over the metas of a buffer. -/
def GenState.addMeta (bucketSize idx : Nat) (s : GenState) (m : ParameterMeta) : GenState :=
  let s :=
    if s.last.size + m.size > bucketSize then
      let last :=
        if s.offset - s.startOffset > 0 then s.last.addRange (s.pending idx) else s.last
      { closed := s.closed ++ [last], last := .empty, startOffset := s.offset, offset := s.offset }
    else s
  { s with
    offset := s.offset + m.size
    last := { s.last with size := s.last.size + m.size, items := s.last.items ++ [m] } }

/-- One round of the loop over the buffers of an owner. -/
def GenState.addBuffer (bucketSize : Nat) (s : GenState) (buffer : List ParameterMeta × Nat) :
    GenState :=
  let s := buffer.1.foldl (GenState.addMeta bucketSize buffer.2)
    { s with startOffset := 0, offset := 0 }
  { s with last := s.last.addRange (s.pending buffer.2) }

/-- The buckets of one owner. -/
def ownerBuckets (bucketSize : Nat) (buffers : List (List ParameterMeta)) :
    Option (List H2DBucket) :=
  let s := buffers.zipIdx.foldl (GenState.addBuffer bucketSize) ⟨[], .empty, 0, 0⟩
  if s.last.size > 0 then some (s.closed ++ [s.last]) else none

/-! Receivers -/

/-- `rank_to_rdma_device`; a topology has the ranks of each device. -/
def rankToRdmaDevice (remoteTopo : Dict String (List Nat)) : Dict Nat String :=
  (∅ : Dict Nat String).setAll
    (remoteTopo.items.flatMap fun e => e.2.map fun rank => (rank, e.1))

/-- The variables of the `while` loop of `_assign_receiver_ranks`: the buckets that have no
receiver yet, and those that have one. -/
structure AssignState (T : Type) where
  rest : List (Nat × T)
  assigned : List (Nat × Nat × T)

/-- The `for` loop over the receivers: it ends where no bucket is left or the next one lies behind a
device that is occupied. -/
def assignRound {T : Type} (device : Nat → Option String) :
    List Nat → List String → AssignState T → Option (AssignState T)
  | [], _, s => some s
  | receiver :: receivers, occupied, s =>
    match s.rest with
    | [] => some s
    | (owner, bucket) :: rest => do
      let rdmaDevice ← device owner
      if rdmaDevice ∈ occupied then return s
      else
        assignRound device receivers (rdmaDevice :: occupied)
          ⟨rest, s.assigned ++ [(receiver, owner, bucket)]⟩

/-- `_assign_receiver_ranks`; `none` where it raises or the fuel of its loop is out. -/
def assignReceiverRanks {T : Type} (fuel : Nat) (buckets : List (Nat × T))
    (localTopo remoteTopo : Dict String (List Nat)) : Option (List (Nat × Nat × T)) :=
  if buckets = [] then some []
  else do
    let device := (rankToRdmaDevice remoteTopo).lookup
    let _ ← buckets.mapM fun b => device b.1
    let matrix := (Dict.groupBy (fun b => device b.1) buckets).items.map Prod.snd
    let numReceivers := min localTopo.items.length matrix.length
    let receivers ← ((localTopo.items.map Prod.snd).take numReceivers).mapM fun ranks => ranks.min?
    let flattened := byColumns ((matrix.map List.length).max?.getD 0) matrix
    let loop ← whileLoop (fun s => s.rest ≠ []) (assignRound device receivers [])
      fuel ⟨flattened, []⟩
    return loop.2.assigned

/-- `_gen_h2d_buckets`; `globalMetas` has, for each rank, the metas of its memory buffers. -/
def genH2dBuckets (fuel : Nat) (globalMetas : Dict Nat (List (List ParameterMeta)))
    (bucketSize : Nat) (localTopo remoteTopo : Dict String (List Nat)) (ranks : List Nat) :
    Option (List (Nat × Nat × H2DBucket)) := do
  let owned ← globalMetas.items.mapM fun e =>
    (ownerBuckets bucketSize e.2).map fun buckets => buckets.map fun b => (e.1, b)
  let buckets := owned.flatten
  if ranks = [] then return buckets.map fun b => (b.1, b.1, b.2)
  else
    let actualLocalTopo := localTopo.items.filterMap fun e =>
      let members := e.2.filter (· ∈ ranks)
      if members = [] then none else some (e.1, members)
    assignReceiverRanks fuel buckets ((∅ : Dict String (List Nat)).setAll actualLocalTopo) remoteTopo

/-! Copies -/

/-- `_copy_to_buffer`: the ranges of a bucket one behind the other, read from the memory pool of
the owner; `none` where it raises. -/
def copyRanges (pool : List (List UInt8)) (bucketSize : Nat) :
    List BucketRange → List UInt8 → Option (List UInt8)
  | [], copied => if copied.length = bucketSize then some copied else none
  | r :: ranges, copied =>
    if copied.length + r.size ≤ bucketSize then do
      let buffer ← pool[r.idx]?
      let bytes := readAt buffer r.offset r.size
      if bytes.length = r.size then copyRanges pool bucketSize ranges (copied ++ bytes) else none
    else none

def copyToBuffer (pool : List (List UInt8)) (bucket : H2DBucket) : Option (List UInt8) :=
  copyRanges pool bucket.size bucket.ranges []

end Belayer.Weights.Ps
