import Belayer.Framework.Run
import Belayer.Weights.ParameterServer

namespace Belayer.Weights.Ps

open Belayer.Framework

/-! An update: every rank's server and the worker of its engine, in any order of their steps -/

/-- What an update is about: `buckets` is what `_gen_h2d_buckets` returns, `members` are the ranks
that take part, `ranks` is the argument of that name. -/
structure Plan where
  bucketSize : Nat
  pools : Nat → List (List UInt8)
  buckets : List (Nat × Nat × H2DBucket)
  ranks : List Nat
  members : List Nat
  disableH2dBuffer : Bool

/-- What `gather_metas` leaves in `_current_global_parameter_metas`: the metas of the ranks that have
memory buffers for the checkpoint. -/
def gatherMetas (pool : Nat → List MemoryBuffer) (worldSize : Nat) :
    Dict Nat (List (List ParameterMeta)) :=
  (∅ : Dict Nat (List (List ParameterMeta))).setAll
    (((List.range worldSize).filter fun i => !(pool i).isEmpty).map fun i =>
      (i, (pool i).map MemoryBuffer.metas))

/-- `_detect_bucket_size`, after the ranks have agreed on the free memory: the size of a bucket, and
whether to do without the h2d buffer; `none` where a tensor does not fit. -/
def detectBucketSize (freeBytes maxTensorBytes psMaxBucketSizeGb : Nat) (disableH2dBuffer : Bool) :
    Option (Nat × Bool) :=
  let maxBytes := psMaxBucketSizeGb * 2 ^ 30
  let freeBytesDivided3 := freeBytes / (3 * 256) * 256
  if maxTensorBytes ≤ freeBytesDivided3 ∧ !disableH2dBuffer then
    some (min (max maxBytes maxTensorBytes) freeBytesDivided3, disableH2dBuffer)
  else
    let freeBytes := freeBytes / (2 * 256) * 256
    if maxTensorBytes ≤ freeBytes then some (min (max maxBytes maxTensorBytes) freeBytes, true)
    else none

/-- `max_tensor_bytes`. -/
def maxTensorBytes (globalMetas : Dict Nat (List (List ParameterMeta))) : Nat :=
  (globalMetas.items.flatMap fun e => e.2.flatten.map ParameterMeta.size).foldr max 0

/-- What `_update_per_bucket` settles before its loops. -/
def updatePlan (fuel : Nat) (pool : Nat → List MemoryBuffer)
    (worldSize freeBytes psMaxBucketSizeGb : Nat) (localTopo remoteTopo : Dict String (List Nat))
    (ranks : List Nat) : Option Plan :=
  let globalMetas := gatherMetas pool worldSize
  if globalMetas = ∅ then none
  else do
    let (bucketSize, disableH2dBuffer) ←
      detectBucketSize freeBytes (maxTensorBytes globalMetas) psMaxBucketSizeGb false
    let buckets ← genH2dBuckets fuel globalMetas bucketSize localTopo remoteTopo ranks
    return {
      bucketSize := bucketSize
      pools := fun i => (pool i).map MemoryBuffer.buffer
      buckets := buckets
      ranks := ranks
      members := if ranks = [] then List.range worldSize else ranks
      disableH2dBuffer := disableH2dBuffer }

/-- One bucket in the loops of `_update_per_bucket`. -/
structure Turn where
  i : Nat
  receiver : Nat
  bucket : H2DBucket

/-- `receiver_rank_buckets` of a rank. -/
def Plan.receiverRankBuckets (plan : Plan) (rank : Nat) : List (Nat × H2DBucket) :=
  (plan.buckets.filter (·.1 = rank)).map Prod.snd

/-- `buckets_by_receiver_rank`. -/
def Plan.bucketsByReceiverRank (plan : Plan) : List (Nat × List H2DBucket) :=
  (Dict.groupBy (fun b => some b.1) plan.buckets).items.map fun e => (e.1, e.2.map fun b => b.2.2)

/-- `max_len`. -/
def Plan.maxLen (plan : Plan) : Nat :=
  (plan.bucketsByReceiverRank.map fun e => e.2.length).max?.getD 0

/-- The rounds of the inner loop, one after the other; `gidx` counts them. -/
def Plan.turns (plan : Plan) : List Turn :=
  (List.range plan.maxLen).flatMap fun i =>
    plan.bucketsByReceiverRank.filterMap fun e => e.2[i]?.map fun bucket => ⟨i, e.1, bucket⟩

/-- The bytes that the receiver of a turn has for it: from `h2d_buffer`, which was filled at the
start of the round of the outer loop, or without one from the memory pool of the receiver. -/
def Plan.fill (plan : Plan) (t : Turn) : Option (List UInt8) :=
  if plan.disableH2dBuffer then copyToBuffer (plan.pools t.receiver) t.bucket
  else do
    let (owner, bucket) ← (plan.receiverRankBuckets t.receiver)[t.i]?
    let h2dBuffer ← copyToBuffer
      (plan.pools (if plan.ranks = [] then t.receiver else owner)) bucket
    return h2dBuffer.take t.bucket.size

/-- Where the half of the buffer begins that a turn uses. -/
def Plan.start (plan : Plan) (gidx : Nat) : Nat := gidx % 2 * plan.bucketSize

/-- Where a server is: before it sends the handle, before the broadcast of a turn and before what
follows it in the turn, and before what follows the loops. -/
inductive ServerAt where
  | handle
  | broadcast (gidx : Nat)
  | recv (gidx : Nat)
  | barrier (gidx : Nat)
  | send (gidx : Nat)
  | lastRecv
  | sendNone
  | doneRecv
  | lastBarrier
  | closed
  deriving DecidableEq

/-- The payloads that a worker receives. -/
inductive Message where
  | handle
  | tensors (items : List FlattenedTensorMetadata)
  | done
  deriving DecidableEq

/-- Where a worker is: before `recv_pyobj`, in `run` with these tensors to come, or out of its loop. -/
inductive WorkerAt where
  | recv
  | run (rest : List FlattenedTensorMetadata)
  | closed
  deriving DecidableEq

/-- A rank: its server, the buffer that it shares with the worker, the two directions of the socket,
the worker, whether it has mapped the buffer, and the weights that it has loaded. -/
structure RankState where
  server : ServerAt
  buffer : List UInt8
  toWorker : Option Message
  toServer : Bool
  worker : WorkerAt
  mapped : Bool
  loaded : List (String × RawTensor)

/-- How many statements of a server have gone by. -/
def Plan.pos (plan : Plan) : ServerAt → Nat
  | .handle => 0
  | .broadcast gidx => 4 * gidx + 1
  | .recv gidx => 4 * gidx + 2
  | .barrier gidx => 4 * gidx + 3
  | .send gidx => 4 * gidx + 4
  | .lastRecv => 4 * plan.turns.length + 1
  | .sendNone => 4 * plan.turns.length + 2
  | .doneRecv => 4 * plan.turns.length + 3
  | .lastBarrier => 4 * plan.turns.length + 4
  | .closed => 4 * plan.turns.length + 5

/-- The start of a turn, or what follows the loops. -/
def Plan.turnAt (plan : Plan) (gidx : Nat) : ServerAt :=
  if gidx < plan.turns.length then .broadcast gidx else .lastRecv

/-- `dist.broadcast` on a rank: the receiver's own bytes, or what the receiver has in its buffer
once it has come to this broadcast. -/
def Plan.broadcastBytes (plan : Plan) (st : Nat → RankState) (rank gidx : Nat) (t : Turn) :
    Option (List UInt8) :=
  if t.receiver = rank then plan.fill t
  else if plan.pos (st t.receiver).server > plan.pos (.broadcast gidx) then
    some (readAt (st t.receiver).buffer (plan.start gidx) t.bucket.size)
  else none

/-- Every rank has come to a statement. -/
def Plan.Arrived (plan : Plan) (st : Nat → RankState) (at' : ServerAt) : Prop :=
  ∀ rank ∈ plan.members, plan.pos at' ≤ plan.pos (st rank).server

instance (plan : Plan) (st : Nat → RankState) (at' : ServerAt) : Decidable (plan.Arrived st at') :=
  inferInstanceAs (Decidable (∀ rank ∈ plan.members, _))

/-- The next statement of a server; `none` where it waits or raises. -/
def Plan.serverStep (plan : Plan) (st : Nat → RankState) (rank : Nat) : Option RankState :=
  let s := st rank
  match s.server with
  | .handle => some { s with toWorker := some .handle, server := plan.turnAt 0 }
  | .broadcast gidx => do
    let t ← plan.turns[gidx]?
    let bytes ← plan.broadcastBytes st rank gidx t
    return { s with buffer := writeAt s.buffer (plan.start gidx) bytes, server := .recv gidx }
  | .recv gidx => if s.toServer then some { s with toServer := false, server := .barrier gidx } else none
  | .barrier gidx =>
    if plan.Arrived st (.barrier gidx) then some { s with server := .send gidx } else none
  | .send gidx => do
    let t ← plan.turns[gidx]?
    return { s with
      toWorker := some (.tensors (toNamedTensor t.bucket.items (plan.start gidx)))
      server := plan.turnAt (gidx + 1) }
  | .lastRecv => if s.toServer then some { s with toServer := false, server := .sendNone } else none
  | .sendNone => some { s with toWorker := some .done, server := .doneRecv }
  | .doneRecv =>
    if s.toServer then some { s with toServer := false, server := .lastBarrier } else none
  | .lastBarrier => if plan.Arrived st .lastBarrier then some { s with server := .closed } else none
  | .closed => none

/-- The next step of `update_weights_from_ipc`: `run` takes the tensors one by one from the memory
as it is then. -/
def workerStep (s : RankState) : Option RankState :=
  match s.worker with
  | .recv =>
    match s.toWorker with
    | none => none
    | some .handle => some { s with toWorker := none, mapped := true, toServer := true }
    | some (.tensors items) =>
      if s.mapped then some { s with toWorker := none, worker := .run items } else none
    | some .done => some { s with toWorker := none, worker := .closed, toServer := true }
  | .run (item :: rest) => do
    let weight ← extractWeight s.buffer item
    return { s with loaded := s.loaded ++ [weight], worker := .run rest }
  | .run [] => some { s with worker := .recv, toServer := true }
  | .closed => none

/-- A step of a rank's server or of its worker. -/
inductive UpdateStep where
  | server (rank : Nat)
  | worker (rank : Nat)
  deriving DecidableEq

def UpdateStep.rank : UpdateStep → Nat
  | .server rank => rank
  | .worker rank => rank

/-- One step of a rank that takes part. -/
def Plan.next (plan : Plan) (st : Nat → RankState) (a : UpdateStep) : Option (Nat → RankState) :=
  if a.rank ∈ plan.members then
    (match a with
      | .server rank => plan.serverStep st rank
      | .worker rank => workerStep (st rank)).map fun s => Function.update st a.rank s
  else none

/-- Every rank has its buffer, with whatever lies in it. -/
def rankInit (alloc : Nat → List UInt8) (rank : Nat) : RankState :=
  { server := .handle, buffer := alloc rank, toWorker := none
    toServer := false, worker := .recv, mapped := false, loaded := [] }

end Belayer.Weights.Ps
