import Belayer.Pool.SweEnvPool
import Belayer.Exec.CheckpointNode
import Belayer.Framework.Run

namespace Belayer.Pool

open Belayer.Framework Belayer.Exec

/-- A checkpoint record on an exec node. -/
structure NodeRecord where
  url : String
  record : CheckpointRecord
  deriving DecidableEq

/-- Where the node stands with a create: the record with the status it has been given
last, and the answer. -/
inductive CreateSide where
  | sent
  | made (checkpointId : String) (status : CheckpointStatus)
  | answered (checkpointId : String) (status : CheckpointStatus)
  | refused
  deriving DecidableEq

/-- `checkpoint_create` with its payload; it holds the lifecycle lock while waiting. -/
structure CreateCall where
  payload : CreateRequest
  side : CreateSide
  waiting : Bool
  deriving DecidableEq

inductive DropRequest where
  | delete (checkpointId : String)
  | gc (keepLatest : Int) (dryRun : Bool)
  deriving DecidableEq

/-- Where a delete or the collection of a lease stands: its request is out, the listing is
out, the listing is there. -/
inductive DropPhase where
  | requested
  | refreshing
  | listed (checkpoints : List CheckpointRecord)
  | done
  deriving DecidableEq

/-- `checkpoint_delete` or `checkpoint_gc` of a lease; `processed` is the node's answer.
Neither takes the lifecycle lock. -/
structure DropCall where
  leaseId : String
  request : DropRequest
  processed : Option Bool
  phase : DropPhase
  deriving DecidableEq

/-- `rerun`; it holds the lifecycle lock while waiting. -/
structure RerunCall where
  leaseId : String
  waiting : Bool
  deriving DecidableEq

/-- The deletions that the worker of a collection has still to do. -/
structure GcJob where
  url : String
  checkpointIds : List String
  deriving DecidableEq

/-- The leases of the pool, the records on the nodes, and the calls in between. -/
structure PoolCheckpoints where
  leases : Dict String Lease
  records : List NodeRecord
  creates : List CreateCall
  drops : List DropCall
  reruns : List RerunCall
  jobs : List GcJob

inductive CheckpointCall where
  | allocate (leaseId nodeUrl containerId image : String)
  | create (leaseId : String) (stepIdx : Int) (checkpointBackend : CheckpointBackend)
      (parentCheckpointId : Option String)
  | makeRecord (i : Nat) (checkpointId : String) (createdAt : Rat)
  | settleRecord (i : Nat) (status : CheckpointStatus)
  | answerCreate (i : Nat)
  | refuseCreate (i : Nat)
  | replyCreate (i : Nat)
  | failCreate (i : Nat)
  | drop (leaseId : String) (request : DropRequest)
  | processDrop (i : Nat) (activeImages : List String)
  | replyDrop (i : Nat)
  | listDrop (i : Nat)
  | refreshDrop (i : Nat)
  | failDrop (i : Nat)
  | gcNode (url : String) (keepLatest : Int) (activeImages : List String)
  | collect (j : Nat)
  | rerun (leaseId : String)
  | replyRerun (i : Nat) (containerId : Option String)

namespace CreateSide

/-- The record of a create, from when it is made. -/
def checkpointId? : CreateSide → Option String
  | .made checkpointId _ | .answered checkpointId _ => some checkpointId
  | .sent | .refused => none

/-- The node is done with the create. -/
def isFinished : CreateSide → Bool
  | .answered _ _ | .refused => true
  | .sent | .made _ _ => false

end CreateSide

namespace PoolCheckpoints

def init : PoolCheckpoints := ⟨∅, [], [], [], [], []⟩

/-- The records of a lease on a node. -/
def recordsOf (s : PoolCheckpoints) (url leaseId : String) : List CheckpointRecord :=
  (s.records.filter fun q => q.url = url ∧ q.record.leaseId = leaseId).map (·.record)

def recordsOn (s : PoolCheckpoints) (url : String) : List CheckpointRecord :=
  (s.records.filter (·.url = url)).map (·.record)

def isFree (s : PoolCheckpoints) (leaseId : String) : Bool :=
  s.creates.all (fun c => !c.waiting || c.payload.leaseId ≠ leaseId) &&
    s.reruns.all (fun c => !c.waiting || c.leaseId ≠ leaseId)

def removeRecord (s : PoolCheckpoints) (url checkpointId : String) : PoolCheckpoints :=
  { s with
    records := s.records.filter fun q => ¬(q.url = url ∧ q.record.checkpointId = checkpointId) }

def setStatus (s : PoolCheckpoints) (checkpointId : String) (status : CheckpointStatus) :
    PoolCheckpoints :=
  { s with
    records := s.records.map fun q =>
      if q.record.checkpointId = checkpointId then
        { q with record := { q.record with status := status } }
      else q }

def setLease (s : PoolCheckpoints) (leaseId : String) (lease : Lease) : PoolCheckpoints :=
  { s with leases := AList.insert leaseId lease s.leases }

def setCreate (s : PoolCheckpoints) (i : Nat) (c : CreateCall) : PoolCheckpoints :=
  { s with creates := s.creates.set i c }

def setDrop (s : PoolCheckpoints) (i : Nat) (d : DropCall) : PoolCheckpoints :=
  { s with drops := s.drops.set i d }

/-- No record and no create has the id. -/
def Fresh (s : PoolCheckpoints) (checkpointId : String) : Prop :=
  (∀ q ∈ s.records, q.record.checkpointId ≠ checkpointId) ∧
    ∀ c ∈ s.creates, c.side.checkpointId? ≠ some checkpointId

instance (s : PoolCheckpoints) (checkpointId : String) : Decidable (s.Fresh checkpointId) :=
  inferInstanceAs (Decidable (_ ∧ _))

/-- What the node does with a delete or a collection; `false` is an answer that is not ok. -/
def process (s : PoolCheckpoints) (url : String) (d : DropCall) (activeImages : List String) :
    PoolCheckpoints × Bool :=
  match d.request with
  | .delete checkpointId =>
    match (s.recordsOn url).find? (·.checkpointId = checkpointId) with
    | none => (s, false)
    | some record =>
      if record.status = .pending then (s, false) else (s.removeRecord url checkpointId, true)
  | .gc keepLatest dryRun =>
    let deletions :=
      Gc.plan (Gc.ascending (s.recordsOf url d.leaseId)) keepLatest.toNat activeImages
    if dryRun then (s, true)
    else ({ s with jobs := s.jobs ++ [⟨url, deletions.map (·.checkpointId)⟩] }, true)

/-- The reply to a create is looked at only if the lease still has the container and the
generation of the checkpoint. -/
def replyCreate (s : PoolCheckpoints) (c : CreateCall) : PoolCheckpoints :=
  match c.side, s.leases.lookup c.payload.leaseId with
  | .answered checkpointId .ready, some lease =>
    if (c.payload.containerId = "" ∨ lease.containerId = c.payload.containerId) ∧
        lease.generation = c.payload.generation then
      s.setLease c.payload.leaseId (lease.advance checkpointId c.payload.stepIdx)
    else s
  | _, _ => s

def next (s : PoolCheckpoints) : CheckpointCall → Option PoolCheckpoints
  | .allocate leaseId nodeUrl containerId image =>
    if leaseId ∈ s.leases ∨ ∃ q ∈ s.records, q.record.leaseId = leaseId then none
    else some (s.setLease leaseId (.start nodeUrl containerId image))
  | .create leaseId stepIdx checkpointBackend parentCheckpointId =>
    match s.leases.lookup leaseId with
    | none => some s
    | some lease =>
      if s.isFree leaseId then
        some { s with
          creates := s.creates ++ [⟨⟨leaseId, lease.generation, lease.containerId, stepIdx,
            checkpointBackend, parentCheckpointId⟩, .sent, true⟩] }
      else none
  | .makeRecord i checkpointId createdAt =>
    match s.creates[i]? with
    | none => none
    | some c =>
      match c.side, s.leases.lookup c.payload.leaseId with
      | .sent, some lease =>
        if s.Fresh checkpointId then
          some { s with
            records := s.records ++
              [⟨lease.nodeUrl, c.payload.newRecord lease.image checkpointId createdAt⟩]
            creates := s.creates.set i { c with side := .made checkpointId .pending } }
        else none
      | _, _ => none
  | .settleRecord i status =>
    match s.creates[i]? with
    | none => none
    | some c =>
      match c.side with
      | .made checkpointId _ =>
        if status = .pending then none
        else some ((s.setStatus checkpointId status).setCreate i
          { c with side := .made checkpointId status })
      | _ => none
  | .answerCreate i =>
    match s.creates[i]? with
    | none => none
    | some c =>
      match c.side with
      | .made checkpointId status =>
        if status = .pending then none
        else some (s.setCreate i { c with side := .answered checkpointId status })
      | _ => none
  | .refuseCreate i =>
    match s.creates[i]? with
    | none => none
    | some c => if c.side = .sent then some (s.setCreate i { c with side := .refused }) else none
  | .replyCreate i =>
    match s.creates[i]? with
    | none => none
    | some c =>
      if c.waiting ∧ c.side.isFinished then
        some ((s.replyCreate c).setCreate i { c with waiting := false })
      else none
  | .failCreate i =>
    match s.creates[i]? with
    | none => none
    | some c => if c.waiting then some (s.setCreate i { c with waiting := false }) else none
  | .drop leaseId request =>
    if leaseId ∈ s.leases then
      some { s with drops := s.drops ++ [⟨leaseId, request, none, .requested⟩] }
    else some s
  | .processDrop i activeImages =>
    match s.drops[i]? with
    | none => none
    | some d =>
      match d.processed, s.leases.lookup d.leaseId with
      | none, some lease =>
        let processed := s.process lease.nodeUrl d activeImages
        some (processed.1.setDrop i { d with processed := some processed.2 })
      | _, _ => none
  | .replyDrop i =>
    match s.drops[i]? with
    | none => none
    | some d =>
      match d.phase, d.processed with
      | .requested, some ok =>
        some (s.setDrop i { d with phase := if ok then .refreshing else .done })
      | _, _ => none
  | .listDrop i =>
    match s.drops[i]? with
    | none => none
    | some d =>
      match d.phase, s.leases.lookup d.leaseId with
      | .refreshing, some lease =>
        some (s.setDrop i { d with
          phase := .listed (Gc.ascending (s.recordsOf lease.nodeUrl d.leaseId)) })
      | _, _ => none
  | .refreshDrop i =>
    match s.drops[i]? with
    | none => none
    | some d =>
      match d.phase, s.leases.lookup d.leaseId with
      | .listed checkpoints, some lease =>
        some ((s.setLease d.leaseId (lease.refresh checkpoints)).setDrop i
          { d with phase := .done })
      | _, _ => none
  | .failDrop i =>
    match s.drops[i]? with
    | none => none
    | some d => if d.phase = .done then none else some (s.setDrop i { d with phase := .done })
  | .gcNode url keepLatest activeImages =>
    let deletions := Gc.plan (Gc.ascending (s.recordsOn url)) keepLatest.toNat activeImages
    some { s with jobs := s.jobs ++ [⟨url, deletions.map (·.checkpointId)⟩] }
  | .collect j =>
    match s.jobs[j]? with
    | none => none
    | some job =>
      match job.checkpointIds with
      | [] => none
      | checkpointId :: rest =>
        let removed := s.removeRecord job.url checkpointId
        some { removed with jobs := s.jobs.set j { job with checkpointIds := rest } }
  | .rerun leaseId =>
    match s.leases.lookup leaseId with
    | none => some s
    | some _ =>
      if s.isFree leaseId then some { s with reruns := s.reruns ++ [⟨leaseId, true⟩] } else none
  | .replyRerun i containerId =>
    match s.reruns[i]? with
    | none => none
    | some c =>
      if c.waiting then
        let finished := { s with reruns := s.reruns.set i { c with waiting := false } }
        match containerId, s.leases.lookup c.leaseId with
        | some containerId, some lease =>
          some (finished.setLease c.leaseId (lease.rerun containerId))
        | _, _ => some finished
      else none

end PoolCheckpoints

end Belayer.Pool
