import Belayer.Exec.Create
import Belayer.Exec.Gc
import Belayer.Exec.Rerun
import Belayer.Framework.Dict

namespace Belayer.Exec

open Belayer.Framework

structure CreateRequest where
  leaseId : String
  generation : Int
  containerId : String
  stepIdx : Int
  checkpointBackend : CheckpointBackend
  parentCheckpointId : Option String
  deriving DecidableEq

/-- The image tag of a checkpoint; its id has no character that a tag may not have. -/
def checkpointImageTag (checkpointId : String) : String := "sweckpt:" ++ checkpointId

/-- The record that a create makes of a container with the given image. -/
def CreateRequest.newRecord (request : CreateRequest) (image checkpointId : String)
    (createdAt : Rat) : CheckpointRecord where
  checkpointId := checkpointId
  checkpointBackend := request.checkpointBackend
  leaseId := request.leaseId
  generation := request.generation
  image := image
  checkpointImage :=
    match request.checkpointBackend with
    | .legacy => some (checkpointImageTag checkpointId)
    | .full => none
  parentCheckpointId := request.parentCheckpointId
  stepIdx := request.stepIdx
  createdAt := createdAt
  status := .pending

/-- A create, with the image that its container was started from. -/
structure CreateTask where
  request : CreateRequest
  image : String
  create : Create
  deriving DecidableEq

/-- A rerun; `registered` once its new container is in `_active_containers`. -/
structure RerunTask where
  request : RerunRequest
  phase : RerunPhase
  registered : Bool
  deriving DecidableEq

/-- Where a collection stands: the records are listed, and in the worker the artifacts or
the record of the first item are next. -/
inductive GcPhase where
  | listed (records : List CheckpointRecord)
  | deleting (items : List CheckpointRecord)
  | deletingRecord (items : List CheckpointRecord)
  | done
  deriving DecidableEq

structure GcTask where
  leaseId : Option String
  keepLatest : Nat
  dryRun : Bool
  taskKey : String
  phase : GcPhase
  deriving DecidableEq

/-- The checkpoints of a node, the containers that are alive, the image that each
container was started from, `_active_containers` with their images, and all requests. -/
structure CheckpointNode where
  manager : CheckpointManager
  containers : List String
  images : Dict String String
  activeContainers : Dict String String
  creates : List CreateTask
  reruns : List RerunTask
  gcs : List GcTask
  gcTasksInflight : List String

inductive NodeCheckpointAction where
  | receiveCreate (request : CreateRequest)
  | record (i : Nat) (checkpointId opId : String) (createdAt : Rat) (persisted : Bool)
  | create (i : Nat) (result : StepResult)
  | receiveRerun (request : RerunRequest)
  | rerun (i : Nat) (action : RerunAction)
  | register (i : Nat)
  | endContainer (containerId : String)
  | deleteRecord (checkpointId : String)
  | list (leaseId : Option String) (keepLatest : Int) (dryRun : Bool)
  | plan (j : Nat)
  | removeArtifacts (j : Nat) (raised : Bool)
  | removeRecord (j : Nat) (raised : Bool)

/-- The image that a rerun starts its container from. -/
def CheckpointRecord.restoredImage (r : CheckpointRecord) : String :=
  match r.checkpointBackend with
  | .legacy => r.checkpointImage.getD ""
  | .full => r.image

namespace GcPhase

/-- The planned deletions that are not done. -/
def items : GcPhase → List CheckpointRecord
  | .deleting items | .deletingRecord items => items
  | .listed _ | .done => []

def listing : GcPhase → List CheckpointRecord
  | .listed records => records
  | .deleting _ | .deletingRecord _ | .done => []

end GcPhase

namespace CheckpointNode

/-- `_load`: a later file with the same id replaces the earlier one. -/
def load (records : List CheckpointRecord) : List CheckpointRecord :=
  records.foldl
    (fun loaded r =>
      if loaded.any (·.checkpointId = r.checkpointId) then
        loaded.map fun q => if q.checkpointId = r.checkpointId then r else q
      else loaded ++ [r])
    []

def init (maxInflight : Int) (records : List CheckpointRecord) (containers : List String)
    (images activeContainers : Dict String String) : CheckpointNode :=
  ⟨.init maxInflight (load records), containers, images, activeContainers, [], [], [], []⟩

/-- The ids are new, to the listings too. -/
def Fresh (s : CheckpointNode) (checkpointId opId : String) : Prop :=
  (∀ r ∈ s.manager.checkpoints, r.checkpointId ≠ checkpointId) ∧
    (∀ o ∈ s.manager.ops, o.opId ≠ opId) ∧
    (∀ t ∈ s.creates, t.create.checkpointId ≠ some checkpointId ∧ t.create.opId ≠ some opId) ∧
    ∀ t ∈ s.gcs, ∀ r ∈ t.phase.listing ++ t.phase.items, r.checkpointId ≠ checkpointId

instance (s : CheckpointNode) (checkpointId opId : String) :
    Decidable (s.Fresh checkpointId opId) :=
  inferInstanceAs (Decidable (_ ∧ _ ∧ _ ∧ _))

/-- A parent is ready and of the same lease. -/
def parentValid (s : CheckpointNode) (request : CreateRequest) : Bool :=
  match request.parentCheckpointId with
  | none => true
  | some p =>
    match s.manager.getCheckpoint p with
    | none => false
    | some parent => parent.status = .ready ∧ parent.leaseId = request.leaseId

/-- The images of `_active_containers` that are checkpoint images. -/
def activeImages (s : CheckpointNode) : List String :=
  (s.activeContainers.entries.map (·.2)).filter fun image =>
    "sweckpt:".toList.isPrefixOf image.toList

/-- `_checkpoint_gc_task_key`. -/
def gcTaskKey (leaseId : Option String) (checkpointIds : List String) : String :=
  leaseId.getD "__global__" ++ ":" ++
    ",".intercalate (checkpointIds.insertionSort (· ≤ ·))

/-- A rerun as the handler sees it. -/
def rerunState (s : CheckpointNode) (t : RerunTask) : RerunState :=
  ⟨t.request, s.manager, s.containers, t.phase⟩

/-- The image of each container after a step of a rerun. -/
def rerunImages (s : CheckpointNode) (t : RerunTask) (a : RerunAction) : Dict String String :=
  match t.phase, a with
  | .creating record, .create (some c) _ => AList.insert c record.restoredImage s.images
  | _, _ => s.images

/-- The new container is registered before the checkpoint is marked as used; records are
deleted by other requests. -/
def RerunEnabled (t : RerunTask) : RerunAction → Bool
  | .markUsed _ => t.registered
  | .deleteRecord _ => false
  | _ => true

/-- `gc`: the deletions are planned and, unless this is a dry run or the same deletions
are under way, handed to a worker. -/
def startGc (s : CheckpointNode) (j : Nat) (t : GcTask) (records : List CheckpointRecord) :
    CheckpointNode :=
  let deletions := Gc.plan records t.keepLatest s.activeImages
  let taskKey := gcTaskKey t.leaseId (deletions.map (·.checkpointId))
  if t.dryRun ∨ taskKey ∈ s.gcTasksInflight ∨ deletions = [] then
    { s with gcs := s.gcs.set j { t with phase := .done } }
  else
    { s with
      gcs := s.gcs.set j { t with taskKey := taskKey, phase := .deleting deletions }
      gcTasksInflight := taskKey :: s.gcTasksInflight }

/-- The worker goes on with the items, or is done. -/
def continueGc (s : CheckpointNode) (j : Nat) (t : GcTask) (items : List CheckpointRecord) :
    CheckpointNode :=
  if items = [] then
    { s with
      gcs := s.gcs.set j { t with phase := .done }
      gcTasksInflight := s.gcTasksInflight.filter (· ≠ t.taskKey) }
  else { s with gcs := s.gcs.set j { t with phase := .deleting items } }

def next (s : CheckpointNode) : NodeCheckpointAction → Option CheckpointNode
  | .receiveCreate request =>
    match s.activeContainers.lookup request.containerId with
    | none => some s
    | some image =>
      if s.parentValid request then
        some { s with
          creates := s.creates ++ [⟨request, image, Create.start request.checkpointBackend⟩] }
      else some s
  | .record i checkpointId opId createdAt persisted =>
    match s.creates[i]? with
    | none => none
    | some t =>
      if t.create.phase = .admitted ∧ s.Fresh checkpointId opId then
        let recorded := t.create.record s.manager
          (t.request.newRecord t.image checkpointId createdAt) opId persisted
        some { s with
          manager := recorded.1
          creates := s.creates.set i { t with create := recorded.2 } }
      else none
  | .create i result =>
    match s.creates[i]? with
    | none => none
    | some t =>
      (t.create.step s.manager result).map fun p =>
        { s with manager := p.1, creates := s.creates.set i { t with create := p.2 } }
  | .receiveRerun request =>
    some { s with reruns := s.reruns ++ [⟨request, .received, false⟩] }
  | .rerun i action =>
    match s.reruns[i]? with
    | none => none
    | some t =>
      if RerunEnabled t action then
        ((s.rerunState t).next action).map fun r =>
          { s with
            manager := r.manager
            containers := r.containers
            images := s.rerunImages t action
            reruns := s.reruns.set i { t with phase := r.phase } }
      else none
  | .register i =>
    match s.reruns[i]? with
    | none => none
    | some t =>
      match t.phase, t.registered with
      | .marking record c, false =>
        let rest := t.request.oldContainerId.elim s.activeContainers
          (AList.erase · s.activeContainers)
        some { s with
          activeContainers := AList.insert c record.restoredImage rest
          reruns := s.reruns.set i { t with registered := true } }
      | _, _ => none
  | .endContainer containerId =>
    some { s with containers := s.containers.filter (· ≠ containerId) }
  | .deleteRecord checkpointId =>
    match s.manager.getCheckpoint checkpointId with
    | none => none
    | some record =>
      if record.status = .pending then none
      else some { s with manager := s.manager.deleteCheckpoint checkpointId }
  | .list leaseId keepLatest dryRun =>
    let records := s.manager.checkpoints.filter fun r => ∀ l ∈ leaseId, r.leaseId = l
    some { s with
      gcs := s.gcs ++ [⟨leaseId, keepLatest.toNat, dryRun, "", .listed (Gc.ascending records)⟩] }
  | .plan j =>
    match s.gcs[j]? with
    | none => none
    | some t =>
      match t.phase with
      | .listed records => some (s.startGc j t records)
      | _ => none
  | .removeArtifacts j raised =>
    match s.gcs[j]? with
    | none => none
    | some t =>
      match t.phase with
      | .deleting items =>
        if raised then some (s.continueGc j t [])
        else some { s with gcs := s.gcs.set j { t with phase := .deletingRecord items } }
      | _ => none
  | .removeRecord j raised =>
    match s.gcs[j]? with
    | none => none
    | some t =>
      match t.phase with
      | .deletingRecord (item :: items) =>
        let deleted := { s with manager := s.manager.deleteCheckpoint item.checkpointId }
        some (deleted.continueGc j t (if raised then [] else items))
      | _ => none

end CheckpointNode

end Belayer.Exec
