import Belayer.Exec.CheckpointManager
import Belayer.Framework.Run

namespace Belayer.Exec

open Belayer.Framework

/-- Where a checkpoint create stands: its handler up to the dispatch, then the worker,
then the handler again. `settling` and what follows it up to `releasing` is the
bookkeeping of the worker, whose last word `error` says whether that has raised. -/
inductive CreatePhase where
  | received
  | acquired
  | admitted
  | created
  | queued
  | preparing
  | committing
  | resuming
  | committed
  | settling (status : CheckpointStatus)
  | settlingOp
  | failing
  | failingOp
  | ending (error : Bool)
  | releasing (error : Bool)
  | answered (error : Bool)
  | handlerFailing (known : Bool)
  | handlerFailingOp
  | handlerEnding
  | handlerReleasing
  | finished
  deriving DecidableEq

/-- A create with what it has done so far: `checkpointed` and `resumed` record that the
commit, or the full checkpoint and the restore, succeeded in the exclusive section. -/
structure Create where
  checkpointBackend : CheckpointBackend
  phase : CreatePhase
  checkpointId : Option String
  opId : Option String
  dispatched : Bool
  exclusive : Bool
  checkpointed : Bool
  resumed : Bool
  begins : Nat
  ends : Nat
  deriving DecidableEq

/-- How a step comes out: done (for bookkeeping: the record is written), refused,
interrupted by an injected fault, or an exception. -/
inductive StepResult where
  | ok
  | refused
  | killed
  | raised
  deriving DecidableEq

namespace Create

def start (checkpointBackend : CheckpointBackend) : Create :=
  ⟨checkpointBackend, .received, none, none, false, false, false, false, 0, 0⟩

def goto (c : Create) (phase : CreatePhase) : Create := { c with phase := phase }

/-- The exclusive section is left. -/
def leave (c : Create) (phase : CreatePhase) : Create :=
  { c with exclusive := false, phase := phase }

/-- `update_checkpoint` with the given status, and where it leads. -/
def updateStatus (m : CheckpointManager) (c : Create) (status : CheckpointStatus)
    (result : StepResult) (done raised : CreatePhase) : Option (CheckpointManager × Create) :=
  c.checkpointId.map fun checkpointId =>
    let updated := m.updateCheckpoint checkpointId
      (fun record => { record with status := status }) (result = .ok)
    (updated.1, c.goto (if updated.2.isOk then done else raised))

/-- `update_op`, and where it leads. -/
def updateOp (m : CheckpointManager) (c : Create) (done raised : CreatePhase) :
    Option (CheckpointManager × Create) :=
  c.opId.map fun opId =>
    let updated := m.settleOp opId
    (updated.1, c.goto (if updated.2.isOk then done else raised))

/-- `end_create` up to the counter. -/
def endCreate (m : CheckpointManager) (c : Create) (releasing done : CreatePhase) :
    CheckpointManager × Create :=
  if 0 < m.inflight then
    ({ m with inflight := m.inflight - 1 }, { c with ends := c.ends + 1, phase := releasing })
  else (m, { c with ends := c.ends + 1, phase := done })

/-- The rest of `end_create`. -/
def release (m : CheckpointManager) (c : Create) (done : CreatePhase) :
    CheckpointManager × Create :=
  ({ m with freeSlots := m.freeSlots + 1 }, c.goto done)

/-- A failure that the image backend notes in the record, and the full backend raises. -/
def abort (c : Create) (result : StepResult) : Create :=
  match c.checkpointBackend, result with
  | .legacy, .refused | .legacy, .killed => c.leave (.settling .failed)
  | _, _ => c.leave .failing

/-- A step of the worker before its bookkeeping. -/
def work (c : Create) (result : StepResult) : Create :=
  match c.phase with
  | .queued =>
    if result = .ok then { c with exclusive := true, phase := .preparing } else c.goto .failing
  | .preparing => if result = .ok then c.goto .committing else c.abort result
  | .committing =>
    if result = .ok then
      match c.checkpointBackend with
      | .legacy => { c with checkpointed := c.exclusive }.leave .committed
      | .full => { c with checkpointed := c.exclusive, phase := .resuming }
    else if result = .refused then c.abort result
    else c.leave .failing
  | .resuming =>
    if result = .ok then { c with resumed := c.exclusive }.leave .committed
    else c.leave .failing
  | .committed =>
    if result = .ok then c.goto (.settling .ready)
    else if result = .killed then c.abort result
    else c.leave .failing
  | _ => c

/-- The next step of a create, but for the one that makes its record. -/
def step (m : CheckpointManager) (c : Create) (result : StepResult) :
    Option (CheckpointManager × Create) :=
  match c.phase with
  | .received =>
    if result ≠ .ok ∨ m.freeSlots = 0 then some (m, c.goto .finished)
    else some ({ m with freeSlots := m.freeSlots - 1 }, c.goto .acquired)
  | .acquired =>
    some ({ m with inflight := m.inflight + 1 },
      { c with begins := c.begins + 1, phase := .admitted })
  | .admitted | .finished => none
  | .created =>
    c.checkpointId.map fun checkpointId =>
      let updated := m.updateCheckpoint checkpointId id (result = .ok)
      (updated.1,
        if updated.2.isOk then { c with dispatched := true, phase := .queued }
        else c.goto (.handlerFailing true))
  | .queued | .preparing | .committing | .resuming | .committed => some (m, c.work result)
  | .settling status => updateStatus m c status result .settlingOp .failing
  | .settlingOp => updateOp m c (.ending false) .failing
  | .failing => updateStatus m c .failed result .failingOp (.ending true)
  | .failingOp => updateOp m c (.ending false) (.ending true)
  | .ending error => some (endCreate m c (.releasing error) (.answered error))
  | .releasing error => some (release m c (.answered error))
  | .answered error => some (m, c.goto (if error then .handlerFailing true else .finished))
  | .handlerFailing true => updateStatus m c .failed result .handlerFailingOp .finished
  | .handlerFailing false => some (m, c.goto .handlerEnding)
  | .handlerFailingOp => updateOp m c .handlerEnding .finished
  | .handlerEnding => some (endCreate m c .handlerReleasing .finished)
  | .handlerReleasing => some (release m c .finished)

/-- `create_checkpoint_with_stats`: when the record cannot be written, the handler knows
neither record nor operation. -/
def record (m : CheckpointManager) (c : Create) (record : CheckpointRecord) (opId : String)
    (persisted : Bool) : CheckpointManager × Create :=
  let created := m.createCheckpoint
    { record with checkpointBackend := c.checkpointBackend, status := .pending }
    ⟨opId, record.checkpointId⟩ persisted
  (created.1,
    { c with
      checkpointId := some record.checkpointId
      opId := some opId
      phase := if created.2.isOk then .created else .handlerFailing false })

end Create

/-- The checkpoint manager with all creates it has ever been asked for. -/
structure CheckpointService where
  manager : CheckpointManager
  creates : List Create
  deriving DecidableEq

/-- Records that are not pending may be deleted at any time, by a request or by the
garbage collection. -/
inductive ServiceAction where
  | receive (checkpointBackend : CheckpointBackend)
  | record (i : Nat) (record : CheckpointRecord) (opId : String) (persisted : Bool)
  | step (i : Nat) (result : StepResult)
  | deleteRecord (checkpointId : String)

namespace CheckpointService

def init (maxInflight : Int) (checkpoints : List CheckpointRecord) : CheckpointService :=
  ⟨.init maxInflight checkpoints, []⟩

/-- The ids are new. -/
def Fresh (s : CheckpointService) (checkpointId opId : String) : Prop :=
  (∀ r ∈ s.manager.checkpoints, r.checkpointId ≠ checkpointId) ∧
    (∀ o ∈ s.manager.ops, o.opId ≠ opId) ∧
    ∀ c ∈ s.creates, c.checkpointId ≠ some checkpointId ∧ c.opId ≠ some opId

instance (s : CheckpointService) (checkpointId opId : String) :
    Decidable (s.Fresh checkpointId opId) :=
  inferInstanceAs (Decidable (_ ∧ _ ∧ _))

def next (s : CheckpointService) : ServiceAction → Option CheckpointService
  | .receive checkpointBackend =>
    some { s with creates := s.creates ++ [Create.start checkpointBackend] }
  | .record i record opId persisted =>
    match s.creates[i]? with
    | none => none
    | some c =>
      if c.phase = .admitted ∧ s.Fresh record.checkpointId opId then
        let recorded := c.record s.manager record opId persisted
        some ⟨recorded.1, s.creates.set i recorded.2⟩
      else none
  | .step i result =>
    match s.creates[i]? with
    | none => none
    | some c => (c.step s.manager result).map fun p => ⟨p.1, s.creates.set i p.2⟩
  | .deleteRecord checkpointId =>
    match s.manager.getCheckpoint checkpointId with
    | none => none
    | some record =>
      if record.status = .pending then none
      else some { s with manager := s.manager.deleteCheckpoint checkpointId }

end CheckpointService

end Belayer.Exec
