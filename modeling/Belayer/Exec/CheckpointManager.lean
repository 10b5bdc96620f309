import Mathlib.Data.List.Basic
import Mathlib.Data.Rat.Defs

namespace Belayer.Exec

inductive CheckpointStatus where
  | pending
  | ready
  | failed
  deriving DecidableEq

inductive CheckpointBackend where
  | legacy
  | full
  deriving DecidableEq

structure CheckpointRecord where
  checkpointId : String
  checkpointBackend : CheckpointBackend
  leaseId : String
  generation : Int
  image : String
  checkpointImage : Option String
  parentCheckpointId : Option String
  stepIdx : Int
  createdAt : Rat
  status : CheckpointStatus
  deriving DecidableEq

/-- An operation in `_ops`; one that is ready or failed is not kept there. -/
structure CheckpointOp where
  opId : String
  checkpointId : String
  deriving DecidableEq

inductive ManagerError where
  | keyError
  | osError
  deriving DecidableEq

/-- `CheckpointManager`. Both dicts are in the order of insertion; `freeSlots` is the
value of the semaphore. -/
structure CheckpointManager where
  maxInflight : Nat
  freeSlots : Nat
  inflight : Nat
  checkpoints : List CheckpointRecord
  ops : List CheckpointOp
  deriving DecidableEq

namespace CheckpointManager

/-- `max(1, int(max_inflight))` slots and the records found on the disk. -/
def init (maxInflight : Int) (checkpoints : List CheckpointRecord) : CheckpointManager :=
  ⟨(max 1 maxInflight).toNat, (max 1 maxInflight).toNat, 0, checkpoints, []⟩

def getCheckpoint (m : CheckpointManager) (checkpointId : String) : Option CheckpointRecord :=
  m.checkpoints.find? (·.checkpointId = checkpointId)

/-- `create_checkpoint_with_stats`, which may fail to write the record to the disk. -/
def createCheckpoint (m : CheckpointManager) (record : CheckpointRecord) (op : CheckpointOp)
    (persisted : Bool) : CheckpointManager × Except ManagerError CheckpointRecord :=
  ({ m with checkpoints := m.checkpoints ++ [record], ops := m.ops ++ [op] },
    if persisted then .ok record else .error .osError)

/-- `update_checkpoint_with_stats`: the record is updated before it is written. -/
def updateCheckpoint (m : CheckpointManager) (checkpointId : String)
    (updates : CheckpointRecord → CheckpointRecord) (persisted : Bool) :
    CheckpointManager × Except ManagerError CheckpointRecord :=
  match m.getCheckpoint checkpointId with
  | none => (m, .error .keyError)
  | some record =>
    ({ m with
        checkpoints := m.checkpoints.map fun r =>
          if r.checkpointId = checkpointId then updates r else r },
      if persisted then .ok (updates record) else .error .osError)

/-- `update_op_with_stats` with status ready or failed. -/
def settleOp (m : CheckpointManager) (opId : String) :
    CheckpointManager × Except ManagerError Unit :=
  if m.ops.any (·.opId = opId) then
    ({ m with ops := m.ops.filter (·.opId ≠ opId) }, .ok ())
  else (m, .error .keyError)

/-- `mark_used`, without the time it sets. -/
def markUsed (m : CheckpointManager) (checkpointId : String) (persisted : Bool) :
    CheckpointManager × Except ManagerError CheckpointRecord :=
  m.updateCheckpoint checkpointId id persisted

/-- `delete_checkpoint`. -/
def deleteCheckpoint (m : CheckpointManager) (checkpointId : String) : CheckpointManager :=
  { m with checkpoints := m.checkpoints.filter (·.checkpointId ≠ checkpointId) }

/-- An update succeeds when the record is there and can be written. -/
theorem updateCheckpoint_isOk (m : CheckpointManager) (checkpointId : String)
    (updates : CheckpointRecord → CheckpointRecord) (persisted : Bool) :
    (m.updateCheckpoint checkpointId updates persisted).2.isOk ↔
      (m.getCheckpoint checkpointId).isSome ∧ persisted := by
  unfold updateCheckpoint
  cases h : m.getCheckpoint checkpointId <;> cases persisted <;> simp [Except.isOk, Except.toBool]

/-- What an update leaves: the other records as they were, and this one updated. -/
theorem mem_updateCheckpoint {m : CheckpointManager} {checkpointId : String}
    {updates : CheckpointRecord → CheckpointRecord} {persisted : Bool} {r : CheckpointRecord}
    (h : r ∈ (m.updateCheckpoint checkpointId updates persisted).1.checkpoints) :
    ∃ r₀ ∈ m.checkpoints, (r₀.checkpointId ≠ checkpointId ∧ r = r₀) ∨
      (r₀.checkpointId = checkpointId ∧ r = updates r₀) := by
  unfold updateCheckpoint at h
  cases hget : m.getCheckpoint checkpointId with
  | none =>
    rw [hget] at h
    have hne : r.checkpointId ≠ checkpointId := by
      simpa using List.find?_eq_none.mp hget r h
    exact ⟨r, h, .inl ⟨hne, rfl⟩⟩
  | some record =>
    rw [hget] at h
    obtain ⟨r₀, hr, rfl⟩ := List.mem_map.mp h
    by_cases hid : r₀.checkpointId = checkpointId
    · exact ⟨r₀, hr, .inr ⟨hid, by simp [hid]⟩⟩
    · exact ⟨r₀, hr, .inl ⟨hid, by simp [hid]⟩⟩

@[simp] theorem updateCheckpoint_ops (m : CheckpointManager) (checkpointId : String)
    (updates : CheckpointRecord → CheckpointRecord) (persisted : Bool) :
    (m.updateCheckpoint checkpointId updates persisted).1.ops = m.ops := by
  unfold updateCheckpoint
  split <;> rfl

theorem mem_settleOp {m : CheckpointManager} {opId : String} {op : CheckpointOp} :
    op ∈ (m.settleOp opId).1.ops ↔ op ∈ m.ops ∧ op.opId ≠ opId := by
  unfold settleOp
  split_ifs with h
  · simp
  · refine ⟨fun hm => ⟨hm, ?_⟩, fun hm => hm.1⟩
    simp only [List.any_eq_true, not_exists, not_and] at h
    simpa using h op hm

@[simp] theorem settleOp_checkpoints (m : CheckpointManager) (opId : String) :
    (m.settleOp opId).1.checkpoints = m.checkpoints := by
  unfold settleOp
  split_ifs <;> rfl

theorem settleOp_isOk {m : CheckpointManager} {opId : String} :
    (m.settleOp opId).2.isOk ↔ ∃ op ∈ m.ops, op.opId = opId := by
  unfold settleOp
  split_ifs with h
  · simpa [Except.isOk, Except.toBool] using h
  · simpa [Except.isOk, Except.toBool] using h

@[simp] theorem updateCheckpoint_slots (m : CheckpointManager) (checkpointId : String)
    (updates : CheckpointRecord → CheckpointRecord) (persisted : Bool) :
    (m.updateCheckpoint checkpointId updates persisted).1.maxInflight = m.maxInflight ∧
      (m.updateCheckpoint checkpointId updates persisted).1.freeSlots = m.freeSlots ∧
      (m.updateCheckpoint checkpointId updates persisted).1.inflight = m.inflight := by
  unfold updateCheckpoint
  split <;> simp

@[simp] theorem settleOp_slots (m : CheckpointManager) (opId : String) :
    (m.settleOp opId).1.maxInflight = m.maxInflight ∧
      (m.settleOp opId).1.freeSlots = m.freeSlots ∧
      (m.settleOp opId).1.inflight = m.inflight := by
  unfold settleOp
  split_ifs <;> simp

end CheckpointManager

end Belayer.Exec
