import Belayer.Pool.SweEnvPool

namespace Belayer.Pool

open Belayer.Framework Belayer.Exec

attribute [local instance] preorderInt

/-- A checkpoint record as the answers of an exec server have it. A field that is null, or missing,
is `none`; for the generation these differ. -/
structure CheckpointItem where
  checkpointId : String
  status : String
  containerId : Option String
  generation : Option (Option Int)
  stepIdx : Option Int
  createdAt : Option ℚ
  deriving DecidableEq

namespace CheckpointItem

/-- The key that `_refresh_latest_ready_checkpoint` compares by. -/
def key (item : CheckpointItem) : ℤ ×ₗ ℤ ×ₗ ℚ :=
  toLex ((item.generation.getD (some 0)).getD 0,
    toLex (item.stepIdx.getD (-1), item.createdAt.getD 0))

def isReady (item : CheckpointItem) : Bool := item.status = "ready" && item.checkpointId ≠ ""

/-- `int(result.get("step_idx", -1) or -1)`: a step 0 is taken for a missing one. -/
def resultStepIdx (item : CheckpointItem) : Int := (item.stepIdx.filter (· ≠ 0)).getD (-1)

/-- `int(result.get("generation", lease.generation) or 0)`. -/
def resultGeneration (item : CheckpointItem) (lease : Lease) : Int :=
  (item.generation.getD (some lease.generation)).getD 0

/-- The lease still has the container and the generation of the checkpoint. -/
def isCurrent (item : CheckpointItem) (lease : Lease) : Bool :=
  (item.containerId.getD "" = "" || lease.containerId = item.containerId.getD "") &&
    lease.generation = item.resultGeneration lease

end CheckpointItem

def statusText : CheckpointStatus → String
  | .pending => "pending"
  | .ready => "ready"
  | .failed => "failed"

/-- The item of a record that has all its fields. -/
def itemOf (containerId : String) (record : CheckpointRecord) : CheckpointItem :=
  ⟨record.checkpointId, statusText record.status, some containerId, some (some record.generation),
    some record.stepIdx, some record.createdAt⟩

namespace Lease

/-- What `checkpoint_create` stores of a result that is ok. -/
def checkpointCreate (lease : Lease) (result : CheckpointItem) : Lease :=
  if result.status = "ready" ∧ result.isCurrent lease then
    { lease with
      latestReadyCheckpointId := some result.checkpointId
      latestCheckpointStepIdx := result.resultStepIdx }
  else lease

/-- `_refresh_latest_ready_checkpoint` with the items of the listing. -/
def refreshLatest (lease : Lease) (checkpoints : List CheckpointItem) : Lease :=
  match (checkpoints.filter (·.isReady)).argmax (·.key) with
  | none => { lease with latestReadyCheckpointId := none, latestCheckpointStepIdx := -1 }
  | some latest =>
    { lease with
      latestReadyCheckpointId := some latest.checkpointId
      latestCheckpointStepIdx := latest.stepIdx.getD (-1) }

end Lease

/-- The records of a lease after a create that has come out ready: each has its own id, and the
created one is among them. -/
structure LeaseHistory where
  checkpoints : List CheckpointItem
  nodup : (checkpoints.map (·.checkpointId)).Nodup
  created : CheckpointItem
  created_mem : created ∈ checkpoints
  created_ready : created.isReady

namespace LeaseHistory

def ready (h : LeaseHistory) : List CheckpointItem := h.checkpoints.filter (·.isReady)

/-- The created checkpoint is the latest ready one, the first of those with its key. -/
def CreatedIsLatest (h : LeaseHistory) : Prop :=
  ∀ r ∈ h.ready, r.key ≤ h.created.key ∧
    (h.created.key ≤ r.key → h.ready.idxOf h.created ≤ h.ready.idxOf r)

/-- What the create stores, if it does, is what a refresh would store. -/
def Agrees (h : LeaseHistory) (lease : Lease) : Prop :=
  h.created.isCurrent lease → lease.checkpointCreate h.created = lease.refreshLatest h.checkpoints

variable {h : LeaseHistory} {lease : Lease}

theorem created_mem_ready : h.created ∈ h.ready :=
  List.mem_filter.mpr ⟨h.created_mem, h.created_ready⟩

theorem argmax_ready_iff :
    h.ready.argmax (·.key) = some h.created ↔ h.CreatedIsLatest := by
  rw [List.argmax_eq_some_iff]
  constructor
  · rintro ⟨-, hle, hfirst⟩ r hr
    exact ⟨hle r hr, hfirst r hr⟩
  · intro hlatest
    exact ⟨created_mem_ready, fun r hr => (hlatest r hr).1, fun r hr => (hlatest r hr).2⟩

/-- The two defaults of a missing step agree but on step 0. -/
theorem resultStepIdx_eq_iff {item : CheckpointItem} :
    item.resultStepIdx = item.stepIdx.getD (-1) ↔ item.stepIdx ≠ some 0 := by
  rw [CheckpointItem.resultStepIdx]
  cases item.stepIdx with
  | none => simp
  | some n =>
    by_cases hzero : n = 0
    · subst hzero
      exact iff_of_false (by decide) (fun h => h rfl)
    · simp [Option.filter, hzero]

/-- An id names one record. -/
theorem eq_created {latest : CheckpointItem} (hlatest : latest ∈ h.ready)
    (hid : latest.checkpointId = h.created.checkpointId) : latest = h.created :=
  List.inj_on_of_nodup_map h.nodup (List.mem_of_mem_filter hlatest) h.created_mem hid

theorem checkpointCreate_created (hcurrent : h.created.isCurrent lease) :
    lease.checkpointCreate h.created =
      { lease with
        latestReadyCheckpointId := some h.created.checkpointId
        latestCheckpointStepIdx := h.created.resultStepIdx } := by
  have hready := h.created_ready
  rw [CheckpointItem.isReady, Bool.and_eq_true, decide_eq_true_eq] at hready
  rw [Lease.checkpointCreate, if_pos ⟨hready.1, hcurrent⟩]

/-- The stored pointer and step are those of a refresh iff the result is not for the lease any more,
or the step is not 0 and the created checkpoint is the latest. -/
theorem agrees_iff : h.Agrees lease ↔
    ¬h.created.isCurrent lease ∨ h.created.stepIdx ≠ some 0 ∧ h.CreatedIsLatest := by
  by_cases hcurrent : h.created.isCurrent lease
  · rw [or_iff_right (not_not.mpr hcurrent), Agrees, imp_iff_right hcurrent,
      checkpointCreate_created hcurrent, ← resultStepIdx_eq_iff, ← argmax_ready_iff,
      Lease.refreshLatest]
    cases hlatest : (h.checkpoints.filter (·.isReady)).argmax (·.key) with
    | none =>
      have hempty := List.argmax_eq_none.mp hlatest
      have hmem : h.created ∈ h.ready := created_mem_ready
      rw [ready, hempty] at hmem
      exact absurd hmem List.not_mem_nil
    | some latest =>
      have hmem : latest ∈ h.ready := List.argmax_mem hlatest
      rw [ready, hlatest]
      constructor
      · intro heq
        have hid := congrArg Lease.latestReadyCheckpointId heq
        have hstep := congrArg Lease.latestCheckpointStepIdx heq
        have hcreated := eq_created hmem (Option.some.inj hid).symm
        subst hcreated
        exact ⟨hstep, rfl⟩
      · rintro ⟨hstep, hcreated⟩
        rw [Option.some.inj hcreated, hstep]
  · exact iff_of_true (fun h' => absurd h' hcurrent) (.inl hcurrent)

end LeaseHistory

theorem argmax_map {α β γ : Type*} [LinearOrder γ] (f : β → γ) (g : α → β) (l : List α) :
    (l.map g).argmax f = (l.argmax fun a => f (g a)).map g := by
  induction l using List.reverseRecOn with
  | nil => rfl
  | append_singleton l a ih =>
    rw [List.map_append, List.map_cons, List.map_nil, List.argmax_concat, List.argmax_concat, ih]
    cases l.argmax fun a => f (g a) with
    | none => rfl
    | some b =>
      dsimp only [Option.map_some]
      split_ifs
      · rfl
      · rfl

namespace Lease

variable {lease : Lease} {results : List CheckpointItem}

/-- A store leaves the lease its container and generation. -/
theorem isCurrent_refreshLatest {item : CheckpointItem} :
    item.isCurrent (lease.refreshLatest results) = item.isCurrent lease := by
  rw [refreshLatest]
  split
  · rfl
  · rfl

/-- Creates that come out ready one after the other, each with a later key than those before it and
none at step 0, leave the lease as a refresh from all of them would. -/
theorem foldl_checkpointCreate (hstart : lease.refreshLatest [] = lease)
    (hresults : ∀ r ∈ results, r.isReady ∧ r.isCurrent lease ∧ r.stepIdx ≠ some 0)
    (hsorted : results.Pairwise (·.key < ·.key)) :
    results.foldl checkpointCreate lease = lease.refreshLatest results := by
  induction results using List.reverseRecOn with
  | nil => exact hstart.symm
  | append_singleton results r ih =>
    obtain ⟨hbefore, -, hlater⟩ := List.pairwise_append.mp hsorted
    have hprevious := ih (fun q hq => hresults q (List.mem_append_left _ hq)) hbefore
    obtain ⟨hready, hcurrent, hstep⟩ := hresults r (List.mem_append_right _ List.mem_cons_self)
    have hstatus := hready
    rw [CheckpointItem.isReady, Bool.and_eq_true, decide_eq_true_eq] at hstatus
    have hlast : ((results ++ [r]).filter (·.isReady)).argmax (·.key) = some r := by
      rw [List.filter_append, List.filter_cons_of_pos hready, List.filter_nil, List.argmax_concat]
      cases hlatest : (results.filter (·.isReady)).argmax (·.key) with
      | none => rfl
      | some latest =>
        have hmem := List.mem_of_mem_filter (List.argmax_mem hlatest)
        exact if_pos (hlater latest hmem r List.mem_cons_self)
    have hcurrent' : r.isCurrent (lease.refreshLatest results) :=
      isCurrent_refreshLatest.trans hcurrent
    rw [List.foldl_append, List.foldl_cons, List.foldl_nil, hprevious, checkpointCreate,
      if_pos ⟨hstatus.1, hcurrent'⟩, LeaseHistory.resultStepIdx_eq_iff.mpr hstep]
    simp only [refreshLatest, hlast]
    split
    · rfl
    · rfl

/-- On records with all their fields the refresh is the one of the lease. -/
theorem refreshLatest_itemOf (containerId : String) {records : List CheckpointRecord}
    (hid : ∀ r ∈ records, r.checkpointId ≠ "") :
    lease.refreshLatest (records.map (itemOf containerId)) = lease.refresh records := by
  have hfilter : (records.map (itemOf containerId)).filter (·.isReady) =
      (records.filter (·.status = .ready)).map (itemOf containerId) := by
    rw [List.filter_map]
    refine congrArg _ (List.filter_congr fun r hr => ?_)
    cases hstatus : r.status <;>
      simp [CheckpointItem.isReady, itemOf, statusText, hstatus, hid r hr]
  have hkey : (fun r : CheckpointRecord => (itemOf containerId r).key) = (·.sortKey) := rfl
  rw [refreshLatest, hfilter, argmax_map, hkey, refresh, latestReady]
  cases (records.filter (·.status = .ready)).argmax (·.sortKey) with
  | none => rfl
  | some latest => rfl

theorem checkpointCreate_itemOf {containerId : String} {record : CheckpointRecord}
    (hready : record.status = .ready) (hcurrent : (itemOf containerId record).isCurrent lease) :
    lease.checkpointCreate (itemOf containerId record) =
      lease.advance record.checkpointId record.stepIdx := by
  have hstatus : (itemOf containerId record).status = "ready" := by rw [itemOf, hready]; rfl
  rw [checkpointCreate, if_pos ⟨hstatus, hcurrent⟩, advance]
  have hstep : (itemOf containerId record).resultStepIdx =
      if record.stepIdx = 0 then -1 else record.stepIdx := by
    by_cases hzero : record.stepIdx = 0
    · simp [CheckpointItem.resultStepIdx, itemOf, hzero, Option.filter]
    · simp [CheckpointItem.resultStepIdx, itemOf, hzero, Option.filter]
  rw [hstep]
  rfl

end Lease

/-- The only checkpoint of a lease, at step 0. -/
def firstStep : LeaseHistory where
  checkpoints := [⟨"k", "ready", some "c", some (some 0), some 0, some 1⟩]
  nodup := by decide
  created := ⟨"k", "ready", some "c", some (some 0), some 0, some 1⟩
  created_mem := by decide
  created_ready := by decide

theorem not_agrees_firstStep : ¬firstStep.Agrees (.start "http://node-1:5000" "c" "img") := by
  intro h
  have hstep := congrArg Lease.latestCheckpointStepIdx (h (by decide))
  exact absurd hstep (by decide +kernel)

end Belayer.Pool
