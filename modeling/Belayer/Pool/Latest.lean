import Belayer.Pool.Checkpoints
import Belayer.Framework.Places

namespace Belayer.Pool

open Belayer.Framework Belayer.Exec

namespace CreateSide

/-- The status that the node has given the record of a create last. -/
def status? : CreateSide → Option CheckpointStatus
  | .made _ status | .answered _ status => some status
  | .sent | .refused => none

/-- The checkpoint that the answer calls ready. -/
def readyId? : CreateSide → Option String
  | .answered checkpointId .ready => some checkpointId
  | _ => none

end CreateSide

namespace DropPhase

/-- The listing is not out yet. -/
def isUnlisted : DropPhase → Bool
  | .requested | .refreshing => true
  | .listed _ | .done => false

def listing? : DropPhase → Option (List CheckpointRecord)
  | .listed checkpoints => some checkpoints
  | _ => none

end DropPhase

/-- The checkpoint that a delete asks for. -/
def DropRequest.deleted? : DropRequest → Option String
  | .delete checkpointId => some checkpointId
  | .gc _ _ => none

namespace PoolCheckpoints

/-- The ready checkpoints of a lease. -/
def readyOf (s : PoolCheckpoints) (url leaseId : String) : List CheckpointRecord :=
  (s.recordsOf url leaseId).filter (·.status = .ready)

/-- Nothing is under way, in the pool or on a node. -/
def Quiescent (s : PoolCheckpoints) : Prop :=
  (∀ c ∈ s.creates, c.waiting = false ∧ c.side.isFinished) ∧
    (∀ d ∈ s.drops, d.phase = .done ∧ d.processed.isSome) ∧
    (∀ r ∈ s.reruns, r.waiting = false) ∧ ∀ job ∈ s.jobs, job.checkpointIds = []

instance (s : PoolCheckpoints) : Decidable s.Quiescent :=
  inferInstanceAs (Decidable (_ ∧ _))

/-- The pointer of a lease is empty exactly when it has no ready checkpoint, and else names
a latest one. -/
def Pointed (s : PoolCheckpoints) : Prop :=
  ∀ leaseId lease, s.leases.lookup leaseId = some lease →
    (lease.latestReadyCheckpointId = none ↔ s.readyOf lease.nodeUrl leaseId = []) ∧
    ∀ k ∈ lease.latestReadyCheckpointId, ∃ r ∈ s.readyOf lease.nodeUrl leaseId,
      r.checkpointId = k ∧ ∀ u ∈ s.readyOf lease.nodeUrl leaseId, u.sortKey ≤ r.sortKey

/-- The create of the checkpoint still waits for its answer. -/
def Outstanding (s : PoolCheckpoints) (checkpointId : String) : Prop :=
  ∃ c ∈ s.creates, c.waiting ∧ c.side.checkpointId? = some checkpointId

instance (s : PoolCheckpoints) (checkpointId : String) : Decidable (s.Outstanding checkpointId) :=
  inferInstanceAs (Decidable (∃ c ∈ s.creates, _))

/-- A pointer is right for a lease, but for checkpoints whose creates are outstanding. -/
def RightFor (s : PoolCheckpoints) (url leaseId : String) : Option String → Prop
  | none => ∀ r ∈ s.readyOf url leaseId, s.Outstanding r.checkpointId
  | some k => ∃ r ∈ s.readyOf url leaseId, r.checkpointId = k ∧
      ∀ u ∈ s.readyOf url leaseId, ¬s.Outstanding u.checkpointId → ¬r.sortKey < u.sortKey

instance (s : PoolCheckpoints) (url leaseId : String) :
    ∀ p, Decidable (s.RightFor url leaseId p)
  | none => inferInstanceAs (Decidable (∀ r ∈ s.readyOf url leaseId, s.Outstanding r.checkpointId))
  | some k => inferInstanceAs (Decidable (∃ r ∈ s.readyOf url leaseId, r.checkpointId = k ∧
      ∀ u ∈ s.readyOf url leaseId, ¬s.Outstanding u.checkpointId → ¬r.sortKey < u.sortKey))

/-- A delete or a collection of the lease has still to list. -/
def Unlisted (drops : List DropCall) (leaseId : String) : Prop :=
  ∃ d ∈ drops, d.leaseId = leaseId ∧ d.phase.isUnlisted

instance (drops : List DropCall) (leaseId : String) : Decidable (Unlisted drops leaseId) :=
  inferInstanceAs (Decidable (∃ d ∈ drops, _))

/-- A ready checkpoint may go: a later one of the lease is there, or a call has still to
list. -/
def Removable (s : PoolCheckpoints) (checkpointId : String) : Prop :=
  ∀ e ∈ s.leases.entries, ∀ r ∈ s.readyOf e.2.nodeUrl e.1, r.checkpointId = checkpointId →
    Unlisted s.drops e.1 ∨ ∃ u ∈ s.readyOf e.2.nodeUrl e.1,
      ¬s.Outstanding u.checkpointId ∧ r.sortKey < u.sortKey

instance (s : PoolCheckpoints) (checkpointId : String) : Decidable (s.Removable checkpointId) :=
  inferInstanceAs (Decidable (∀ e ∈ s.leases.entries, _))

/-- A ready checkpoint that the pool does not hear of is no loss: an answered one of the
lease is not earlier, or a call has still to list. -/
def Covered (s : PoolCheckpoints) (q : NodeRecord) : Prop :=
  ∀ lease ∈ s.leases.lookup q.record.leaseId, q.url = lease.nodeUrl →
    Unlisted s.drops q.record.leaseId ∨ ∃ u ∈ s.readyOf q.url q.record.leaseId,
      ¬s.Outstanding u.checkpointId ∧ q.record.sortKey ≤ u.sortKey

instance (s : PoolCheckpoints) (q : NodeRecord) : Decidable (s.Covered q) :=
  inferInstanceAs (Decidable (∀ lease ∈ s.leases.lookup q.record.leaseId, _))

/-- A call may end without refresh: the pointer is right, or another call has still to
list. -/
def Dispensable (s : PoolCheckpoints) (i : Nat) (d : DropCall) : Prop :=
  ∀ lease ∈ s.leases.lookup d.leaseId,
    s.RightFor lease.nodeUrl d.leaseId lease.latestReadyCheckpointId ∨
      Unlisted (s.drops.eraseIdx i) d.leaseId

instance (s : PoolCheckpoints) (i : Nat) (d : DropCall) : Decidable (s.Dispensable i d) :=
  inferInstanceAs (Decidable (∀ lease ∈ s.leases.lookup d.leaseId, _))

/-- The condition on a step. -/
def Fit (s : PoolCheckpoints) : CheckpointCall → Prop
  | .settleRecord i .failed => ∀ c ∈ s.creates[i]?, ∀ k ∈ c.side.checkpointId?, s.Removable k
  | .settleRecord i .ready => ∀ c ∈ s.creates[i]?, c.waiting ∨
      ∀ q ∈ s.records, c.side.checkpointId? = some q.record.checkpointId → s.Covered q
  | .replyCreate i => ∀ c ∈ s.creates[i]?, ∀ k ∈ c.side.readyId?,
      Unlisted s.drops c.payload.leaseId ∨ ∃ lease ∈ s.leases.lookup c.payload.leaseId,
        ∃ r ∈ s.readyOf lease.nodeUrl c.payload.leaseId, r.checkpointId = k ∧
          ∀ u ∈ s.readyOf lease.nodeUrl c.payload.leaseId, ¬r.sortKey < u.sortKey
  | .failCreate i => ∀ c ∈ s.creates[i]?, ∀ q ∈ s.records,
      c.side.checkpointId? = some q.record.checkpointId → q.record.status = .ready → s.Covered q
  | .processDrop i _ => ∀ d ∈ s.drops[i]?, ∀ k ∈ d.request.deleted?, s.Removable k
  | .replyDrop i => ∀ d ∈ s.drops[i]?, d.processed = some false → s.Dispensable i d
  | .refreshDrop i => ∀ d ∈ s.drops[i]?, ∀ checkpoints ∈ d.phase.listing?,
      Unlisted (s.drops.eraseIdx i) d.leaseId ∨
        ∀ lease ∈ s.leases.lookup d.leaseId, s.RightFor lease.nodeUrl d.leaseId
          ((Lease.latestReady checkpoints).map (·.checkpointId))
  | .failDrop i => ∀ d ∈ s.drops[i]?, s.Dispensable i d
  | .collect j => ∀ job ∈ s.jobs[j]?, ∀ k ∈ job.checkpointIds.head?, s.Removable k
  | _ => True

instance (s : PoolCheckpoints) : ∀ a, Decidable (s.Fit a)
  | .settleRecord i .failed => inferInstanceAs (Decidable (∀ c ∈ s.creates[i]?,
      ∀ k ∈ c.side.checkpointId?, s.Removable k))
  | .settleRecord i .ready => inferInstanceAs (Decidable (∀ c ∈ s.creates[i]?, c.waiting ∨
      ∀ q ∈ s.records, c.side.checkpointId? = some q.record.checkpointId → s.Covered q))
  | .replyCreate i => inferInstanceAs (Decidable (∀ c ∈ s.creates[i]?, ∀ k ∈ c.side.readyId?,
      Unlisted s.drops c.payload.leaseId ∨ ∃ lease ∈ s.leases.lookup c.payload.leaseId,
        ∃ r ∈ s.readyOf lease.nodeUrl c.payload.leaseId, r.checkpointId = k ∧
          ∀ u ∈ s.readyOf lease.nodeUrl c.payload.leaseId, ¬r.sortKey < u.sortKey))
  | .failCreate i => inferInstanceAs (Decidable (∀ c ∈ s.creates[i]?, _))
  | .processDrop i _ => inferInstanceAs (Decidable (∀ d ∈ s.drops[i]?,
      ∀ k ∈ d.request.deleted?, s.Removable k))
  | .replyDrop i => inferInstanceAs (Decidable (∀ d ∈ s.drops[i]?,
      d.processed = some false → s.Dispensable i d))
  | .refreshDrop i => inferInstanceAs (Decidable (∀ d ∈ s.drops[i]?,
      ∀ checkpoints ∈ d.phase.listing?, Unlisted (s.drops.eraseIdx i) d.leaseId ∨
        ∀ lease ∈ s.leases.lookup d.leaseId, s.RightFor _ _ _))
  | .failDrop i => inferInstanceAs (Decidable (∀ d ∈ s.drops[i]?, s.Dispensable i d))
  | .collect j => inferInstanceAs (Decidable (∀ job ∈ s.jobs[j]?,
      ∀ k ∈ job.checkpointIds.head?, s.Removable k))
  | .settleRecord _ .pending | .allocate _ _ _ _ | .create _ _ _ _
  | .makeRecord _ _ _ | .answerCreate _ | .refuseCreate _ | .drop _ _ | .listDrop _
  | .gcNode _ _ _ | .rerun _ | .replyRerun _ _ => .isTrue trivial

/-- A listing that the lease's pointer would be right with is under way. -/
def Listed (s : PoolCheckpoints) (url leaseId : String) : Prop :=
  ∃ d ∈ s.drops, d.leaseId = leaseId ∧ ∃ checkpoints ∈ d.phase.listing?,
    s.RightFor url leaseId ((Lease.latestReady checkpoints).map (·.checkpointId))

/-- The pointer is right, or a call will make it so. -/
def Cared (s : PoolCheckpoints) (leaseId : String) (lease : Lease) : Prop :=
  s.RightFor lease.nodeUrl leaseId lease.latestReadyCheckpointId ∨ Unlisted s.drops leaseId ∨
    s.Listed lease.nodeUrl leaseId

/-- What the records of a create are. -/
def CreateRecords (s : PoolCheckpoints) (c : CreateCall) : Prop :=
  ∀ q ∈ s.records, c.side.checkpointId? = some q.record.checkpointId →
    q.record.leaseId = c.payload.leaseId ∧ c.side.status? = some q.record.status

/-- No record is that of both. -/
def Distinct (c d : CreateCall) : Prop :=
  ∀ k ∈ d.side.checkpointId?, c.side.checkpointId? ≠ some k

/-- What holds of the creates and the locks. -/
structure Orderly (s : PoolCheckpoints) : Prop where
  apart : Apart Distinct s.creates
  records : ∀ c ∈ s.creates, s.CreateRecords c
  lease : ∀ c ∈ s.creates, c.waiting → ∃ lease, s.leases.lookup c.payload.leaseId = some lease ∧
    lease.containerId = c.payload.containerId ∧ lease.generation = c.payload.generation
  locked : ∀ c ∈ s.creates, c.waiting → ∀ r ∈ s.reruns, r.waiting →
    c.payload.leaseId ≠ r.leaseId

structure Inv (s : PoolCheckpoints) : Prop where
  orderly : s.Orderly
  cared : ∀ leaseId lease, s.leases.lookup leaseId = some lease → s.Cared leaseId lease

variable {s s' : PoolCheckpoints} {url leaseId : String} {lease : Lease} {p : Option String}

theorem mem_readyOf {r : CheckpointRecord} : r ∈ s.readyOf url leaseId ↔
    ∃ q ∈ s.records, q.url = url ∧ q.record.leaseId = leaseId ∧ q.record.status = .ready ∧
      q.record = r := by
  simp only [readyOf, recordsOf, List.mem_filter, List.mem_map, decide_eq_true_eq]
  constructor
  · intro h
    obtain ⟨⟨q, ⟨hq, hu, hl⟩, rfl⟩, hs⟩ := h
    exact ⟨q, hq, hu, hl, hs, rfl⟩
  · intro h
    obtain ⟨q, hq, hu, hl, hs, rfl⟩ := h
    exact ⟨⟨q, ⟨hq, hu, hl⟩, rfl⟩, hs⟩

/-- A pointer stays right as long as what it names stays ready and nothing that becomes
ready and answered is later than what was. -/
theorem RightFor.mono (h : s.RightFor url leaseId p)
    (hkeep : ∀ r ∈ s.readyOf url leaseId, p = some r.checkpointId → r ∈ s'.readyOf url leaseId)
    (hback : ∀ u ∈ s'.readyOf url leaseId, ¬s'.Outstanding u.checkpointId →
      ∃ v ∈ s.readyOf url leaseId, ¬s.Outstanding v.checkpointId ∧ u.sortKey ≤ v.sortKey) :
    s'.RightFor url leaseId p := by
  cases p with
  | none =>
    intro u hu
    by_contra ho
    obtain ⟨v, hv, hvo, -⟩ := hback u hu ho
    exact hvo (h v hv)
  | some k =>
    obtain ⟨r, hr, rfl, hmax⟩ := h
    refine ⟨r, hkeep r hr rfl, rfl, ?_⟩
    intro u hu ho hlt
    obtain ⟨v, hv, hvo, hle⟩ := hback u hu ho
    exact hmax v hv hvo (hlt.trans_le hle)

/-- A removable checkpoint that is pointed to has a call that will list. -/
theorem RightFor.unlisted {k : String} (h : s.RightFor lease.nodeUrl leaseId (some k))
    (hl : s.leases.lookup leaseId = some lease) (hk : s.Removable k) :
    Unlisted s.drops leaseId := by
  obtain ⟨r, hr, rfl, hmax⟩ := h
  rcases hk ⟨leaseId, lease⟩ (AList.mem_lookup_iff.mp hl) r hr rfl with hu | ⟨u, hu, ho, hlt⟩
  · exact hu
  · exact absurd hlt (hmax u hu ho)

/-- What a fresh listing takes for the latest is right. -/
theorem rightFor_latest : s.RightFor url leaseId
    ((Lease.latestReady (Gc.ascending (s.recordsOf url leaseId))).map (·.checkpointId)) := by
  have hmem : ∀ u, u ∈ (Gc.ascending (s.recordsOf url leaseId)).filter (·.status = .ready) ↔
      u ∈ s.readyOf url leaseId := by
    intro u
    simp only [List.mem_filter, Gc.mem_ascending, readyOf]
  cases hr : Lease.latestReady (Gc.ascending (s.recordsOf url leaseId)) with
  | none =>
    intro u hu
    rw [Lease.latestReady, List.argmax_eq_none] at hr
    rw [← hmem, hr] at hu
    cases hu
  | some r =>
    refine ⟨r, (hmem r).mp (List.argmax_mem hr), rfl, ?_⟩
    intro u hu _
    exact List.not_lt_of_mem_argmax ((hmem u).mpr hu) hr

/-- The calls of a lease stay where they stand. -/
def Kept (drops drops' : List DropCall) (leaseId : String) : Prop :=
  ∀ d ∈ drops, d.leaseId = leaseId → ∃ d' ∈ drops', d'.leaseId = leaseId ∧ d'.phase = d.phase

theorem Kept.refl {drops : List DropCall} : Kept drops drops leaseId :=
  fun d hd hl => ⟨d, hd, hl, rfl⟩

theorem Kept.set {drops : List DropCall} {i : Nat} {d d' : DropCall} (hi : drops[i]? = some d)
    (h : d.leaseId = leaseId → d'.leaseId = leaseId ∧ d'.phase = d.phase) :
    Kept drops (drops.set i d') leaseId := by
  intro e he hl
  obtain ⟨j, hj⟩ := List.mem_iff_getElem?.mp he
  by_cases hij : i = j
  · subst hij
    obtain rfl : d = e := Option.mem_unique hi hj
    exact ⟨d', List.mem_set (List.getElem?_eq_some_iff.mp hi).1 d', h hl⟩
  · exact ⟨e, List.mem_of_getElem? ((List.getElem?_set_ne hij).trans hj), hl, rfl⟩

theorem Cared.mono (h : s.Cared leaseId lease)
    (hright : ∀ p, s.RightFor lease.nodeUrl leaseId p →
      s'.RightFor lease.nodeUrl leaseId p ∨ Unlisted s.drops leaseId)
    (hdrops : Kept s.drops s'.drops leaseId) : s'.Cared leaseId lease := by
  have hunlisted : Unlisted s.drops leaseId → Unlisted s'.drops leaseId := by
    intro hu
    obtain ⟨d, hd, hl, hu⟩ := hu
    obtain ⟨d', hd', hl', hp⟩ := hdrops d hd hl
    exact ⟨d', hd', hl', hp ▸ hu⟩
  rcases h with h | h | ⟨d, hd, hl, checkpoints, hc, h⟩
  · exact (hright _ h).imp_right fun hu => .inl (hunlisted hu)
  · exact .inr (.inl (hunlisted h))
  · rcases hright _ h with h | hu
    · obtain ⟨d', hd', hl', hp⟩ := hdrops d hd hl
      exact .inr (.inr ⟨d', hd', hl', checkpoints, hp ▸ hc, h⟩)
    · exact .inr (.inl (hunlisted hu))

/-- A step that makes no checkpoint ready or not ready, and answers none. -/
theorem RightFor.same (h : s.RightFor url leaseId p) (hrecords : s'.records = s.records)
    (hout : ∀ k, s.Outstanding k → s'.Outstanding k) : s'.RightFor url leaseId p := by
  have hready : s'.readyOf url leaseId = s.readyOf url leaseId := by
    simp only [readyOf, recordsOf, hrecords]
  refine h.mono (fun r hr _ => hready ▸ hr) ?_
  intro u hu ho
  exact ⟨u, hready ▸ hu, fun hs => ho (hout _ hs), le_rfl⟩

/-- A removable checkpoint goes. -/
theorem RightFor.remove {k : String} (h : s.RightFor lease.nodeUrl leaseId p)
    (hl : s.leases.lookup leaseId = some lease) (hk : s.Removable k)
    (hsub : ∀ r ∈ s'.readyOf lease.nodeUrl leaseId, r ∈ s.readyOf lease.nodeUrl leaseId)
    (hkeep : ∀ r ∈ s.readyOf lease.nodeUrl leaseId, r.checkpointId ≠ k →
      r ∈ s'.readyOf lease.nodeUrl leaseId)
    (hout : ∀ k, s.Outstanding k → s'.Outstanding k) :
    s'.RightFor lease.nodeUrl leaseId p ∨ Unlisted s.drops leaseId := by
  by_cases hp : p = some k
  · rw [hp] at h
    exact .inr (h.unlisted hl hk)
  · refine .inl (h.mono ?_ ?_)
    · intro r hr hpr
      refine hkeep r hr ?_
      intro he
      rw [he] at hpr
      exact hp hpr
    · exact fun u hu ho => ⟨u, hsub u hu, fun hs => ho (hout _ hs), le_rfl⟩

theorem mem_readyOf_removeRecord {k : String} {r : CheckpointRecord} {node : String} :
    (r ∈ (s.removeRecord node k).readyOf url leaseId → r ∈ s.readyOf url leaseId) ∧
      (r ∈ s.readyOf url leaseId → r.checkpointId ≠ k →
        r ∈ (s.removeRecord node k).readyOf url leaseId) := by
  constructor
  · intro h
    obtain ⟨q, hq, h⟩ := mem_readyOf.mp h
    exact mem_readyOf.mpr ⟨q, List.mem_of_mem_filter hq, h⟩
  · intro h hne
    obtain ⟨q, hq, hu, hl, hs, rfl⟩ := mem_readyOf.mp h
    refine mem_readyOf.mpr ⟨q, List.mem_filter.mpr ⟨hq, ?_⟩, hu, hl, hs, rfl⟩
    simp [hne]

/-- Of the checkpoints with another id a change of status leaves those that are ready. -/
theorem mem_readyOf_setStatus {k : String} {status : CheckpointStatus} {r : CheckpointRecord}
    (hne : r.checkpointId ≠ k) :
    r ∈ (s.setStatus k status).readyOf url leaseId ↔ r ∈ s.readyOf url leaseId := by
  rw [mem_readyOf, mem_readyOf]
  constructor
  · intro h
    obtain ⟨q', hq', hu, hl, hs, rfl⟩ := h
    obtain ⟨q, hq, rfl⟩ := List.mem_map.mp hq'
    split_ifs at hu hl hs hne ⊢ with he
    · exact absurd he hne
    · exact ⟨q, hq, hu, hl, hs, rfl⟩
  · intro h
    obtain ⟨q, hq, hu, hl, hs, rfl⟩ := h
    exact ⟨q, List.mem_map.mpr ⟨q, hq, by simp [hne]⟩, hu, hl, hs, rfl⟩

/-- The checkpoint with the id has the status. -/
theorem status_of_setStatus {k : String} {status : CheckpointStatus} {q : NodeRecord}
    (hq : q ∈ (s.setStatus k status).records) (he : q.record.checkpointId = k) :
    q.record.status = status ∧ ∃ q₀ ∈ s.records, q₀.record.checkpointId = k ∧ q.url = q₀.url ∧
      q.record = { q₀.record with status := status } := by
  obtain ⟨q₀, hq₀, rfl⟩ := List.mem_map.mp hq
  split_ifs at he ⊢ with h
  · exact ⟨rfl, q₀, hq₀, h, rfl, rfl⟩
  · exact absurd he h

/-- Every lease keeps its container and its generation. -/
def Lasting (leases leases' : Dict String Lease) : Prop :=
  ∀ leaseId lease, leases.lookup leaseId = some lease →
    ∃ lease', leases'.lookup leaseId = some lease' ∧
      lease'.containerId = lease.containerId ∧ lease'.generation = lease.generation

theorem Lasting.refl {leases : Dict String Lease} : Lasting leases leases :=
  fun _ lease hl => ⟨lease, hl, rfl, rfl⟩

theorem lasting_insert {leases : Dict String Lease} {lease' : Lease}
    (hl : leases.lookup leaseId = some lease) (hcontainer : lease'.containerId = lease.containerId)
    (hgeneration : lease'.generation = lease.generation) :
    Lasting leases (AList.insert leaseId lease' leases) := by
  intro l lease₀ hl₀
  rw [Dict.lookup_insert_ite]
  split_ifs with he
  · subst he
    obtain rfl : lease = lease₀ := Option.mem_unique hl hl₀
    exact ⟨lease', rfl, hcontainer, hgeneration⟩
  · exact ⟨lease₀, hl₀, rfl, rfl⟩

/-- A step of one create. -/
theorem Orderly.set (h : s.Orderly) {i : Nat} {c c' : CreateCall} (hi : s.creates[i]? = some c)
    (hcreates : s'.creates = s.creates.set i c') (hreruns : s'.reruns = s.reruns)
    (hpayload : c'.payload = c.payload) (hwait : c'.waiting → c.waiting)
    (hapart : ∀ (j : Nat) (d : CreateCall), i ≠ j → s.creates[j]? = some d → Distinct c' d)
    (hrecords : s'.CreateRecords c')
    (hothers : ∀ (j : Nat) (d : CreateCall), i ≠ j → s.creates[j]? = some d →
      s'.CreateRecords d)
    (hleases : Lasting s.leases s'.leases) :
    s'.Orderly := by
  have hc := List.mem_of_getElem? hi
  have hlease : ∀ d ∈ s.creates, d.waiting →
      ∃ lease, s'.leases.lookup d.payload.leaseId = some lease ∧
        lease.containerId = d.payload.containerId ∧ lease.generation = d.payload.generation := by
    intro d hd hw
    obtain ⟨lease, hl, hcont, hgen⟩ := h.lease d hd hw
    obtain ⟨lease', hl', hcont', hgen'⟩ := hleases _ lease hl
    exact ⟨lease', hl', hcont'.trans hcont, hgen'.trans hgen⟩
  refine ⟨?_, ?_, ?_, ?_⟩ <;> rw [hcreates]
  · refine h.apart.set ?_
    intro j d hij hd
    exact ⟨hapart j d hij hd, fun k hk hdk => hapart j d hij hd k hdk hk⟩
  · intro d hd
    rcases mem_set_cases hd with rfl | ⟨j, hij, hj⟩
    · exact hrecords
    · exact hothers j d hij hj
  · intro d hd hw
    rcases mem_set_cases hd with rfl | ⟨j, hij, hj⟩
    · rw [hpayload]
      exact hlease c hc (hwait hw)
    · exact hlease d (List.mem_of_getElem? hj) hw
  · intro d hd hw r hr
    rw [hreruns] at hr
    rcases mem_set_cases hd with rfl | ⟨j, hij, hj⟩
    · rw [hpayload]
      exact h.locked c hc (hwait hw) r hr
    · exact h.locked d (List.mem_of_getElem? hj) hw r hr

/-- A step that may take records away and move pointers. -/
theorem Orderly.keep (h : s.Orderly) (hcreates : s'.creates = s.creates)
    (hreruns : s'.reruns = s.reruns) (hrecords : ∀ q ∈ s'.records, q ∈ s.records)
    (hleases : Lasting s.leases s'.leases) :
    s'.Orderly := by
  refine ⟨?_, ?_, ?_, ?_⟩ <;> rw [hcreates]
  · exact h.apart
  · exact fun c hc q hq => h.records c hc q (hrecords q hq)
  · intro c hc hw
    obtain ⟨lease, hl, hcont, hgen⟩ := h.lease c hc hw
    obtain ⟨lease', hl', hcont', hgen'⟩ := hleases _ lease hl
    exact ⟨lease', hl', hcont'.trans hcont, hgen'.trans hgen⟩
  · rw [hreruns]
    exact h.locked

theorem Inv.allocate (h : s.Inv) {nodeUrl containerId image : String}
    (hn : s.next (.allocate leaseId nodeUrl containerId image) = some s') : s'.Inv := by
  simp only [next] at hn
  split_ifs at hn with hnew
  cases hn
  rw [not_or, not_exists] at hnew
  obtain ⟨hmem, hrec⟩ := hnew
  have hne : ∀ l lease, s.leases.lookup l = some lease → l ≠ leaseId := by
    intro l lease hl he
    subst he
    exact hmem (AList.lookup_isSome.mp (by rw [hl]; rfl))
  refine ⟨h.orderly.keep rfl rfl (fun _ hq => hq) ?_, ?_⟩
  · intro l lease hl
    refine ⟨lease, ?_, rfl, rfl⟩
    rw [setLease, Dict.lookup_insert_ite, if_neg (hne l lease hl)]
    exact hl
  · intro l lease hl
    rw [setLease, Dict.lookup_insert_ite] at hl
    split_ifs at hl with he
    · cases hl
      refine .inl fun r hr => ?_
      obtain ⟨q, hq, -, hql, -, -⟩ := mem_readyOf.mp hr
      exact absurd ⟨hq, hql.trans he⟩ (hrec q)
    · exact (h.cared l lease hl).mono (fun p hp => .inl (hp.same rfl fun _ ho => ho)) .refl

theorem Inv.create (h : s.Inv) {stepIdx : Int} {checkpointBackend : CheckpointBackend}
    {parentCheckpointId : Option String}
    (hn : s.next (.create leaseId stepIdx checkpointBackend parentCheckpointId) = some s') :
    s'.Inv := by
  simp only [next] at hn
  split at hn
  · cases hn
    exact h
  · rename_i lease hlease
    split_ifs at hn with hfree
    cases hn
    simp only [isFree, Bool.and_eq_true, List.all_eq_true] at hfree
    refine ⟨⟨?_, ?_, ?_, ?_⟩, ?_⟩
    · refine h.orderly.apart.concat fun c _ => ?_
      constructor <;> simp [Distinct, CreateSide.checkpointId?]
    · intro c hc
      rcases List.mem_append.mp hc with hc | hc
      · exact h.orderly.records c hc
      · rw [List.mem_singleton.mp hc]
        simp [CreateRecords, CreateSide.checkpointId?]
    · intro c hc hw
      rcases List.mem_append.mp hc with hc | hc
      · exact h.orderly.lease c hc hw
      · rw [List.mem_singleton.mp hc]
        exact ⟨lease, hlease, rfl, rfl⟩
    · intro c hc hw r hr hrw
      rcases List.mem_append.mp hc with hc | hc
      · exact h.orderly.locked c hc hw r hr hrw
      · rw [List.mem_singleton.mp hc]
        have hf := hfree.2 r hr
        rw [hrw] at hf
        exact fun he => by simp [← he] at hf
    · intro l lease hl
      refine (h.cared l lease hl).mono (fun p hp => .inl (hp.same rfl ?_)) .refl
      intro k ho
      obtain ⟨c, hc, ho⟩ := ho
      exact ⟨c, List.mem_append_left _ hc, ho⟩

/-- Outside the create itself, what is outstanding stays so. -/
theorem outstanding_set {i : Nat} {c c' : CreateCall} {k : String}
    (hi : s.creates[i]? = some c) (hcreates : s'.creates = s.creates.set i c')
    (hc' : c.waiting → c.side.checkpointId? = some k →
      c'.waiting ∧ c'.side.checkpointId? = some k) (h : s.Outstanding k) :
    s'.Outstanding k := by
  have hlt : i < s.creates.length := (List.getElem?_eq_some_iff.mp hi).1
  obtain ⟨d, hd, hw, hk⟩ := h
  obtain ⟨j, hj⟩ := List.mem_iff_getElem?.mp hd
  by_cases hij : i = j
  · subst hij
    rw [hi] at hj
    cases hj
    exact ⟨c', hcreates ▸ List.mem_set hlt c', hc' hw hk⟩
  · refine ⟨d, ?_, hw, hk⟩
    rw [hcreates]
    exact List.mem_of_getElem? ((List.getElem?_set_ne hij).trans hj)

theorem Inv.makeRecord (h : s.Inv) {i : Nat} {checkpointId : String} {createdAt : Rat}
    (hn : s.next (.makeRecord i checkpointId createdAt) = some s') : s'.Inv := by
  simp only [next] at hn
  split at hn
  · cases hn
  · rename_i c hi
    split at hn
    · rename_i lease hside hlease
      split_ifs at hn with hfresh
      cases hn
      obtain ⟨hnew, hids⟩ := hfresh
      have hc := List.mem_of_getElem? hi
      have hrecords : ∀ d : CreateCall, d.side.checkpointId? ≠ some checkpointId →
          s.CreateRecords d → CreateRecords { s with
            records := s.records ++
              [⟨lease.nodeUrl, c.payload.newRecord lease.image checkpointId createdAt⟩]
            creates := s.creates.set i { c with side := .made checkpointId .pending } } d := by
        intro d hne hd q hq hk
        rcases List.mem_append.mp hq with hq | hq
        · exact hd q hq hk
        · rw [List.mem_singleton.mp hq] at hk
          exact absurd hk hne
      refine ⟨h.orderly.set hi rfl rfl rfl id ?_ ?_ ?_ .refl, ?_⟩
      · intro j d _ hd k hk he
        cases he
        exact hids d (List.mem_of_getElem? hd) hk
      · intro q hq hk
        rcases List.mem_append.mp hq with hq | hq
        · exact absurd (Option.some.inj hk).symm (hnew q hq)
        · rw [List.mem_singleton.mp hq]
          exact ⟨rfl, rfl⟩
      · intro j d _ hd
        have hdm := List.mem_of_getElem? hd
        exact hrecords d (hids d hdm) (h.orderly.records d hdm)
      · intro l lease' hl
        refine (h.cared l lease' hl).mono (fun p hp => .inl (hp.mono ?_ ?_)) .refl
        · intro r hr _
          obtain ⟨q, hq, hr⟩ := mem_readyOf.mp hr
          exact mem_readyOf.mpr ⟨q, List.mem_append_left _ hq, hr⟩
        · intro u hu ho
          obtain ⟨q, hq, hurl, hql, hqs, rfl⟩ := mem_readyOf.mp hu
          rcases List.mem_append.mp hq with hq | hq
          · refine ⟨q.record, mem_readyOf.mpr ⟨q, hq, hurl, hql, hqs, rfl⟩, fun hs => ho ?_, le_rfl⟩
            refine outstanding_set hi rfl ?_ hs
            simp [hside, CreateSide.checkpointId?]
          · rw [List.mem_singleton.mp hq] at hqs
            cases hqs
    · cases hn

theorem Inv.settleRecord (h : s.Inv) {i : Nat} {status : CheckpointStatus}
    (hf : s.Fit (.settleRecord i status)) (hn : s.next (.settleRecord i status) = some s') :
    s'.Inv := by
  simp only [next] at hn
  split at hn
  · cases hn
  · rename_i c hi
    split at hn
    · rename_i k old hside
      split_ifs at hn with hpending
      cases hn
      have hc := List.mem_of_getElem? hi
      have hid : c.side.checkpointId? = some k := by rw [hside]; rfl
      have hout : ∀ x, s.Outstanding x → Outstanding ((s.setStatus k status).setCreate i
          { c with side := .made k status }) x := by
        intro x hx
        refine outstanding_set hi rfl ?_ hx
        intro hw hx
        rw [hside] at hx
        exact ⟨hw, hx⟩
      refine ⟨h.orderly.set hi rfl rfl rfl id ?_ ?_ ?_ .refl, ?_⟩
      · intro j d hij hd x hx he
        refine h.orderly.apart i j c d hij hi hd x hx ?_
        rw [hid]
        exact he
      · intro q hq hk
        obtain ⟨hs, q₀, hq₀, he₀, -, hr⟩ := status_of_setStatus hq (Option.some.inj hk).symm
        refine ⟨?_, by rw [hs]; rfl⟩
        rw [hr]
        exact (h.orderly.records c hc q₀ hq₀ (by rw [hid, he₀])).1
      · intro j d hij hd q hq hk
        obtain ⟨q₀, hq₀, rfl⟩ := List.mem_map.mp hq
        split_ifs at hk ⊢ with he
        · exact absurd (hid.trans (congrArg some he.symm))
            (h.orderly.apart i j c d hij hi hd _ hk)
        · exact h.orderly.records d (List.mem_of_getElem? hd) q₀ hq₀ hk
      · intro l lease hl
        refine (h.cared l lease hl).mono (fun p hp => ?_) .refl
        by_cases hready : status = .ready
        · subst hready
          by_cases hlist : Unlisted s.drops l
          · exact .inr hlist
          refine .inl (hp.mono ?_ ?_)
          · intro r hr _
            by_cases hrk : r.checkpointId = k
            · obtain ⟨q, hq, hu, hql, hqs, rfl⟩ := mem_readyOf.mp hr
              refine mem_readyOf.mpr ⟨_, List.mem_map_of_mem hq, ?_⟩
              rw [if_pos hrk]
              refine ⟨hu, hql, rfl, ?_⟩
              rw [← hqs]
            · exact (mem_readyOf_setStatus hrk).mpr hr
          · intro u hu ho
            by_cases huk : u.checkpointId = k
            · have hlt : i < s.creates.length := (List.getElem?_eq_some_iff.mp hi).1
              have hw : ¬c.waiting := by
                intro hw
                exact ho ⟨_, List.mem_set hlt _, hw, by rw [huk]; rfl⟩
              obtain ⟨q, hq, hurl, hql, -, rfl⟩ := mem_readyOf.mp hu
              obtain ⟨-, q₀, hq₀, he₀, hurl₀, hr⟩ := status_of_setStatus hq huk
              have hl₀ : q₀.record.leaseId = l := by rw [← hql, hr]
              have hcovered := (hf c hi).resolve_left hw q₀ hq₀ (by rw [hid, he₀])
              rcases hcovered lease (hl₀ ▸ hl) (hurl₀ ▸ hurl) with hlisted | ⟨v, hv, hvo, hle⟩
              · exact absurd (hl₀ ▸ hlisted) hlist
              · rw [hl₀, ← hurl₀, hurl] at hv
                exact ⟨v, hv, hvo, by rw [hr]; exact hle⟩
            · exact ⟨u, (mem_readyOf_setStatus huk).mp hu, fun hs => ho (hout _ hs), le_rfl⟩
        · have hfailed : status = .failed := by
            cases status
            · exact absurd rfl hpending
            · exact absurd rfl hready
            · rfl
          subst hfailed
          refine hp.remove hl (hf c hi k hid) ?_ ?_ hout
          · intro r hr
            refine (mem_readyOf_setStatus ?_).mp hr
            intro he
            obtain ⟨q, hq, -, -, hqs, rfl⟩ := mem_readyOf.mp hr
            have hst := (status_of_setStatus hq he).1
            rw [hst] at hqs
            cases hqs
          · exact fun r hr hne => (mem_readyOf_setStatus hne).mpr hr
    · cases hn

/-- A step of one create that leaves records and pointers alone; if the create ends with it,
its checkpoint is not ready or covered. -/
theorem Inv.set_create (h : s.Inv) {i : Nat} {c c' : CreateCall} (hi : s.creates[i]? = some c)
    (hpayload : c'.payload = c.payload) (hwait : c'.waiting → c.waiting)
    (hid : c'.side.checkpointId? = c.side.checkpointId?)
    (hstatus : c'.side.status? = c.side.status?)
    (hanswer : c'.waiting = c.waiting ∨ ∀ q ∈ s.records,
      c.side.checkpointId? = some q.record.checkpointId → q.record.status = .ready →
        s.Covered q) :
    (s.setCreate i c').Inv := by
  have hc := List.mem_of_getElem? hi
  refine ⟨h.orderly.set hi rfl rfl hpayload hwait ?_ ?_ ?_ .refl, ?_⟩
  · intro j d hij hd x hx
    rw [hid]
    exact h.orderly.apart i j c d hij hi hd x hx
  · intro q hq hk
    rw [hpayload, hstatus]
    exact h.orderly.records c hc q hq (hid.symm.trans hk)
  · exact fun j d _ hd => h.orderly.records d (List.mem_of_getElem? hd)
  · intro l lease hl
    refine (h.cared l lease hl).mono (fun p hp => ?_) .refl
    by_cases hlist : Unlisted s.drops l
    · exact .inr hlist
    refine .inl (hp.mono (fun r hr _ => hr) ?_)
    intro u hu ho
    by_cases hs : s.Outstanding u.checkpointId
    · rcases hanswer with he | hcovered
      · exact absurd (outstanding_set hi rfl (fun hw hk => ⟨he ▸ hw, hid.trans hk⟩) hs) ho
      · by_cases hk : c.side.checkpointId? = some u.checkpointId
        · obtain ⟨q, hq, hurl, hql, hqs, rfl⟩ := mem_readyOf.mp hu
          subst hql
          rcases hcovered q hq hk hqs lease hl hurl with hlisted | ⟨v, hv, hvo, hle⟩
          · exact absurd hlisted hlist
          · exact ⟨v, hurl ▸ hv, hvo, hle⟩
        · exact absurd (outstanding_set hi rfl (fun _ he => absurd he hk) hs) ho
    · exact ⟨u, hu, hs, le_rfl⟩

theorem Inv.answerCreate (h : s.Inv) {i : Nat} (hn : s.next (.answerCreate i) = some s') :
    s'.Inv := by
  simp only [next] at hn
  split at hn
  · cases hn
  · rename_i c hi
    split at hn
    · rename_i k status hside
      split_ifs at hn
      cases hn
      exact h.set_create hi rfl id (by rw [hside]; rfl) (by rw [hside]; rfl) (.inl rfl)
    · cases hn

theorem Inv.refuseCreate (h : s.Inv) {i : Nat} (hn : s.next (.refuseCreate i) = some s') :
    s'.Inv := by
  simp only [next] at hn
  split at hn
  · cases hn
  · rename_i c hi
    split_ifs at hn with hside
    cases hn
    exact h.set_create hi rfl id (by rw [hside]; rfl) (by rw [hside]; rfl) (.inl rfl)

theorem Inv.failCreate (h : s.Inv) {i : Nat} (hf : s.Fit (.failCreate i))
    (hn : s.next (.failCreate i) = some s') : s'.Inv := by
  simp only [next] at hn
  split at hn
  · cases hn
  · rename_i c hi
    split_ifs at hn
    cases hn
    exact h.set_create hi rfl (fun hw => by cases hw) rfl rfl (.inr (hf c hi))

/-- An answer that calls no checkpoint ready moves no pointer. -/
theorem replyCreate_of_none {c : CreateCall} (h : c.side.readyId? = none) :
    s.replyCreate c = s := by
  unfold replyCreate
  split
  · rename_i k lease hside _
    rw [hside] at h
    cases h
  · rfl

theorem answered_of_readyId {side : CreateSide} {k : String} (h : side.readyId? = some k) :
    side = .answered k .ready := by
  cases side with
  | answered id status => cases status <;> cases h; rfl
  | _ => cases h

/-- The records of a create whose answer calls none ready are not ready. -/
theorem CreateRecords.not_ready {c : CreateCall} (h : s.CreateRecords c)
    (hfin : c.side.isFinished) (hid : c.side.readyId? = none) :
    ∀ q ∈ s.records, c.side.checkpointId? = some q.record.checkpointId →
      q.record.status ≠ .ready := by
  intro q hq hk hs
  have hst := (h q hq hk).2
  cases hside : c.side with
  | answered k status =>
    rw [hside, hs] at hst
    rw [hside, Option.some.inj hst] at hid
    cases hid
  | refused =>
    rw [hside] at hst
    cases hst
  | _ =>
    rw [hside] at hfin
    cases hfin

theorem Inv.replyCreate (h : s.Inv) {i : Nat} (hf : s.Fit (.replyCreate i))
    (hn : s.next (.replyCreate i) = some s') : s'.Inv := by
  simp only [next] at hn
  split at hn
  · cases hn
  · rename_i c hi
    split_ifs at hn with hw
    cases hn
    obtain ⟨hw, hfin⟩ := hw
    have hc := List.mem_of_getElem? hi
    cases hid : c.side.readyId? with
    | none =>
      rw [replyCreate_of_none hid]
      have hready := (h.orderly.records c hc).not_ready hfin hid
      exact h.set_create hi rfl (fun hw => by cases hw) rfl rfl
        (.inr fun q hq hk hs => absurd hs (hready q hq hk))
    | some k =>
      obtain ⟨lease, hl, hcont, hgen⟩ := h.orderly.lease c hc hw
      have hmoved : s.replyCreate c =
          s.setLease c.payload.leaseId (lease.advance k c.payload.stepIdx) := by
        simp only [PoolCheckpoints.replyCreate, answered_of_readyId hid, hl]
        exact if_pos ⟨.inr hcont, hgen⟩
      rw [hmoved]
      refine ⟨h.orderly.set hi rfl rfl rfl (fun hw => by cases hw) ?_ ?_ ?_ ?_, ?_⟩
      · exact fun j d hij hd => h.orderly.apart i j c d hij hi hd
      · exact h.orderly.records c hc
      · exact fun j d _ hd => h.orderly.records d (List.mem_of_getElem? hd)
      · exact lasting_insert hl rfl rfl
      · intro l lease₀ hl₀
        simp only [setCreate, setLease, Dict.lookup_insert_ite] at hl₀
        split_ifs at hl₀ with he
        · subst he
          cases hl₀
          rcases hf c hi k hid with hlist | ⟨lease', hl', r, hr, hrk, hmax⟩
          · exact .inr (.inl hlist)
          · obtain rfl : lease = lease' := Option.mem_unique hl hl'
            exact .inl ⟨r, hr, hrk, fun u hu _ => hmax u hu⟩
        · refine (h.cared l lease₀ hl₀).mono
            (fun p hp => .inl (hp.mono (fun r hr _ => hr) ?_)) .refl
          intro u hu ho
          refine ⟨u, hu, fun hs => ho ?_, le_rfl⟩
          refine outstanding_set hi rfl ?_ hs
          intro _ hk
          obtain ⟨q, hq, -, hql, -, rfl⟩ := mem_readyOf.mp hu
          exact absurd (hql.symm.trans (h.orderly.records c hc q hq hk).1) he

/-- A step of one delete or collection that leaves all else alone. -/
theorem Inv.set_drop (h : s.Inv) {i : Nat} {d d' : DropCall} (hi : s.drops[i]? = some d)
    (hcared : ∀ lease, s.leases.lookup d.leaseId = some lease →
      (s.setDrop i d').Cared d.leaseId lease) : (s.setDrop i d').Inv := by
  refine ⟨h.orderly.keep rfl rfl (fun _ hq => hq) .refl, ?_⟩
  intro l lease hl
  by_cases he : l = d.leaseId
  · subst he
    exact hcared lease hl
  · exact (h.cared l lease hl).mono (fun p hp => .inl hp) (.set hi fun hd => absurd hd.symm he)

theorem unlisted_of_erase {i : Nat} {d' : DropCall}
    (h : Unlisted (s.drops.eraseIdx i) leaseId) : Unlisted (s.setDrop i d').drops leaseId := by
  obtain ⟨e, he, hle, hu⟩ := h
  obtain ⟨j, hj, he⟩ := List.mem_eraseIdx_iff_getElem?.mp he
  exact ⟨e, List.mem_of_getElem? ((List.getElem?_set_ne (Ne.symm hj)).trans he), hle, hu⟩

/-- A call ends that can be dispensed with. -/
theorem cared_of_dispensable {i : Nat} {d d' : DropCall} (hd : s.Dispensable i d)
    (hl : s.leases.lookup d.leaseId = some lease) :
    (s.setDrop i d').Cared d.leaseId lease := by
  rcases hd lease hl with hr | hu
  · exact .inl hr
  · exact .inr (.inl (unlisted_of_erase hu))

theorem Inv.replyDrop (h : s.Inv) {i : Nat} (hf : s.Fit (.replyDrop i))
    (hn : s.next (.replyDrop i) = some s') : s'.Inv := by
  simp only [next] at hn
  split at hn
  · cases hn
  · rename_i d hi
    split at hn
    · rename_i ok hphase hprocessed
      cases hn
      refine h.set_drop hi ?_
      intro lease hl
      cases ok
      · exact cared_of_dispensable (hf d hi hprocessed) hl
      · have hlt : i < s.drops.length := (List.getElem?_eq_some_iff.mp hi).1
        exact .inr (.inl ⟨_, List.mem_set hlt _, rfl, rfl⟩)
    · cases hn

theorem Inv.listDrop (h : s.Inv) {i : Nat} (hn : s.next (.listDrop i) = some s') : s'.Inv := by
  simp only [next] at hn
  split at hn
  · cases hn
  · rename_i d hi
    split at hn
    · rename_i lease hphase hlease
      cases hn
      refine h.set_drop hi ?_
      intro lease' hl
      rw [hlease] at hl
      cases hl
      have hlt : i < s.drops.length := (List.getElem?_eq_some_iff.mp hi).1
      exact .inr (.inr ⟨_, List.mem_set hlt _, rfl, _, rfl, rightFor_latest⟩)
    · cases hn

theorem Inv.failDrop (h : s.Inv) {i : Nat} (hf : s.Fit (.failDrop i))
    (hn : s.next (.failDrop i) = some s') : s'.Inv := by
  simp only [next] at hn
  split at hn
  · cases hn
  · rename_i d hi
    split_ifs at hn
    cases hn
    exact h.set_drop hi fun lease hl => cared_of_dispensable (hf d hi) hl

theorem Inv.refreshDrop (h : s.Inv) {i : Nat} (hf : s.Fit (.refreshDrop i))
    (hn : s.next (.refreshDrop i) = some s') : s'.Inv := by
  simp only [next] at hn
  split at hn
  · cases hn
  · rename_i d hi
    split at hn
    · rename_i checkpoints lease hphase hlease
      cases hn
      refine ⟨h.orderly.keep rfl rfl (fun _ hq => hq) (lasting_insert hlease rfl rfl), ?_⟩
      intro l lease₀ hl
      simp only [setDrop, setLease, Dict.lookup_insert_ite] at hl
      split_ifs at hl with he
      · subst he
        cases hl
        rcases hf d hi checkpoints (by rw [hphase]; rfl) with hu | hr
        · exact .inr (.inl (unlisted_of_erase hu))
        · exact .inl (hr lease hlease)
      · exact (h.cared l lease₀ hl).mono (fun p hp => .inl hp)
          (.set hi fun hd => absurd hd.symm he)
    · cases hn

/-- A step that leaves the leases, the creates and the records alone. -/
theorem Inv.same (h : s.Inv) (hleases : s'.leases = s.leases) (hrecords : s'.records = s.records)
    (hcreates : s'.creates = s.creates) (hreruns : s'.reruns = s.reruns)
    (hdrops : ∀ leaseId, Kept s.drops s'.drops leaseId) : s'.Inv := by
  refine ⟨h.orderly.keep hcreates hreruns (fun q hq => hrecords ▸ hq) (hleases ▸ .refl), ?_⟩
  intro l lease hl
  rw [hleases] at hl
  refine (h.cared l lease hl).mono (fun p hp => .inl (hp.same hrecords ?_)) (hdrops l)
  intro k ho
  obtain ⟨c, hc, ho⟩ := ho
  exact ⟨c, hcreates ▸ hc, ho⟩

/-- A removable checkpoint is removed. -/
theorem Inv.remove (h : s.Inv) {node k : String} (hk : s.Removable k)
    (hleases : s'.leases = s.leases) (hrecords : s'.records = (s.removeRecord node k).records)
    (hcreates : s'.creates = s.creates) (hreruns : s'.reruns = s.reruns)
    (hdrops : ∀ leaseId, Kept s.drops s'.drops leaseId) : s'.Inv := by
  have hready : ∀ l u, s'.readyOf l u = (s.removeRecord node k).readyOf l u := by
    intro l u
    simp only [readyOf, recordsOf, hrecords]
  refine ⟨h.orderly.keep hcreates hreruns ?_ (hleases ▸ .refl), ?_⟩
  · intro q hq
    rw [hrecords] at hq
    exact List.mem_of_mem_filter hq
  · intro l lease hl
    rw [hleases] at hl
    refine (h.cared l lease hl).mono (fun p hp => hp.remove hl hk ?_ ?_ ?_) (hdrops l)
    · intro r hr
      rw [hready] at hr
      exact mem_readyOf_removeRecord.1 hr
    · intro r hr hne
      rw [hready]
      exact mem_readyOf_removeRecord.2 hr hne
    · intro x ho
      obtain ⟨c, hc, ho⟩ := ho
      exact ⟨c, hcreates ▸ hc, ho⟩

/-- The node removes the checkpoint of a delete, or only plans deletions. -/
theorem process_cases (node : String) (d : DropCall) (activeImages : List String) :
    (∃ k, d.request.deleted? = some k ∧
      (s.process node d activeImages).1 = s.removeRecord node k) ∨
    ∃ jobs, (s.process node d activeImages).1 = { s with jobs := jobs } := by
  unfold process
  cases hreq : d.request with
  | delete k =>
    dsimp only
    split
    · exact .inr ⟨s.jobs, rfl⟩
    · split_ifs
      · exact .inr ⟨s.jobs, rfl⟩
      · exact .inl ⟨k, rfl, rfl⟩
  | gc keepLatest dryRun =>
    dsimp only
    split_ifs
    · exact .inr ⟨s.jobs, rfl⟩
    · exact .inr ⟨_, rfl⟩

theorem Inv.drop (h : s.Inv) {request : DropRequest}
    (hn : s.next (.drop leaseId request) = some s') : s'.Inv := by
  simp only [next] at hn
  split_ifs at hn
  · cases hn
    exact h.same rfl rfl rfl rfl fun l d hd hl => ⟨d, List.mem_append_left _ hd, hl, rfl⟩
  · cases hn
    exact h

theorem Inv.processDrop (h : s.Inv) {i : Nat} {activeImages : List String}
    (hf : s.Fit (.processDrop i activeImages))
    (hn : s.next (.processDrop i activeImages) = some s') : s'.Inv := by
  simp only [next] at hn
  split at hn
  · cases hn
  · rename_i d hi
    split at hn
    · rename_i lease hprocessed hlease
      cases hn
      rcases process_cases (s := s) lease.nodeUrl d activeImages with ⟨k, hk, he⟩ | ⟨jobs, he⟩
      · rw [he]
        exact h.remove (hf d hi k hk) rfl rfl rfl rfl fun l => .set hi fun hl => ⟨hl, rfl⟩
      · rw [he]
        exact h.same rfl rfl rfl rfl fun l => .set hi fun hl => ⟨hl, rfl⟩
    · cases hn

theorem Inv.gcNode (h : s.Inv) {keepLatest : Int} {activeImages : List String}
    (hn : s.next (.gcNode url keepLatest activeImages) = some s') : s'.Inv := by
  simp only [next] at hn
  cases hn
  exact h.same rfl rfl rfl rfl fun l => .refl

theorem Inv.collect (h : s.Inv) {j : Nat} (hf : s.Fit (.collect j))
    (hn : s.next (.collect j) = some s') : s'.Inv := by
  simp only [next] at hn
  split at hn
  · cases hn
  · rename_i job hj
    split at hn
    · cases hn
    · rename_i k rest hids
      cases hn
      exact h.remove (hf job hj k (by rw [hids]; rfl)) rfl rfl rfl rfl fun l => .refl

theorem Inv.rerun (h : s.Inv) (hn : s.next (.rerun leaseId) = some s') : s'.Inv := by
  simp only [next] at hn
  split at hn
  · cases hn
    exact h
  · split_ifs at hn with hfree
    cases hn
    simp only [isFree, Bool.and_eq_true, List.all_eq_true] at hfree
    refine ⟨⟨h.orderly.apart, h.orderly.records, h.orderly.lease, ?_⟩, ?_⟩
    · intro c hc hw r hr hrw
      rcases List.mem_append.mp hr with hr | hr
      · exact h.orderly.locked c hc hw r hr hrw
      · rw [List.mem_singleton.mp hr]
        have hf := hfree.1 c hc
        rw [hw] at hf
        simpa using hf
    · exact fun l lease hl => (h.cared l lease hl).mono (fun p hp => .inl hp) .refl

/-- While a rerun waits no create of its lease does, so that the lease may change. -/
theorem Inv.replyRerun (h : s.Inv) {i : Nat} {containerId : Option String}
    (hn : s.next (.replyRerun i containerId) = some s') : s'.Inv := by
  simp only [next] at hn
  split at hn
  · cases hn
  · rename_i c hi
    split_ifs at hn with hw
    have hc := List.mem_of_getElem? hi
    have hlocked : ∀ d ∈ s.creates, d.waiting → ∀ r ∈ s.reruns.set i { c with waiting := false },
        r.waiting → d.payload.leaseId ≠ r.leaseId := by
      intro d hd hdw r hr hrw
      rcases mem_set_cases hr with rfl | ⟨j, -, hj⟩
      · cases hrw
      · exact h.orderly.locked d hd hdw r (List.mem_of_getElem? hj) hrw
    have hcared : ∀ l lease, s.leases.lookup l = some lease →
        Cared { s with reruns := s.reruns.set i { c with waiting := false } } l lease :=
      fun l lease hl => (h.cared l lease hl).mono (fun p hp => .inl hp) .refl
    split at hn
    · rename_i container lease hlease
      cases hn
      refine ⟨⟨h.orderly.apart, h.orderly.records, ?_, hlocked⟩, ?_⟩
      · intro d hd hdw
        obtain ⟨lease₀, hl₀, hrest⟩ := h.orderly.lease d hd hdw
        refine ⟨lease₀, ?_, hrest⟩
        rw [setLease, Dict.lookup_insert_ite, if_neg (h.orderly.locked d hd hdw c hc hw)]
        exact hl₀
      · intro l lease₀ hl
        rw [setLease, Dict.lookup_insert_ite] at hl
        split_ifs at hl with he
        · subst he
          cases hl
          exact hcared c.leaseId lease hlease
        · exact hcared l lease₀ hl
    · cases hn
      exact ⟨⟨h.orderly.apart, h.orderly.records, h.orderly.lease, hlocked⟩, hcared⟩

theorem Inv.next (h : s.Inv) {a : CheckpointCall} (hf : s.Fit a) (hn : s.next a = some s') :
    s'.Inv := by
  cases a with
  | allocate => exact h.allocate hn
  | create => exact h.create hn
  | makeRecord => exact h.makeRecord hn
  | settleRecord => exact h.settleRecord hf hn
  | answerCreate => exact h.answerCreate hn
  | refuseCreate => exact h.refuseCreate hn
  | replyCreate => exact h.replyCreate hf hn
  | failCreate => exact h.failCreate hf hn
  | drop => exact h.drop hn
  | processDrop => exact h.processDrop hf hn
  | replyDrop => exact h.replyDrop hf hn
  | listDrop => exact h.listDrop hn
  | refreshDrop => exact h.refreshDrop hf hn
  | failDrop => exact h.failDrop hf hn
  | gcNode => exact h.gcNode hn
  | collect => exact h.collect hf hn
  | rerun => exact h.rerun hn
  | replyRerun => exact h.replyRerun hn

theorem init_inv : init.Inv := by
  refine ⟨⟨apart_nil, ?_, ?_, ?_⟩, ?_⟩
  · exact fun c hc => absurd hc List.not_mem_nil
  · exact fun c hc => absurd hc List.not_mem_nil
  · exact fun c hc => absurd hc List.not_mem_nil
  · intro l lease hl
    cases hl

/-- With nothing under way a pointer that is cared for is right. -/
theorem Inv.pointed (h : s.Inv) (hq : s.Quiescent) : s.Pointed := by
  obtain ⟨hcreates, hdrops, -, -⟩ := hq
  have hout : ∀ k, ¬s.Outstanding k := by
    intro k ho
    obtain ⟨c, hc, hw, -⟩ := ho
    rw [(hcreates c hc).1] at hw
    cases hw
  intro l lease hl
  have hright : s.RightFor lease.nodeUrl l lease.latestReadyCheckpointId := by
    rcases h.cared l lease hl with hr | ⟨d, hd, -, hu⟩ | ⟨d, hd, -, checkpoints, hc, -⟩
    · exact hr
    · rw [(hdrops d hd).1] at hu
      cases hu
    · rw [(hdrops d hd).1] at hc
      cases hc
  cases hp : lease.latestReadyCheckpointId with
  | none =>
    rw [hp] at hright
    have hnil : s.readyOf lease.nodeUrl l = [] :=
      List.eq_nil_iff_forall_not_mem.mpr fun r hr => hout _ (hright r hr)
    exact ⟨⟨fun _ => hnil, fun _ => rfl⟩, fun k hk => by cases hk⟩
  | some k =>
    rw [hp] at hright
    obtain ⟨r, hr, hrk, hmax⟩ := hright
    refine ⟨⟨fun he => (by cases he), fun he => ?_⟩, ?_⟩
    · rw [he] at hr
      cases hr
    · intro k' hk'
      cases hk'
      exact ⟨r, hr, hrk, fun u hu => not_lt.mp (hmax u hu (hout _))⟩

/-- A lease, and a checkpoint of it for each step, all with their answers. -/
def savingRun (steps : List (String × Int)) : List CheckpointCall :=
  .allocate "l" "n" "c" "img" ::
    (steps.zipIdx.map fun e => [.create "l" e.1.2 .legacy none, .makeRecord e.2 e.1.1 e.2,
      .settleRecord e.2 .ready, .answerCreate e.2, .replyCreate e.2]).flatten

/-- The latest of three checkpoints is deleted, after a rerun, and the first is collected. -/
def droppingRun : List CheckpointCall :=
  savingRun [("a", 1), ("b", 2), ("d", 3)] ++ [.rerun "l", .replyRerun 0 (some "c'"),
    .drop "l" (.delete "d"), .processDrop 0 [], .replyDrop 0, .listDrop 0, .refreshDrop 0,
    .gcNode "n" 1 [], .collect 0]

/-- A collection on the node that keeps no checkpoint of a lease. -/
def collectedRun : List CheckpointCall :=
  savingRun [("a", 1)] ++ [.gcNode "n" 0 [], .collect 0]

/-- The node makes a checkpoint ready after the pool has given the create up. -/
def lateRun : List CheckpointCall :=
  [.allocate "l" "n" "c" "img", .create "l" 1 .legacy none, .failCreate 0, .makeRecord 0 "a" 1,
    .settleRecord 0 .ready, .answerCreate 0]

end PoolCheckpoints

end Belayer.Pool
