import Belayer.Exec.Create
import Belayer.Framework.Waiting

namespace Belayer.Exec

open Belayer.Framework

namespace CreatePhase

/-- The phases of the worker before its bookkeeping. -/
def isWork : CreatePhase → Bool
  | .queued | .preparing | .committing | .resuming | .committed => true
  | _ => false

/-- The status an update sets, and where it leads. -/
def update? : CreatePhase → Option (CheckpointStatus × CreatePhase × CreatePhase)
  | .settling status => some (status, .settlingOp, .failing)
  | .failing => some (.failed, .failingOp, .ending true)
  | .handlerFailing true => some (.failed, .handlerFailingOp, .finished)
  | _ => none

/-- Where the update of the operation leads. -/
def op? : CreatePhase → Option (CreatePhase × CreatePhase)
  | .settlingOp => some (.ending false, .failing)
  | .failingOp => some (.ending false, .ending true)
  | .handlerFailingOp => some (.handlerEnding, .finished)
  | _ => none

/-- Where `end_create` leads, with a slot to release and without. -/
def end? : CreatePhase → Option (CreatePhase × CreatePhase)
  | .ending error => some (.releasing error, .answered error)
  | .handlerEnding => some (.handlerReleasing, .finished)
  | _ => none

def release? : CreatePhase → Option CreatePhase
  | .releasing error => some (.answered error)
  | .handlerReleasing => some .finished
  | _ => none

/-- Where the handler goes on once the worker is done, or without record. -/
def answer? : CreatePhase → Option CreatePhase
  | .answered error => some (if error then .handlerFailing true else .finished)
  | .handlerFailing false => some .handlerEnding
  | _ => none

/-- How often `try_begin_create` has admitted the create and `end_create` has been called
for it. The worker calls it for every job, the handler once more when it gets there. -/
def Counts (begins ends : Nat) (dispatched : Bool) : CreatePhase → Prop
  | .received | .acquired => begins = 0 ∧ ends = 0 ∧ dispatched = false
  | .admitted | .created => begins = 1 ∧ ends = 0 ∧ dispatched = false
  | .queued | .preparing | .committing | .resuming | .committed | .settling _ | .settlingOp
  | .failing | .failingOp | .ending _ => begins = 1 ∧ ends = 0 ∧ dispatched = true
  | .releasing _ | .answered _ => begins = 1 ∧ ends = 1 ∧ dispatched = true
  | .handlerFailing _ | .handlerFailingOp | .handlerEnding =>
    begins = 1 ∧ ends = dispatched.toNat
  | .handlerReleasing => begins = 1 ∧ 0 < ends
  | .finished => True

/-- The create holds a slot that the counter does not show: it is about to count, or
has just stopped to. -/
def transit : CreatePhase → Nat
  | .acquired | .releasing _ | .handlerReleasing => 1
  | _ => 0

/-- The failure path of the handler up to `end_create`. -/
def isHandler : CreatePhase → Bool
  | .handlerFailing true | .handlerFailingOp | .handlerEnding => true
  | _ => false

def isLast : CreatePhase → Bool
  | .handlerReleasing | .finished => true
  | _ => false

section Tables

variable {phase done raised releasing : CreatePhase} {status : CheckpointStatus}
  {begins ends : Nat} {dispatched : Bool}

theorem counts_of_isWork (h : phase.isWork) :
    phase.Counts begins ends dispatched ↔ begins = 1 ∧ ends = 0 ∧ dispatched = true := by
  cases phase <;> first | rfl | cases h

theorem update?_counts (h : phase.update? = some (status, done, raised))
    (hc : phase.Counts begins ends dispatched) :
    done.Counts begins ends dispatched ∧ raised.Counts begins ends dispatched := by
  cases phase with
  | settling status =>
    cases h
    exact ⟨hc, hc⟩
  | failing =>
    cases h
    exact ⟨hc, hc⟩
  | handlerFailing known =>
    cases known
    · cases h
    · cases h
      exact ⟨hc, trivial⟩
  | _ => cases h

theorem op?_counts (h : phase.op? = some (done, raised))
    (hc : phase.Counts begins ends dispatched) :
    done.Counts begins ends dispatched ∧ raised.Counts begins ends dispatched := by
  cases phase with
  | settlingOp =>
    cases h
    exact ⟨hc, hc⟩
  | failingOp =>
    cases h
    exact ⟨hc, hc⟩
  | handlerFailingOp =>
    cases h
    exact ⟨hc, trivial⟩
  | _ => cases h

theorem end?_counts (h : phase.end? = some (releasing, done))
    (hc : phase.Counts begins ends dispatched) :
    releasing.Counts begins (ends + 1) dispatched ∧ done.Counts begins (ends + 1) dispatched := by
  cases phase with
  | ending error =>
    cases h
    obtain ⟨hb, he, hd⟩ := hc
    exact ⟨⟨hb, by omega, hd⟩, ⟨hb, by omega, hd⟩⟩
  | handlerEnding =>
    cases h
    exact ⟨⟨hc.1, by omega⟩, trivial⟩
  | _ => cases h

theorem release?_counts (h : phase.release? = some done)
    (hc : phase.Counts begins ends dispatched) : done.Counts begins ends dispatched := by
  cases phase with
  | releasing error =>
    cases h
    exact hc
  | handlerReleasing =>
    cases h
    trivial
  | _ => cases h

theorem answer?_counts (h : phase.answer? = some done)
    (hc : phase.Counts begins ends dispatched) : done.Counts begins ends dispatched := by
  cases phase with
  | answered error =>
    cases h
    cases error
    · trivial
    · exact ⟨hc.1, by rw [hc.2.1, hc.2.2]; rfl⟩
  | handlerFailing known =>
    cases known
    · cases h
      exact hc
    · cases h
  | _ => cases h

theorem update?_transit (h : phase.update? = some (status, done, raised)) :
    phase.transit = 0 ∧ done.transit = 0 ∧ raised.transit = 0 := by
  cases phase with
  | handlerFailing known => cases known <;> cases h; exact ⟨rfl, rfl, rfl⟩
  | settling status => cases h; exact ⟨rfl, rfl, rfl⟩
  | failing => cases h; exact ⟨rfl, rfl, rfl⟩
  | _ => cases h

theorem op?_transit (h : phase.op? = some (done, raised)) :
    phase.transit = 0 ∧ done.transit = 0 ∧ raised.transit = 0 := by
  cases phase <;> cases h <;> exact ⟨rfl, rfl, rfl⟩

theorem end?_transit (h : phase.end? = some (releasing, done)) :
    phase.transit = 0 ∧ releasing.transit = 1 ∧ done.transit = 0 := by
  cases phase <;> cases h <;> exact ⟨rfl, rfl, rfl⟩

theorem release?_transit (h : phase.release? = some done) :
    phase.transit = 1 ∧ done.transit = 0 := by
  cases phase <;> cases h <;> exact ⟨rfl, rfl⟩

theorem answer?_transit (h : phase.answer? = some done) :
    phase.transit = 0 ∧ done.transit = 0 := by
  cases phase with
  | answered error => cases error <;> cases h <;> exact ⟨rfl, rfl⟩
  | handlerFailing known => cases known <;> cases h; exact ⟨rfl, rfl⟩
  | _ => cases h

/-- Until the handler releases a slot, what has been called says how often. -/
theorem once_of_counts (h : phase.Counts begins ends dispatched) (hl : phase.isLast = false) :
    begins ≤ 1 ∧ ends ≤ begins := by
  have hd := dispatched.toNat_le
  cases phase <;> simp only [Counts] at h <;> first | omega | cases hl

theorem update?_last (h : phase.update? = some (status, done, raised))
    (hh : phase.isHandler = false) : done.isLast = false ∧ raised.isLast = false := by
  cases phase with
  | settling status => cases h; exact ⟨rfl, rfl⟩
  | failing => cases h; exact ⟨rfl, rfl⟩
  | handlerFailing known =>
    cases known with
    | false => cases h
    | true => cases hh
  | _ => cases h

theorem op?_last (h : phase.op? = some (done, raised)) (hh : phase.isHandler = false) :
    done.isLast = false ∧ raised.isLast = false := by
  cases phase with
  | settlingOp => cases h; exact ⟨rfl, rfl⟩
  | failingOp => cases h; exact ⟨rfl, rfl⟩
  | handlerFailingOp => cases hh
  | _ => cases h

theorem end?_last (h : phase.end? = some (releasing, done)) (hh : phase.isHandler = false) :
    releasing.isLast = false ∧ done.isLast = false := by
  cases phase with
  | ending error => cases h; exact ⟨rfl, rfl⟩
  | handlerEnding => cases hh
  | _ => cases h

end Tables

end CreatePhase

namespace Create

/-- What a step can do. -/
inductive Moves (m : CheckpointManager) (c : Create) (result : StepResult) :
    CheckpointManager → Create → Prop where
  | rejects (hp : c.phase = .received) : Moves m c result m (c.goto .finished)
  | acquires (hp : c.phase = .received) (hslots : m.freeSlots ≠ 0) :
      Moves m c result { m with freeSlots := m.freeSlots - 1 } (c.goto .acquired)
  | admits (hp : c.phase = .acquired) :
      Moves m c result { m with inflight := m.inflight + 1 }
        { c with begins := c.begins + 1, phase := .admitted }
  | queues {checkpointId : String} (hp : c.phase = .created)
      (hid : c.checkpointId = some checkpointId)
      (hok : (m.updateCheckpoint checkpointId id (result = .ok)).2.isOk) :
      Moves m c result (m.updateCheckpoint checkpointId id (result = .ok)).1
        { c with dispatched := true, phase := .queued }
  | queueRaises {checkpointId : String} (hp : c.phase = .created)
      (hid : c.checkpointId = some checkpointId) :
      Moves m c result (m.updateCheckpoint checkpointId id (result = .ok)).1
        (c.goto (.handlerFailing true))
  | works (hp : c.phase.isWork) : Moves m c result m (c.work result)
  | updates {status : CheckpointStatus} {done raised : CreatePhase} {checkpointId : String}
      (hp : c.phase.update? = some (status, done, raised))
      (hid : c.checkpointId = some checkpointId)
      (hok : (m.updateCheckpoint checkpointId (fun r => { r with status := status })
        (result = .ok)).2.isOk) :
      Moves m c result
        (m.updateCheckpoint checkpointId (fun r => { r with status := status })
          (result = .ok)).1 (c.goto done)
  | updateRaises {status : CheckpointStatus} {done raised : CreatePhase}
      {checkpointId : String} (hp : c.phase.update? = some (status, done, raised))
      (hid : c.checkpointId = some checkpointId)
      (hok : ¬(m.updateCheckpoint checkpointId (fun r => { r with status := status })
        (result = .ok)).2.isOk) :
      Moves m c result
        (m.updateCheckpoint checkpointId (fun r => { r with status := status })
          (result = .ok)).1 (c.goto raised)
  | settles {done raised : CreatePhase} {opId : String} (hp : c.phase.op? = some (done, raised))
      (hid : c.opId = some opId) (hok : (m.settleOp opId).2.isOk) :
      Moves m c result (m.settleOp opId).1 (c.goto done)
  | settleRaises {done raised : CreatePhase} {opId : String}
      (hp : c.phase.op? = some (done, raised)) (hid : c.opId = some opId)
      (hok : ¬(m.settleOp opId).2.isOk) :
      Moves m c result (m.settleOp opId).1 (c.goto raised)
  | ends {releasing done : CreatePhase} (hp : c.phase.end? = some (releasing, done)) :
      Moves m c result (endCreate m c releasing done).1 (endCreate m c releasing done).2
  | releases {done : CreatePhase} (hp : c.phase.release? = some done) :
      Moves m c result { m with freeSlots := m.freeSlots + 1 } (c.goto done)
  | answers {done : CreatePhase} (hp : c.phase.answer? = some done) :
      Moves m c result m (c.goto done)

variable {m m' : CheckpointManager} {c c' : Create} {result : StepResult}

theorem moves_of_updateStatus {status : CheckpointStatus} {done raised : CreatePhase}
    (hp : c.phase.update? = some (status, done, raised))
    (h : updateStatus m c status result done raised = some (m', c')) :
    c.Moves m result m' c' := by
  obtain ⟨checkpointId, hid, h⟩ := Option.map_eq_some_iff.mp h
  cases h
  split_ifs with hok
  · exact .updates hp hid hok
  · exact .updateRaises hp hid hok

theorem moves_of_updateOp {done raised : CreatePhase} (hp : c.phase.op? = some (done, raised))
    (h : updateOp m c done raised = some (m', c')) : c.Moves m result m' c' := by
  obtain ⟨opId, hid, h⟩ := Option.map_eq_some_iff.mp h
  cases h
  split_ifs with hok
  · exact .settles hp hid hok
  · exact .settleRaises hp hid hok

theorem moves_of_endCreate {releasing done : CreatePhase}
    (hp : c.phase.end? = some (releasing, done))
    (h : endCreate m c releasing done = (m', c')) : c.Moves m result m' c' := by
  have hm : c.Moves m result _ _ := .ends hp
  rw [h] at hm
  exact hm

theorem moves_of_step (h : c.step m result = some (m', c')) : c.Moves m result m' c' := by
  cases hp : c.phase with
  | received =>
    simp only [step, hp] at h
    split_ifs at h with hr
    · cases h
      exact .rejects hp
    · cases h
      exact .acquires hp fun hz => hr (.inr hz)
  | acquired =>
    simp only [step, hp] at h
    cases h
    exact .admits hp
  | admitted => simp [step, hp] at h
  | finished => simp [step, hp] at h
  | created =>
    simp only [step, hp] at h
    obtain ⟨checkpointId, hid, h⟩ := Option.map_eq_some_iff.mp h
    cases h
    split_ifs with hok
    · exact .queues hp hid hok
    · exact .queueRaises hp hid
  | settling status =>
    exact moves_of_updateStatus (by rw [hp]; rfl) (by simpa only [step, hp] using h)
  | settlingOp => exact moves_of_updateOp (by rw [hp]; rfl) (by simpa only [step, hp] using h)
  | failing => exact moves_of_updateStatus (by rw [hp]; rfl) (by simpa only [step, hp] using h)
  | failingOp => exact moves_of_updateOp (by rw [hp]; rfl) (by simpa only [step, hp] using h)
  | ending error =>
    simp only [step, hp, Option.some.injEq] at h
    exact moves_of_endCreate (by rw [hp]; rfl) h
  | releasing error =>
    simp only [step, hp] at h
    cases h
    exact .releases (by rw [hp]; rfl)
  | answered error =>
    simp only [step, hp] at h
    cases h
    exact .answers (by rw [hp]; rfl)
  | handlerFailing known =>
    cases known with
    | true =>
      exact moves_of_updateStatus (by rw [hp]; rfl) (by simpa only [step, hp] using h)
    | false =>
      simp only [step, hp] at h
      cases h
      exact .answers (by rw [hp]; rfl)
  | handlerFailingOp =>
    exact moves_of_updateOp (by rw [hp]; rfl) (by simpa only [step, hp] using h)
  | handlerEnding =>
    simp only [step, hp, Option.some.injEq] at h
    exact moves_of_endCreate (by rw [hp]; rfl) h
  | handlerReleasing =>
    simp only [step, hp] at h
    cases h
    exact .releases (by rw [hp]; rfl)
  | queued =>
    simp only [step, hp] at h
    cases h
    exact .works (by rw [hp]; rfl)
  | preparing =>
    simp only [step, hp] at h
    cases h
    exact .works (by rw [hp]; rfl)
  | committing =>
    simp only [step, hp] at h
    cases h
    exact .works (by rw [hp]; rfl)
  | resuming =>
    simp only [step, hp] at h
    cases h
    exact .works (by rw [hp]; rfl)
  | committed =>
    simp only [step, hp] at h
    cases h
    exact .works (by rw [hp]; rfl)

/-- Between admission and completion. -/
def inFlight (c : Create) : Nat := c.begins - c.ends

/-- `end_create` is called once for a create that was admitted, and for no other. -/
def Once (c : Create) : Prop :=
  c.begins ≤ 1 ∧ c.ends ≤ c.begins ∧ (c.phase = .finished → c.ends = c.begins)

instance (c : Create) : Decidable c.Once := inferInstanceAs (Decidable (_ ∧ _ ∧ _))

/-- The failure path of the handler comes to `end_create` exactly when the job was not
dispatched: without a worker its bookkeeping does not raise, after a worker it does. -/
def Orderly (m : CheckpointManager) (c : Create) (result : StepResult) : Prop :=
  match c.phase with
  | .handlerFailing true =>
    c.dispatched = false → result = .ok ∧
      ∀ checkpointId ∈ c.checkpointId, (m.getCheckpoint checkpointId).isSome
  | .handlerFailingOp => c.dispatched = false → ∀ opId ∈ c.opId, (m.settleOp opId).2.isOk
  | .handlerEnding => c.dispatched = false
  | _ => True

theorem work_phase (result : StepResult) (hp : c.phase.isWork) :
    (c.work result).phase.isWork ∨ (∃ status, (c.work result).phase = .settling status) ∨
      (c.work result).phase = .failing := by
  cases hphase : c.phase <;> simp [hphase, CreatePhase.isWork] at hp <;>
    cases hb : c.checkpointBackend <;> cases result <;>
    simp [work, hphase, hb, abort, goto, leave, CreatePhase.isWork]

@[simp] theorem work_counters (c : Create) (result : StepResult) :
    (c.work result).begins = c.begins ∧ (c.work result).ends = c.ends ∧
      (c.work result).dispatched = c.dispatched := by
  cases hphase : c.phase <;> cases hb : c.checkpointBackend <;> cases result <;>
    simp [work, hphase, hb, abort, goto, leave]

def Counts (c : Create) : Prop := c.phase.Counts c.begins c.ends c.dispatched

theorem Moves.counts (h : c.Moves m result m' c') (hc : c.Counts) : c'.Counts := by
  cases h with
  | rejects hp => trivial
  | acquires hp hslots =>
    rw [Counts, hp] at hc
    exact hc
  | admits hp =>
    rw [Counts, hp] at hc
    exact ⟨congrArg (· + 1) hc.1, hc.2⟩
  | queues hp hid hok =>
    rw [Counts, hp] at hc
    exact ⟨hc.1, hc.2.1, rfl⟩
  | queueRaises hp hid =>
    rw [Counts, hp] at hc
    exact ⟨hc.1, by simp [goto, hc.2.1, hc.2.2]⟩
  | works hp =>
    have hw := (CreatePhase.counts_of_isWork hp).mp hc
    obtain ⟨hb, he, hd⟩ := work_counters c result
    rw [Counts, hb, he, hd]
    rcases work_phase result hp with hp' | ⟨status, hp'⟩ | hp'
    · exact (CreatePhase.counts_of_isWork hp').mpr hw
    · rw [hp']
      exact hw
    · rw [hp']
      exact hw
  | updates hp hid hok => exact (CreatePhase.update?_counts hp hc).1
  | updateRaises hp hid hok => exact (CreatePhase.update?_counts hp hc).2
  | settles hp hid hok => exact (CreatePhase.op?_counts hp hc).1
  | settleRaises hp hid hok => exact (CreatePhase.op?_counts hp hc).2
  | ends hp =>
    unfold endCreate
    split_ifs
    · exact (CreatePhase.end?_counts hp hc).1
    · exact (CreatePhase.end?_counts hp hc).2
  | releases hp => exact CreatePhase.release?_counts hp hc
  | answers hp => exact CreatePhase.answer?_counts hp hc

theorem Moves.slots (h : c.Moves m result m' c') :
    m'.maxInflight = m.maxInflight ∧
      m'.freeSlots + m'.inflight + c'.phase.transit =
        m.freeSlots + m.inflight + c.phase.transit := by
  cases h with
  | rejects hp => simp [goto, hp, CreatePhase.transit]
  | acquires hp hslots =>
    refine ⟨rfl, ?_⟩
    simp only [goto, hp, CreatePhase.transit]
    omega
  | admits hp =>
    refine ⟨rfl, ?_⟩
    simp only [hp, CreatePhase.transit]
    omega
  | queues hp hid hok => simp [hp, CreatePhase.transit]
  | queueRaises hp hid => simp [goto, hp, CreatePhase.transit]
  | works hp =>
    have hz : c.phase.transit = 0 ∧ (c.work result).phase.transit = 0 := by
      have hzero : ∀ p : CreatePhase, p.isWork → p.transit = 0 := by
        intro p hp
        cases p <;> first | rfl | cases hp
      refine ⟨hzero _ hp, ?_⟩
      rcases work_phase result hp with hp' | ⟨status, hp'⟩ | hp'
      · exact hzero _ hp'
      · rw [hp']
        rfl
      · rw [hp']
        rfl
    simp [hz]
  | updates hp hid hok => simp [goto, CreatePhase.update?_transit hp]
  | updateRaises hp hid hok => simp [goto, CreatePhase.update?_transit hp]
  | settles hp hid hok => simp [goto, CreatePhase.op?_transit hp]
  | settleRaises hp hid hok => simp [goto, CreatePhase.op?_transit hp]
  | ends hp =>
    have ht := CreatePhase.end?_transit hp
    unfold endCreate
    split_ifs
    · refine ⟨rfl, ?_⟩
      simp only [ht]
      omega
    · simp [ht]
  | releases hp =>
    have ht := CreatePhase.release?_transit hp
    refine ⟨rfl, ?_⟩
    simp only [goto, ht]
    omega
  | answers hp => simp [goto, CreatePhase.answer?_transit hp]

/-- The counter moves with the create, as long as `end_create` is called once. -/
theorem Moves.flight (h : c.Moves m result m' c') (hc : c.Counts)
    (hle : c.inFlight ≤ m.inflight) (ho : c.Orderly m result) :
    m'.inflight + c.inFlight = m.inflight + c'.inFlight := by
  cases h with
  | rejects hp => rfl
  | acquires hp hslots => rfl
  | admits hp =>
    rw [Counts, hp] at hc
    simp only [inFlight, hc.1, hc.2.1]
  | queues hp hid hok => simp [inFlight]
  | queueRaises hp hid => simp [inFlight, goto]
  | works hp => simp [inFlight]
  | updates hp hid hok => simp [inFlight, goto]
  | updateRaises hp hid hok => simp [inFlight, goto]
  | settles hp hid hok => simp [inFlight, goto]
  | settleRaises hp hid hok => simp [inFlight, goto]
  | ends hp =>
    have hone : c.begins = 1 ∧ c.ends = 0 := by
      cases hphase : c.phase with
      | ending error =>
        rw [Counts, hphase] at hc
        exact ⟨hc.1, hc.2.1⟩
      | handlerEnding =>
        rw [Counts, hphase] at hc
        rw [Orderly, hphase] at ho
        exact ⟨hc.1, by rw [hc.2, ho]; rfl⟩
      | _ => simp [hphase, CreatePhase.end?] at hp
    have hpos : 0 < m.inflight := by
      simp only [inFlight, hone] at hle
      omega
    simp only [endCreate, hpos, if_true, inFlight, hone]
    omega
  | releases hp => simp [inFlight, goto]
  | answers hp => simp [inFlight, goto]

theorem orderly_of_not_handler (h : c.phase.isHandler = false) : c.Orderly m result := by
  cases hp : c.phase with
  | handlerFailing known =>
    cases known
    · simp [Orderly, hp]
    · simp [hp, CreatePhase.isHandler] at h
  | _ => simp_all [Orderly, CreatePhase.isHandler]

theorem once_of_not_last (hc : c.Counts) (hl : c.phase.isLast = false) : c.Once := by
  obtain ⟨hb, he⟩ := CreatePhase.once_of_counts hc hl
  exact ⟨hb, he, fun h => by simp [h, CreatePhase.isLast] at hl⟩

theorem once_finished (hone : c.Once) : (c.goto .finished).Once ↔ c.ends = c.begins := by
  obtain ⟨hb, he, -⟩ := hone
  simp [Once, goto, hb, he]

/-- Outside the failure path of the handler nothing goes wrong. -/
theorem Moves.once (h : c.Moves m result m' c') (hc : c.Counts) (hone : c.Once)
    (hh : c.phase.isHandler = false) : c'.Once := by
  have hc' := h.counts hc
  cases h with
  | rejects hp =>
    rw [Counts, hp] at hc
    exact (once_finished hone).mpr (hc.2.1.trans hc.1.symm)
  | acquires hp hslots => exact once_of_not_last hc' rfl
  | admits hp => exact once_of_not_last hc' rfl
  | queues hp hid hok => exact once_of_not_last hc' rfl
  | queueRaises hp hid => exact once_of_not_last hc' rfl
  | works hp =>
    refine once_of_not_last hc' ?_
    rcases work_phase result hp with hp' | ⟨status, hp'⟩ | hp'
    · cases hphase : (c.work result).phase <;> simp_all [CreatePhase.isWork, CreatePhase.isLast]
    · rw [hp']
      rfl
    · rw [hp']
      rfl
  | updates hp hid hok => exact once_of_not_last hc' (CreatePhase.update?_last hp hh).1
  | updateRaises hp hid hok => exact once_of_not_last hc' (CreatePhase.update?_last hp hh).2
  | settles hp hid hok => exact once_of_not_last hc' (CreatePhase.op?_last hp hh).1
  | settleRaises hp hid hok => exact once_of_not_last hc' (CreatePhase.op?_last hp hh).2
  | ends hp =>
    refine once_of_not_last hc' ?_
    unfold endCreate
    split_ifs
    · exact (CreatePhase.end?_last hp hh).1
    · exact (CreatePhase.end?_last hp hh).2
  | releases hp =>
    cases hphase : c.phase with
    | releasing error =>
      rw [hphase] at hp
      cases hp
      exact once_of_not_last hc' rfl
    | handlerReleasing =>
      rw [Counts, hphase] at hc
      rw [hphase] at hp
      cases hp
      have he : c.ends = c.begins := by
        have hle := hone.2.1
        obtain ⟨hb, hpos⟩ := hc
        omega
      exact (once_finished hone).mpr he
    | _ => simp [hphase, CreatePhase.release?] at hp
  | answers hp =>
    cases hphase : c.phase with
    | answered error =>
      rw [Counts, hphase] at hc
      rw [hphase] at hp
      cases hp
      cases error
      · exact (once_finished hone).mpr (hc.2.1.trans hc.1.symm)
      · exact once_of_not_last hc' rfl
    | handlerFailing known =>
      cases known
      · rw [hphase] at hp
        cases hp
        exact once_of_not_last hc' rfl
      · simp [hphase, CreatePhase.isHandler] at hh
    | _ => simp [hphase, CreatePhase.answer?] at hp

theorem once_finished_of_handler (hone : c.Once)
    (hcounts : c.begins = 1 ∧ c.ends = c.dispatched.toNat) :
    (c.goto .finished).Once ↔ c.dispatched = true := by
  rw [once_finished hone, hcounts.1, hcounts.2]
  cases c.dispatched <;> simp

/-- What has been called so far stays called once for each create exactly when the
failure path of the handler is orderly. -/
theorem Moves.once_iff (h : c.Moves m result m' c') (hc : c.Counts) (hone : c.Once) :
    c'.Once ↔ c.Orderly m result := by
  have hc' := h.counts hc
  cases hh : c.phase.isHandler
  · exact iff_of_true (h.once hc hone hh) (orderly_of_not_handler hh)
  have hcounts : c.begins = 1 ∧ c.ends = c.dispatched.toNat := by
    rw [Counts] at hc
    cases hp : c.phase <;> rw [hp] at hh hc <;> first | exact hc | cases hh
  cases h with
  | updates hp hid hok =>
    cases hphase : c.phase with
    | handlerFailing known =>
      cases known
      · simp [hphase, CreatePhase.isHandler] at hh
      · rw [hphase] at hp
        cases hp
        rw [CheckpointManager.updateCheckpoint_isOk] at hok
        refine iff_of_true (once_of_not_last hc' rfl) ?_
        simp only [Orderly, hphase, hid, Option.mem_some_iff, forall_eq']
        exact fun _ => ⟨by simpa using hok.2, hok.1⟩
    | _ => simp_all [CreatePhase.update?, CreatePhase.isHandler]
  | updateRaises hp hid hok =>
    cases hphase : c.phase with
    | handlerFailing known =>
      cases known
      · simp [hphase, CreatePhase.isHandler] at hh
      · rw [hphase] at hp
        cases hp
        rw [CheckpointManager.updateCheckpoint_isOk] at hok
        rw [once_finished_of_handler hone hcounts]
        simp only [Orderly, hphase, hid, Option.mem_some_iff, forall_eq']
        cases hd : c.dispatched
        · simp only [true_implies, Bool.false_eq_true, false_iff]
          exact fun ho => hok ⟨ho.2, by simpa using ho.1⟩
        · simp
    | _ => simp_all [CreatePhase.update?, CreatePhase.isHandler]
  | settles hp hid hok =>
    cases hphase : c.phase with
    | handlerFailingOp =>
      rw [hphase] at hp
      cases hp
      refine iff_of_true (once_of_not_last hc' rfl) ?_
      simp only [Orderly, hphase, hid, Option.mem_some_iff, forall_eq']
      exact fun _ => hok
    | _ => simp_all [CreatePhase.op?, CreatePhase.isHandler]
  | settleRaises hp hid hok =>
    cases hphase : c.phase with
    | handlerFailingOp =>
      rw [hphase] at hp
      cases hp
      rw [once_finished_of_handler hone hcounts]
      simp only [Orderly, hphase, hid, Option.mem_some_iff, forall_eq']
      cases hd : c.dispatched
      · simp only [true_implies, Bool.false_eq_true, false_iff]
        exact hok
      · simp
    | _ => simp_all [CreatePhase.op?, CreatePhase.isHandler]
  | ends hp =>
    cases hphase : c.phase with
    | handlerEnding =>
      rw [hphase] at hp
      cases hp
      simp only [Orderly, hphase]
      unfold endCreate
      cases hd : c.dispatched <;> split_ifs <;> simp [Once, hcounts, hd]
    | _ => simp_all [CreatePhase.end?, CreatePhase.isHandler]
  | works hp => cases hphase : c.phase <;> simp_all [CreatePhase.isWork, CreatePhase.isHandler]
  | releases hp => cases hphase : c.phase <;> simp_all [CreatePhase.release?, CreatePhase.isHandler]
  | answers hp =>
    cases hphase : c.phase with
    | handlerFailing known =>
      cases known <;> simp_all [CreatePhase.answer?, CreatePhase.isHandler]
    | _ => simp_all [CreatePhase.answer?, CreatePhase.isHandler]
  | _ => simp_all [CreatePhase.isHandler]

end Create

namespace CheckpointService

variable {s s' : CheckpointService} {maxInflight : Int}

/-- Each admitted create ends once, and the counter shows those in between. -/
structure Balanced (maxInflight : Int) (s : CheckpointService) : Prop where
  once : ∀ c ∈ s.creates, c.Once
  counted : s.manager.inflight = tally Create.inFlight s.creates
  bounded : (s.manager.inflight : Int) ≤ max 1 maxInflight

/-- The condition on a step. -/
def Orderly (s : CheckpointService) : ServiceAction → Prop
  | .step i result => ∀ c ∈ s.creates[i]?, c.Orderly s.manager result
  | _ => True

/-- What holds in every run. -/
structure Base (maxInflight : Int) (s : CheckpointService) : Prop where
  slots : s.manager.freeSlots + s.manager.inflight + tally (fun c => c.phase.transit) s.creates =
    (max 1 maxInflight).toNat
  counts : ∀ c ∈ s.creates, c.Counts

theorem init_base (maxInflight : Int) (checkpoints : List CheckpointRecord) :
    (init maxInflight checkpoints).Base maxInflight :=
  ⟨by simp [init, CheckpointManager.init], by simp [init]⟩

theorem init_balanced (maxInflight : Int) (checkpoints : List CheckpointRecord) :
    (init maxInflight checkpoints).Balanced maxInflight := by
  refine ⟨by simp [init], by simp [init, CheckpointManager.init], ?_⟩
  simp only [init, CheckpointManager.init]
  omega

/-- What a step of the service does to the creates. -/
theorem next_cases {a : ServiceAction} (h : s.next a = some s') :
    (∃ backend, a = .receive backend ∧
      s' = { s with creates := s.creates ++ [Create.start backend] }) ∨
    (∃ i c record opId persisted, s.creates[i]? = some c ∧ c.phase = .admitted ∧
      s.Fresh record.checkpointId opId ∧ a = .record i record opId persisted ∧
      s' = ⟨(c.record s.manager record opId persisted).1,
        s.creates.set i (c.record s.manager record opId persisted).2⟩) ∨
    (∃ i result c m' c', a = .step i result ∧ s.creates[i]? = some c ∧
      c.Moves s.manager result m' c' ∧ s' = ⟨m', s.creates.set i c'⟩) ∨
    ∃ checkpointId record, a = .deleteRecord checkpointId ∧
      s.manager.getCheckpoint checkpointId = some record ∧ record.status ≠ .pending ∧
      s' = { s with manager := s.manager.deleteCheckpoint checkpointId } := by
  cases a with
  | receive backend => exact .inl ⟨backend, rfl, (Option.some.inj h).symm⟩
  | record i record opId persisted =>
    right; left
    simp only [next] at h
    split at h
    · cases h
    · rename_i c hi
      split_ifs at h with hf
      exact ⟨i, c, record, opId, persisted, hi, hf.1, hf.2, rfl, (Option.some.inj h).symm⟩
  | step i result =>
    right; right; left
    simp only [next] at h
    split at h
    · cases h
    · rename_i c hi
      obtain ⟨p, hp, rfl⟩ := Option.map_eq_some_iff.mp h
      exact ⟨i, result, c, p.1, p.2, rfl, hi, Create.moves_of_step hp, rfl⟩
  | deleteRecord checkpointId =>
    right; right; right
    simp only [next] at h
    split at h
    · cases h
    · rename_i record hr
      split_ifs at h with hp
      exact ⟨checkpointId, record, rfl, hr, hp, (Option.some.inj h).symm⟩

/-- A step of one create, seen from the slots and counters of all. -/
theorem Base.set (h : s.Base maxInflight) {i : Nat} {c c' : Create} {m' : CheckpointManager}
    (hi : s.creates[i]? = some c) (hc : c'.Counts)
    (hslots : m'.freeSlots + m'.inflight + c'.phase.transit =
      s.manager.freeSlots + s.manager.inflight + c.phase.transit) :
    Base maxInflight ⟨m', s.creates.set i c'⟩ := by
  refine ⟨?_, ?_⟩
  · have ht := tally_set (fun c => c.phase.transit) hi c'
    have hs := h.slots
    simp only at ht ⊢
    omega
  · intro d hd
    rcases List.mem_or_eq_of_mem_set hd with hd | rfl
    · exact h.counts d hd
    · exact hc

theorem record_counts {c : Create} (m : CheckpointManager) (record : CheckpointRecord)
    (opId : String) (persisted : Bool) (hp : c.phase = .admitted) (hc : c.Counts) :
    (c.record m record opId persisted).2.Counts ∧
      (c.record m record opId persisted).2.phase.transit = c.phase.transit ∧
      (c.record m record opId persisted).2.phase.isLast = false ∧
      (c.record m record opId persisted).2.inFlight = c.inFlight := by
  rw [Create.Counts, hp] at hc
  obtain ⟨hb, he, hd⟩ := hc
  cases persisted <;>
    simp [Create.record, CheckpointManager.createCheckpoint, Except.isOk, Except.toBool,
      Create.Counts, CreatePhase.Counts, hb, he, hd, hp, CreatePhase.transit, CreatePhase.isLast,
      Create.inFlight]

theorem Base.next {a : ServiceAction} (h : s.Base maxInflight) (hn : s.next a = some s') :
    s'.Base maxInflight := by
  rcases next_cases hn with ⟨backend, -, rfl⟩ |
    ⟨i, c, record, opId, persisted, hi, hp, -, -, rfl⟩ |
    ⟨i, result, c, m', c', -, hi, hm, rfl⟩ | ⟨checkpointId, record, -, -, -, rfl⟩
  · refine ⟨?_, ?_⟩
    · simpa [Create.start, CreatePhase.transit] using h.slots
    · intro c hc
      rcases List.mem_append.mp hc with hc | hc
      · exact h.counts c hc
      · rw [List.mem_singleton.mp hc]
        exact ⟨rfl, rfl, rfl⟩
  · have hc := List.mem_of_getElem? hi
    obtain ⟨hcounts, htransit, -, -⟩ := record_counts _ _ _ _ hp (h.counts c hc)
    refine h.set hi hcounts ?_
    rw [htransit]
    rfl
  · exact h.set hi (hm.counts (h.counts c (List.mem_of_getElem? hi))) hm.slots.2
  · exact ⟨h.slots, h.counts⟩

theorem Base.bounded (h : s.Base maxInflight) :
    (s.manager.inflight : Int) ≤ max 1 maxInflight := by
  have hs := h.slots
  omega

/-- A step of one create, seen from the property. -/
theorem Balanced.set (h : s.Balanced maxInflight) {i : Nat} {c c' : Create}
    {m' : CheckpointManager} (hi : s.creates[i]? = some c) (hone : c'.Once)
    (hflight : m'.inflight + c.inFlight = s.manager.inflight + c'.inFlight)
    (hb : (m'.inflight : Int) ≤ max 1 maxInflight) :
    Balanced maxInflight ⟨m', s.creates.set i c'⟩ := by
  refine ⟨?_, ?_, hb⟩
  · intro d hd
    rcases List.mem_or_eq_of_mem_set hd with hd | rfl
    · exact h.once d hd
    · exact hone
  · have ht := tally_set Create.inFlight hi c'
    have hs := h.counted
    simp only at ht ⊢
    omega

theorem Balanced.inFlight_le (h : s.Balanced maxInflight) {c : Create} (hc : c ∈ s.creates) :
    c.inFlight ≤ s.manager.inflight := by
  rw [h.counted]
  exact le_tally Create.inFlight hc

/-- One step keeps the creates balanced exactly when it meets the condition. -/
theorem balanced_iff {a : ServiceAction} (hbase : s.Base maxInflight)
    (h : s.Balanced maxInflight) (hn : s.next a = some s') :
    s'.Balanced maxInflight ↔ s.Orderly a := by
  have hb := (hbase.next hn).bounded
  rcases next_cases hn with ⟨backend, rfl, rfl⟩ |
    ⟨i, c, record, opId, persisted, hi, hp, -, rfl, rfl⟩ |
    ⟨i, result, c, m', c', rfl, hi, hm, rfl⟩ | ⟨checkpointId, record, rfl, -, -, rfl⟩
  · refine iff_of_true ⟨?_, ?_, h.bounded⟩ trivial
    · intro c hc
      rcases List.mem_append.mp hc with hc | hc
      · exact h.once c hc
      · rw [List.mem_singleton.mp hc]
        exact ⟨by simp [Create.start], by simp [Create.start], by simp [Create.start]⟩
    · simpa [Create.start, Create.inFlight] using h.counted
  · obtain ⟨hcounts, -, hlast, hflight⟩ :=
      record_counts s.manager record opId persisted hp
        (hbase.counts c (List.mem_of_getElem? hi))
    refine iff_of_true (h.set hi (Create.once_of_not_last hcounts hlast) ?_ hb) trivial
    rw [hflight]
    rfl
  · have hc := List.mem_of_getElem? hi
    have hiff := hm.once_iff (hbase.counts c hc) (h.once c hc)
    have hmem : c' ∈ s.creates.set i c' := List.mem_set (List.getElem?_eq_some_iff.mp hi).1 c'
    constructor
    · intro hs d hd
      rw [Option.mem_unique hd hi]
      exact hiff.mp (hs.once c' hmem)
    · intro ho
      have ho := ho c hi
      exact h.set hi (hiff.mpr ho) (hm.flight (hbase.counts c hc) (h.inFlight_le hc) ho) hb
  · exact iff_of_true ⟨h.once, h.counted, h.bounded⟩ trivial

def newRecord (checkpointId : String) : CheckpointRecord :=
  ⟨checkpointId, .legacy, "l", 0, "img", none, none, 0, 0, .pending⟩

/-- The commit goes well, but the disk is full: the update to ready and that to failed
raise, and the handler's own update finds room again. -/
def doubleEndRun : List ServiceAction :=
  [.receive .legacy, .step 0 .ok, .step 0 .ok, .record 0 (newRecord "k") "o" true] ++
    List.replicate 5 (.step 0 .ok) ++ List.replicate 2 (.step 0 .raised) ++
    List.replicate 6 (.step 0 .ok)

/-- The disk is full before the job is dispatched, and still in the failure path. -/
def missingEndRun : List ServiceAction :=
  [.receive .full, .step 0 .ok, .step 0 .ok, .record 0 (newRecord "k") "o" true,
    .step 0 .raised, .step 0 .raised]

end CheckpointService

end Belayer.Exec
