import Belayer.Exec.InFlight
import Belayer.Framework.Places

namespace Belayer.Exec

open Belayer.Framework

namespace CreatePhase

/-- The record has been given its last status, as far as this create goes. -/
def isSettled : CreatePhase → Bool
  | .settlingOp | .failingOp | .ending _ | .releasing _ | .answered _ | .handlerFailingOp
  | .handlerEnding | .handlerReleasing | .finished => true
  | _ => false

/-- The operation has been taken out. -/
def isOpGone : CreatePhase → Bool
  | .ending false | .releasing false | .answered false | .handlerEnding | .handlerReleasing
  | .finished => true
  | _ => false

/-- The create has no record yet. -/
def isEarly : CreatePhase → Bool
  | .received | .acquired | .admitted => true
  | _ => false

/-- Nothing is known of the create in this phase but its ids and its record. -/
def isPlain : CreatePhase → Bool
  | .queued | .settling .failed | .settlingOp | .failing | .failingOp | .ending _ | .releasing _
  | .answered _ | .handlerFailing true | .handlerFailingOp | .handlerEnding | .handlerReleasing
  | .finished => true
  | _ => false

def isExclusive : CreatePhase → Bool
  | .preparing | .committing | .resuming => true
  | _ => false

end CreatePhase

namespace Create

/-- The commit succeeded in the exclusive section, and so did the restore of a full
checkpoint. -/
def Evidence (c : Create) : Prop :=
  c.checkpointed ∧ (c.checkpointBackend = .full → c.resumed)

instance (c : Create) : Decidable c.Evidence := inferInstanceAs (Decidable (_ ∧ _))

/-- What is true of a create and of its record and operation. -/
structure Good (m : CheckpointManager) (c : Create) : Prop where
  early : c.phase.isEarly → c.checkpointId = none ∧ c.opId = none
  settled : c.phase.isSettled → ∀ k ∈ c.checkpointId, ∀ r ∈ m.checkpoints,
    r.checkpointId = k → r.status ≠ .pending
  ops : ∀ o ∈ c.opId, (∃ op ∈ m.ops, op.opId = o) ↔ c.phase.isOpGone = false
  exclusive : c.phase.isExclusive → c.exclusive
  checkpointed : c.phase = .resuming → c.checkpointed
  evidence : c.phase = .committed ∨ c.phase = .settling .ready → c.Evidence
  notPending : c.phase ≠ .settling .pending
  known : c.phase ≠ .handlerFailing false
  ready : ∀ k ∈ c.checkpointId, ∀ r ∈ m.checkpoints, r.checkpointId = k → r.status = .ready →
    c.Evidence

/-- Nothing changes but the record and the operation of one create. -/
structure Frame (m m' : CheckpointManager) (checkpointId opId : Option String) : Prop where
  checkpoints : ∀ r ∈ m'.checkpoints, checkpointId ≠ some r.checkpointId → r ∈ m.checkpoints
  ops : ∀ op, opId ≠ some op.opId → (op ∈ m'.ops ↔ op ∈ m.ops)

variable {m m' : CheckpointManager} {c c' d : Create} {result : StepResult}

theorem Good.frame {checkpointId opId : Option String} (h : d.Good m)
    (hf : Frame m m' checkpointId opId) (hk : ∀ k ∈ d.checkpointId, checkpointId ≠ some k)
    (ho : ∀ o ∈ d.opId, opId ≠ some o) : d.Good m' := by
  refine ⟨h.early, ?_, ?_, h.exclusive, h.checkpointed, h.evidence, h.notPending, h.known, ?_⟩
  · intro hs k hd r hr he
    subst he
    exact h.settled hs _ hd r (hf.checkpoints r hr (hk _ hd)) rfl
  · intro o hd
    rw [← h.ops o hd]
    constructor
    · intro hop
      obtain ⟨op, hop, rfl⟩ := hop
      exact ⟨op, (hf.ops op (ho _ hd)).mp hop, rfl⟩
    · intro hop
      obtain ⟨op, hop, rfl⟩ := hop
      exact ⟨op, (hf.ops op (ho _ hd)).mpr hop, rfl⟩
  · intro k hd r hr he
    subst he
    exact h.ready _ hd r (hf.checkpoints r hr (hk _ hd)) rfl

theorem frame_refl {checkpointId opId : Option String} : Frame m m checkpointId opId :=
  ⟨fun _ hr _ => hr, fun _ _ => Iff.rfl⟩

theorem frame_updateCheckpoint {checkpointId : String}
    {updates : CheckpointRecord → CheckpointRecord}
    (hu : ∀ r, (updates r).checkpointId = r.checkpointId) {persisted : Bool}
    {opId : Option String} :
    Frame m (m.updateCheckpoint checkpointId updates persisted).1 (some checkpointId) opId := by
  refine ⟨?_, by simp⟩
  intro r hr hne
  obtain ⟨r₀, hr₀, ⟨-, rfl⟩ | ⟨hid, rfl⟩⟩ := CheckpointManager.mem_updateCheckpoint hr
  · exact hr₀
  · exact absurd (by rw [hu, hid]) hne

theorem frame_settleOp {opId : String} {checkpointId : Option String} :
    Frame m (m.settleOp opId).1 checkpointId (some opId) := by
  refine ⟨fun r hr _ => by simpa using hr, ?_⟩
  intro op hne
  rw [CheckpointManager.mem_settleOp]
  exact ⟨fun h => h.1, fun h => ⟨h, fun he => hne (by rw [he])⟩⟩

theorem Moves.frame (h : c.Moves m result m' c') : Frame m m' c.checkpointId c.opId := by
  cases h with
  | queues hp hid hok =>
    rw [hid]
    exact frame_updateCheckpoint (by intro; rfl)
  | queueRaises hp hid =>
    rw [hid]
    exact frame_updateCheckpoint (by intro; rfl)
  | updates hp hid hok =>
    rw [hid]
    exact frame_updateCheckpoint (by intro; rfl)
  | updateRaises hp hid hok =>
    rw [hid]
    exact frame_updateCheckpoint (by intro; rfl)
  | settles hp hid hok =>
    rw [hid]
    exact frame_settleOp
  | settleRaises hp hid hok =>
    rw [hid]
    exact frame_settleOp
  | ends hp =>
    unfold endCreate
    split_ifs
    · exact ⟨fun _ hr _ => hr, fun _ _ => Iff.rfl⟩
    · exact frame_refl
  | rejects hp => exact frame_refl
  | works hp => exact frame_refl
  | answers hp => exact frame_refl
  | _ => exact ⟨fun _ hr _ => hr, fun _ _ => Iff.rfl⟩

@[simp] theorem work_ids (c : Create) (result : StepResult) :
    (c.work result).checkpointId = c.checkpointId ∧ (c.work result).opId = c.opId ∧
      (c.work result).checkpointBackend = c.checkpointBackend := by
  cases hphase : c.phase <;> cases hb : c.checkpointBackend <;> cases result <;>
    simp [work, hphase, hb, abort, goto, leave]

theorem Moves.ids (h : c.Moves m result m' c') :
    c'.checkpointId = c.checkpointId ∧ c'.opId = c.opId := by
  cases h with
  | works hp => simp
  | ends hp =>
    unfold endCreate
    split_ifs <;> exact ⟨rfl, rfl⟩
  | _ => exact ⟨rfl, rfl⟩

/-- A step to a phase in which nothing more is known. -/
theorem good_goto {q : CreatePhase} (hplain : q.isPlain)
    (hsettled : q.isSettled → ∀ k ∈ c.checkpointId, ∀ r ∈ m'.checkpoints, r.checkpointId = k →
      r.status ≠ .pending)
    (hops : ∀ o ∈ c.opId, (∃ op ∈ m'.ops, op.opId = o) ↔ q.isOpGone = false)
    (hready : ∀ k ∈ c.checkpointId, ∀ r ∈ m'.checkpoints, r.checkpointId = k →
      r.status = .ready → c.Evidence) : (c.goto q).Good m' := by
  have hphase : (c.goto q).phase = q := rfl
  refine ⟨?_, hsettled, hops, ?_, ?_, ?_, ?_, ?_, hready⟩ <;> rw [hphase] <;> intro hq
  · cases q <;> simp [CreatePhase.isEarly] at hq <;> cases hplain
  · cases q <;> simp [CreatePhase.isExclusive] at hq <;> cases hplain
  · rw [hq] at hplain
    cases hplain
  · rcases hq with rfl | rfl <;> cases hplain
  · rw [hq] at hplain
    cases hplain
  · rw [hq] at hplain
    cases hplain

/-- A step that leaves records and operations alone. -/
theorem Good.goto_same (h : c.Good m) {q : CreatePhase} (hplain : q.isPlain)
    (hc : m'.checkpoints = m.checkpoints) (ho : m'.ops = m.ops)
    (hs : q.isSettled → c.phase.isSettled) (hg : q.isOpGone = c.phase.isOpGone) :
    (c.goto q).Good m' := by
  refine good_goto hplain ?_ ?_ ?_
  · rw [hc]
    exact fun hq => h.settled (hs hq)
  · rw [ho, hg]
    exact h.ops
  · rw [hc]
    exact h.ready

/-- The number of calls of `end_create` does not matter. -/
theorem Good.ends (h : c.Good m) (n : Nat) : ({ c with ends := n } : Create).Good m :=
  ⟨h.early, h.settled, h.ops, h.exclusive, h.checkpointed, h.evidence, h.notPending, h.known,
    h.ready⟩

theorem Good.of_work (h : c.Good m) (hp : c.phase.isWork)
    (hids : d.checkpointId = c.checkpointId ∧ d.opId = c.opId) (hmono : c.Evidence → d.Evidence)
    (hphase : d.phase.isSettled = false ∧ d.phase.isOpGone = false ∧ d.phase.isEarly = false)
    (hexclusive : d.phase.isExclusive → d.exclusive)
    (hcheckpointed : d.phase = .resuming → d.checkpointed)
    (hevidence : d.phase = .committed ∨ d.phase = .settling .ready → d.Evidence)
    (hpending : d.phase ≠ .settling .pending) (hknown : d.phase ≠ .handlerFailing false) :
    d.Good m := by
  have hg : c.phase.isOpGone = false := by
    cases hphase : c.phase <;> simp_all [CreatePhase.isWork, CreatePhase.isOpGone]
  refine ⟨by simp [hphase], by simp [hphase], ?_, hexclusive, hcheckpointed, hevidence, hpending,
    hknown, ?_⟩
  · rw [hids.2, hphase.2.1]
    exact hg ▸ h.ops
  · rw [hids.1]
    exact fun k hk r hr he hs => hmono (h.ready k hk r hr he hs)

/-- A failure of the work. -/
theorem Good.leave (h : c.Good m) (hp : c.phase.isWork) {q : CreatePhase}
    (hq : q = .failing ∨ q = .settling .failed) : (c.leave q).Good m := by
  have hphase : (c.leave q).phase = q := rfl
  refine h.of_work hp ⟨rfl, rfl⟩ id ?_ ?_ ?_ ?_ ?_ ?_ <;> rw [hphase] <;>
    rcases hq with rfl | rfl <;> simp [CreatePhase.isSettled, CreatePhase.isOpGone,
      CreatePhase.isEarly, CreatePhase.isExclusive]

theorem Good.abort (h : c.Good m) (hp : c.phase.isWork) : (c.abort result).Good m := by
  unfold Create.abort
  split
  · exact h.leave hp (.inr rfl)
  · exact h.leave hp (.inr rfl)
  · exact h.leave hp (.inl rfl)

/-- The work of a checkpoint goes on inside its exclusive section. -/
theorem Good.work (h : c.Good m) (hp : c.phase.isWork) : (c.work result).Good m := by
  cases hphase : c.phase with
  | queued =>
    simp only [Create.work, hphase]
    split_ifs
    · exact h.of_work hp ⟨rfl, rfl⟩ id ⟨rfl, rfl, rfl⟩ (fun _ => rfl) (by simp) (by simp)
        (by simp) (by simp)
    · exact h.goto_same rfl rfl rfl (by simp [CreatePhase.isSettled])
        (by simp [CreatePhase.isOpGone, hphase])
  | preparing =>
    have hexclusive := h.exclusive (by rw [hphase]; rfl)
    simp only [Create.work, hphase]
    split_ifs
    · exact h.of_work hp ⟨rfl, rfl⟩ id ⟨rfl, rfl, rfl⟩ (fun _ => hexclusive) (by simp [Create.goto])
        (by simp [Create.goto]) (by simp [Create.goto]) (by simp [Create.goto])
    · exact h.abort hp
  | committing =>
    have hexclusive := h.exclusive (by rw [hphase]; rfl)
    by_cases hr : result = .ok
    · cases hb : c.checkpointBackend with
      | legacy =>
        have hwork : c.work result = { c with checkpointed := c.exclusive }.leave .committed := by
          simp [Create.work, hphase, hb, hr]
        have hevidence : ({ c with checkpointed := c.exclusive }.leave .committed).Evidence :=
          ⟨hexclusive, fun hf => by simp [Create.leave, hb] at hf⟩
        rw [hwork]
        exact h.of_work hp ⟨rfl, rfl⟩ (fun _ => hevidence) ⟨rfl, rfl, rfl⟩
          (by simp [Create.leave, CreatePhase.isExclusive]) (by simp [Create.leave])
          (fun _ => hevidence) (by simp [Create.leave]) (by simp [Create.leave])
      | full =>
        have hwork : c.work result =
            { c with checkpointed := c.exclusive, phase := .resuming } := by
          simp [Create.work, hphase, hb, hr]
        rw [hwork]
        exact h.of_work hp ⟨rfl, rfl⟩ (fun he => ⟨hexclusive, he.2⟩) ⟨rfl, rfl, rfl⟩
          (fun _ => hexclusive) (fun _ => hexclusive) (by simp) (by simp) (by simp)
    · simp only [Create.work, hphase, hr, if_false]
      split_ifs
      · exact h.abort hp
      · exact h.leave hp (.inl rfl)
  | resuming =>
    have hexclusive := h.exclusive (by rw [hphase]; rfl)
    have hcheckpointed := h.checkpointed hphase
    simp only [Create.work, hphase]
    split_ifs
    · have hevidence : ({ c with resumed := c.exclusive }.leave .committed).Evidence :=
        ⟨hcheckpointed, fun _ => hexclusive⟩
      exact h.of_work hp ⟨rfl, rfl⟩ (fun _ => hevidence) ⟨rfl, rfl, rfl⟩
        (by simp [Create.leave, CreatePhase.isExclusive]) (by simp [Create.leave])
        (fun _ => hevidence) (by simp [Create.leave]) (by simp [Create.leave])
    · exact h.leave hp (.inl rfl)
  | committed =>
    have hevidence := h.evidence (.inl hphase)
    simp only [Create.work, hphase]
    split_ifs
    · exact h.of_work hp ⟨rfl, rfl⟩ id ⟨rfl, rfl, rfl⟩
        (by simp [Create.goto, CreatePhase.isExclusive]) (by simp [Create.goto])
        (fun _ => hevidence) (by simp [Create.goto]) (by simp [Create.goto])
    · exact h.abort hp
    · exact h.leave hp (.inl rfl)
  | _ => simp [hphase, CreatePhase.isWork] at hp

/-- The failure path of the handler finds the record and can write it. -/
def Bookkept (m : CheckpointManager) (c : Create) (result : StepResult) : Prop :=
  c.phase = .handlerFailing true →
    result = .ok ∧ ∀ checkpointId ∈ c.checkpointId, (m.getCheckpoint checkpointId).isSome

instance (m : CheckpointManager) (c : Create) (result : StepResult) :
    Decidable (c.Bookkept m result) :=
  inferInstanceAs (Decidable (_ → _ ∧ _))

/-- A write of the record that leaves it as it is. -/
theorem mem_of_rewrite {checkpointId : String} {persisted : Bool} {r : CheckpointRecord}
    (hr : r ∈ (m.updateCheckpoint checkpointId id persisted).1.checkpoints) :
    r ∈ m.checkpoints := by
  obtain ⟨r₀, hr₀, ⟨-, rfl⟩ | ⟨-, rfl⟩⟩ := CheckpointManager.mem_updateCheckpoint hr
  · exact hr₀
  · exact hr₀

/-- After an update of the status, the record has that status. -/
theorem status_of_update {checkpointId : String} {status : CheckpointStatus} {persisted : Bool}
    {r : CheckpointRecord}
    (hr : r ∈ (m.updateCheckpoint checkpointId (fun r => { r with status := status })
      persisted).1.checkpoints) (hid : r.checkpointId = checkpointId) : r.status = status := by
  obtain ⟨r₀, hr₀, ⟨hne, rfl⟩ | ⟨-, rfl⟩⟩ := CheckpointManager.mem_updateCheckpoint hr
  · exact absurd hid hne
  · rfl

/-- What the update of the record leads to. -/
theorem Good.updates (h : c.Good m) {status : CheckpointStatus} {done raised q : CreatePhase}
    {checkpointId : String} {persisted : Bool}
    (hp : c.phase.update? = some (status, done, raised))
    (hid : c.checkpointId = some checkpointId) (hq : q.isPlain) (hg : q.isOpGone = false) :
    (c.goto q).Good (m.updateCheckpoint checkpointId (fun r => { r with status := status })
      persisted).1 := by
  have hgone : c.phase.isOpGone = false := by
    cases hphase : c.phase <;> simp_all [CreatePhase.update?, CreatePhase.isOpGone]
  have hstatus : status ≠ .pending ∧ (status = .ready → c.Evidence) := by
    cases hphase : c.phase with
    | settling st =>
      rw [hphase] at hp
      cases hp
      refine ⟨fun he => h.notPending (he ▸ hphase), fun he => h.evidence (.inr (he ▸ hphase))⟩
    | failing =>
      rw [hphase] at hp
      cases hp
      simp
    | handlerFailing known =>
      cases known
      · simp [hphase, CreatePhase.update?] at hp
      · rw [hphase] at hp
        cases hp
        simp
    | _ => simp [hphase, CreatePhase.update?] at hp
  refine good_goto hq ?_ ?_ ?_
  · intro _ k hk r hr he
    rw [hid] at hk
    cases hk
    rw [status_of_update hr he]
    exact hstatus.1
  · rw [CheckpointManager.updateCheckpoint_ops, hg]
    exact hgone ▸ h.ops
  · intro k hk r hr he hs
    rw [hid] at hk
    cases hk
    rw [status_of_update hr he] at hs
    exact hstatus.2 hs

/-- The operation of a create is there until it is taken out. -/
theorem Good.op_isOk (h : c.Good m) {done raised : CreatePhase} {opId : String}
    (hp : c.phase.op? = some (done, raised)) (hid : c.opId = some opId) :
    (m.settleOp opId).2.isOk := by
  rw [CheckpointManager.settleOp_isOk, h.ops opId hid]
  cases hphase : c.phase <;> simp_all [CreatePhase.op?, CreatePhase.isOpGone]

theorem Moves.good (h : c.Moves m result m' c') (hg : c.Good m) (hb : c.Bookkept m result) :
    c'.Good m' := by
  cases h with
  | rejects hp =>
    have he := hg.early (by rw [hp]; rfl)
    exact good_goto rfl (by simp [he]) (by simp [he]) (by simp [he])
  | acquires hp hslots =>
    have he := hg.early (by rw [hp]; rfl)
    refine ⟨fun _ => he, ?_, ?_, ?_, ?_, ?_, ?_, ?_, ?_⟩ <;>
      simp [goto, he, CreatePhase.isSettled, CreatePhase.isExclusive]
  | admits hp =>
    have he := hg.early (by rw [hp]; rfl)
    refine ⟨fun _ => he, ?_, ?_, ?_, ?_, ?_, ?_, ?_, ?_⟩ <;>
      simp [he, CreatePhase.isSettled, CreatePhase.isExclusive]
  | queues hp hid hok =>
    have hops := hg.ops
    rw [hp] at hops
    refine ⟨by simp [CreatePhase.isEarly], by simp [CreatePhase.isSettled], ?_,
      by simp [CreatePhase.isExclusive], by simp, by simp, by simp, by simp, ?_⟩
    · rw [CheckpointManager.updateCheckpoint_ops]
      exact hops
    · intro k hk r hr he hs
      exact hg.ready k hk r (mem_of_rewrite hr) he hs
  | queueRaises hp hid =>
    have hops := hg.ops
    rw [hp] at hops
    refine good_goto rfl (by simp [CreatePhase.isSettled]) ?_ ?_
    · rw [CheckpointManager.updateCheckpoint_ops]
      exact hops
    · intro k hk r hr he hs
      exact hg.ready k hk r (mem_of_rewrite hr) he hs
  | works hp => exact hg.work hp
  | updates hp hid hok =>
    cases hphase : c.phase with
    | settling status =>
      have hp' := hp
      rw [hphase] at hp'
      cases hp'
      exact hg.updates hp hid rfl rfl
    | failing =>
      have hp' := hp
      rw [hphase] at hp'
      cases hp'
      exact hg.updates hp hid rfl rfl
    | handlerFailing known =>
      cases known
      · simp [hphase, CreatePhase.update?] at hp
      · have hp' := hp
        rw [hphase] at hp'
        cases hp'
        exact hg.updates hp hid rfl rfl
    | _ => simp [hphase, CreatePhase.update?] at hp
  | updateRaises hp hid hok =>
    cases hphase : c.phase with
    | settling status =>
      have hp' := hp
      rw [hphase] at hp'
      cases hp'
      exact hg.updates hp hid rfl rfl
    | failing =>
      have hp' := hp
      rw [hphase] at hp'
      cases hp'
      exact hg.updates hp hid rfl rfl
    | handlerFailing known =>
      cases known
      · simp [hphase, CreatePhase.update?] at hp
      · obtain ⟨hok', hsome⟩ := hb hphase
        refine absurd ?_ hok
        rw [CheckpointManager.updateCheckpoint_isOk]
        exact ⟨hsome _ hid, by simp [hok']⟩
    | _ => simp [hphase, CreatePhase.update?] at hp
  | settles hp hid hok =>
    rename_i done raised opId
    have hdone : done.isPlain ∧ done.isOpGone = true ∧ c.phase.isSettled := by
      cases hphase : c.phase <;> rw [hphase] at hp <;> cases hp <;> exact ⟨rfl, rfl, rfl⟩
    refine good_goto hdone.1 ?_ ?_ ?_
    · rw [CheckpointManager.settleOp_checkpoints]
      exact fun _ => hg.settled hdone.2.2
    · intro o ho
      rw [hid] at ho
      cases ho
      rw [hdone.2.1]
      simp [CheckpointManager.mem_settleOp]
    · rw [CheckpointManager.settleOp_checkpoints]
      exact hg.ready
  | settleRaises hp hid hok => exact absurd (hg.op_isOk hp hid) hok
  | ends hp =>
    rename_i releasing done
    have hphases : (releasing.isPlain ∧ done.isPlain) ∧ c.phase.isSettled ∧
        releasing.isOpGone = c.phase.isOpGone ∧ done.isOpGone = c.phase.isOpGone := by
      cases hphase : c.phase with
      | ending error =>
        rw [hphase] at hp
        cases hp
        cases error <;> exact ⟨⟨rfl, rfl⟩, rfl, rfl, rfl⟩
      | handlerEnding =>
        rw [hphase] at hp
        cases hp
        exact ⟨⟨rfl, rfl⟩, rfl, rfl, rfl⟩
      | _ => simp [hphase, CreatePhase.end?] at hp
    obtain ⟨hplain, hsettled, hreleasing, hdone⟩ := hphases
    unfold endCreate
    split_ifs
    · exact (hg.ends (c.ends + 1)).goto_same hplain.1 rfl rfl (fun _ => hsettled) hreleasing
    · exact (hg.ends (c.ends + 1)).goto_same hplain.2 rfl rfl (fun _ => hsettled) hdone
  | releases hp =>
    cases hphase : c.phase with
    | releasing error =>
      rw [hphase] at hp
      cases hp
      exact hg.goto_same rfl rfl rfl (by simp [hphase, CreatePhase.isSettled])
        (by cases error <;> simp [hphase, CreatePhase.isOpGone])
    | handlerReleasing =>
      rw [hphase] at hp
      cases hp
      exact hg.goto_same rfl rfl rfl (by simp [hphase, CreatePhase.isSettled])
        (by simp [hphase, CreatePhase.isOpGone])
    | _ => simp [hphase, CreatePhase.release?] at hp
  | answers hp =>
    cases hphase : c.phase with
    | answered error =>
      rw [hphase] at hp
      cases hp
      cases error
      · exact hg.goto_same rfl rfl rfl (by simp [hphase, CreatePhase.isSettled])
          (by simp [hphase, CreatePhase.isOpGone])
      · exact hg.goto_same rfl rfl rfl (by simp [CreatePhase.isSettled])
          (by simp [hphase, CreatePhase.isOpGone])
    | handlerFailing known =>
      cases known
      · exact absurd hphase hg.known
      · simp [hphase, CreatePhase.answer?] at hp
    | _ => simp [hphase, CreatePhase.answer?] at hp

/-- No id of the one is an id of the other. -/
def Disjoint (c d : Create) : Prop :=
  (∀ k ∈ d.checkpointId, c.checkpointId ≠ some k) ∧ ∀ o ∈ d.opId, c.opId ≠ some o

theorem Disjoint.symm (h : c.Disjoint d) : d.Disjoint c :=
  ⟨fun k hk hd => h.1 k hd hk, fun o ho hd => h.2 o hd ho⟩

theorem good_start (checkpointBackend : CheckpointBackend) :
    (start checkpointBackend).Good m := by
  refine ⟨fun _ => ⟨rfl, rfl⟩, ?_, ?_, ?_, ?_, ?_, ?_, ?_, ?_⟩ <;>
    simp [start, CreatePhase.isExclusive]

end Create

namespace CheckpointService

variable {s s' : CheckpointService} {checkpoints : List CheckpointRecord}

/-- A record that was not there at the start is ready only by a create that shows for it,
and a finished create leaves neither a pending record nor an operation. -/
structure Settled (checkpoints : List CheckpointRecord) (s : CheckpointService) : Prop where
  ready : ∀ r ∈ s.manager.checkpoints, r.status = .ready →
    (∃ r₀ ∈ checkpoints, r₀.checkpointId = r.checkpointId) ∨
      ∃ c ∈ s.creates, c.checkpointId = some r.checkpointId ∧ c.Evidence
  finished : ∀ c ∈ s.creates, c.phase = .finished →
    (∀ k ∈ c.checkpointId, ∀ r ∈ s.manager.checkpoints, r.checkpointId = k →
      r.status ≠ .pending) ∧ ∀ o ∈ c.opId, ∀ op ∈ s.manager.ops, op.opId ≠ o

/-- The condition on a step: the new record is written, and the failure path of the
handler finds the record and can write it. -/
def Bookkept (s : CheckpointService) : ServiceAction → Prop
  | .record _ _ _ persisted => persisted = true
  | .step i result => ∀ c ∈ s.creates[i]?, c.Bookkept s.manager result
  | _ => True

instance (s : CheckpointService) : ∀ a, Decidable (s.Bookkept a)
  | .record _ _ _ persisted => inferInstanceAs (Decidable (persisted = true))
  | .step i result => inferInstanceAs (Decidable (∀ c ∈ s.creates[i]?, c.Bookkept s.manager result))
  | .receive _ => .isTrue trivial
  | .deleteRecord _ => .isTrue trivial

/-- Each create is good, no two share an id, and every new record is that of a create. -/
structure Sound (checkpoints : List CheckpointRecord) (s : CheckpointService) : Prop where
  good : ∀ c ∈ s.creates, c.Good s.manager
  apart : Apart Create.Disjoint s.creates
  known : ∀ r ∈ s.manager.checkpoints, (∃ r₀ ∈ checkpoints, r₀.checkpointId = r.checkpointId) ∨
    ∃ c ∈ s.creates, c.checkpointId = some r.checkpointId

theorem init_sound (maxInflight : Int) (checkpoints : List CheckpointRecord) :
    (init maxInflight checkpoints).Sound checkpoints := by
  refine ⟨by simp [init], apart_nil, ?_⟩
  exact fun r hr => .inl ⟨r, hr, rfl⟩

theorem Sound.settled (h : s.Sound checkpoints) : s.Settled checkpoints := by
  refine ⟨?_, ?_⟩
  · intro r hr hready
    refine (h.known r hr).imp_right ?_
    intro hc
    obtain ⟨c, hc, hid⟩ := hc
    exact ⟨c, hc, hid, (h.good c hc).ready _ hid r hr rfl hready⟩
  · intro c hc hp
    refine ⟨(h.good c hc).settled (by rw [hp]; rfl), ?_⟩
    intro o ho op hop he
    have hgone := ((h.good c hc).ops o ho).mp ⟨op, hop, he⟩
    simp [hp, CreatePhase.isOpGone] at hgone

/-- A step of one create, seen from all of them. -/
theorem Sound.set (h : s.Sound checkpoints) {i : Nat} {c c' : Create} {m' : CheckpointManager}
    (hi : s.creates[i]? = some c) (hgood : c'.Good m')
    (hframe : Create.Frame s.manager m' c'.checkpointId c'.opId)
    (hid : ∀ k ∈ c.checkpointId, c'.checkpointId = some k)
    (hapart : ∀ (j : Nat) (d : Create), i ≠ j → s.creates[j]? = some d → c'.Disjoint d) :
    Sound checkpoints ⟨m', s.creates.set i c'⟩ := by
  have hmem : c' ∈ s.creates.set i c' := List.mem_set (List.getElem?_eq_some_iff.mp hi).1 c'
  refine ⟨?_, ?_, ?_⟩
  · intro d hd
    rcases mem_set_cases hd with rfl | ⟨j, hij, hj⟩
    · exact hgood
    · obtain ⟨hk, ho⟩ := hapart j d hij hj
      exact (h.good d (List.mem_of_getElem? hj)).frame hframe hk ho
  · exact h.apart.set fun j d hij hj => ⟨hapart j d hij hj, (hapart j d hij hj).symm⟩
  · intro r hr
    by_cases hc : c'.checkpointId = some r.checkpointId
    · exact .inr ⟨c', hmem, hc⟩
    · refine (h.known r (hframe.checkpoints r hr hc)).imp_right ?_
      intro hd
      obtain ⟨d, hd, hdid⟩ := hd
      obtain ⟨j, hj⟩ := List.mem_iff_getElem?.mp hd
      by_cases hij : i = j
      · subst hij
        rw [hi] at hj
        cases hj
        exact absurd (hid _ hdid) hc
      · exact ⟨d, List.mem_of_getElem? ((List.getElem?_set_ne hij).trans hj), hdid⟩

/-- A record that is made is new, pending and has its operation. -/
theorem good_record {m : CheckpointManager} {c : Create} {record : CheckpointRecord}
    {opId : String} (hnew : ∀ r ∈ m.checkpoints, r.checkpointId ≠ record.checkpointId) :
    (c.record m record opId true).2.Good (c.record m record opId true).1 := by
  refine ⟨?_, ?_, ?_, ?_, ?_, ?_, ?_, ?_, ?_⟩
  · simp [Create.record, CheckpointManager.createCheckpoint, Except.isOk, Except.toBool,
      CreatePhase.isEarly]
  · simp [Create.record, CheckpointManager.createCheckpoint, Except.isOk, Except.toBool,
      CreatePhase.isSettled]
  · simp [Create.record, CheckpointManager.createCheckpoint, Except.isOk, Except.toBool,
      CreatePhase.isOpGone]
  · simp [Create.record, CheckpointManager.createCheckpoint, Except.isOk, Except.toBool,
      CreatePhase.isExclusive]
  · simp [Create.record, CheckpointManager.createCheckpoint, Except.isOk, Except.toBool]
  · simp [Create.record, CheckpointManager.createCheckpoint, Except.isOk, Except.toBool]
  · simp [Create.record, CheckpointManager.createCheckpoint, Except.isOk, Except.toBool]
  · simp [Create.record, CheckpointManager.createCheckpoint, Except.isOk, Except.toBool]
  · intro k hk r hr he hready
    cases hk
    rcases List.mem_append.mp hr with hr | hr
    · exact absurd he (hnew r hr)
    · rw [List.mem_singleton.mp hr] at hready
      cases hready

theorem frame_record {m : CheckpointManager} {c : Create} {record : CheckpointRecord}
    {opId : String} {persisted : Bool} :
    Create.Frame m (c.record m record opId persisted).1 (some record.checkpointId)
      (some opId) := by
  refine ⟨?_, ?_⟩
  · intro r hr hne
    rcases List.mem_append.mp hr with hr | hr
    · exact hr
    · rw [List.mem_singleton.mp hr] at hne
      exact absurd rfl hne
  · intro op hne
    simp only [Create.record, CheckpointManager.createCheckpoint, List.mem_append,
      List.mem_singleton]
    exact ⟨fun h => h.resolve_right (fun he => hne (by rw [he])), .inl⟩

theorem Sound.next {a : ServiceAction} (h : s.Sound checkpoints) (hb : s.Bookkept a)
    (hn : s.next a = some s') : s'.Sound checkpoints := by
  rcases next_cases hn with ⟨backend, -, rfl⟩ |
    ⟨i, c, record, opId, persisted, hi, hp, hfresh, rfl, rfl⟩ |
    ⟨i, result, c, m', c', rfl, hi, hm, rfl⟩ | ⟨checkpointId, record, -, -, -, rfl⟩
  · refine ⟨?_, ?_, ?_⟩
    · intro c hc
      rcases List.mem_append.mp hc with hc | hc
      · exact h.good c hc
      · rw [List.mem_singleton.mp hc]
        exact Create.good_start backend
    · exact h.apart.concat fun c _ =>
        ⟨by simp [Create.Disjoint, Create.start], by simp [Create.Disjoint, Create.start]⟩
    · intro r hr
      refine (h.known r hr).imp_right ?_
      intro hc
      obtain ⟨c, hc, hid⟩ := hc
      exact ⟨c, List.mem_append_left _ hc, hid⟩
  · obtain rfl : persisted = true := hb
    obtain ⟨hnew, -, hids⟩ := hfresh
    have hearly := (h.good c (List.mem_of_getElem? hi)).early (by rw [hp]; rfl)
    refine h.set hi (good_record hnew) frame_record (by simp [hearly]) ?_
    intro j d hij hj
    obtain ⟨hk, ho⟩ := hids d (List.mem_of_getElem? hj)
    exact ⟨fun k hdk he => hk (by rw [hdk, ← he]; rfl), fun o hdo he => ho (by rw [hdo, ← he]; rfl)⟩
  · obtain ⟨hk, ho⟩ := hm.ids
    refine h.set hi (hm.good (h.good c (List.mem_of_getElem? hi)) (hb c hi)) ?_ ?_ ?_
    · rw [hk, ho]
      exact hm.frame
    · rw [hk]
      exact fun k hk => hk
    · intro j d hij hj
      rw [Create.Disjoint, hk, ho]
      exact h.apart i j c d hij hi hj
  · have hframe : Create.Frame s.manager (s.manager.deleteCheckpoint checkpointId) none none :=
      ⟨fun r hr _ => List.mem_of_mem_filter hr, fun _ _ => Iff.rfl⟩
    refine ⟨?_, h.apart, fun r hr => h.known r (List.mem_of_mem_filter hr)⟩
    exact fun c hc => (h.good c hc).frame hframe (by simp) (by simp)

/-- As long as new records are written and the failure path of the handler can do its
bookkeeping, whatever runs beside it, the records tell the truth. -/
theorem settled_of_bookkept (maxInflight : Int) (checkpoints : List CheckpointRecord)
    (run : List ServiceAction)
    (h : Meets next Bookkept (init maxInflight checkpoints) run) :
    Along next (Settled checkpoints) (init maxInflight checkpoints) run :=
  (along_of_meets (fun _ _ _ hs hb hn => hs.next hb hn) (init_sound maxInflight checkpoints)
    h).mono fun _ hs => hs.settled

/-- A full checkpoint that goes well next to an image checkpoint whose commit fails. -/
def settlingRun : List ServiceAction :=
  [.receive .full, .receive .legacy, .step 0 .ok, .step 1 .ok, .step 0 .ok, .step 1 .ok,
    .record 0 (newRecord "j") "o" true, .record 1 (newRecord "k") "p" true] ++
    List.replicate 11 (.step 0 .ok) ++ List.replicate 3 (.step 1 .ok) ++ [.step 1 .raised] ++
    List.replicate 5 (.step 1 .ok)

theorem settled_of_bookkept_settlingRun :
    Along next (Settled []) (init 2 []) settlingRun :=
  settled_of_bookkept 2 [] settlingRun (by decide)

/-- The disk is full when the record is made: the handler does not know it. -/
def unwrittenRun : List ServiceAction :=
  [.receive .legacy, .step 0 .ok, .step 0 .ok, .record 0 (newRecord "k") "o" false] ++
    List.replicate 3 (.step 0 .ok)

theorem settled_fails :
    ¬Along next (Settled []) (init 2 []) unwrittenRun ∧
      ¬Along next (Settled []) (init 2 []) missingEndRun := by
  constructor
  · intro h
    have hlast := ((h.last rfl).finished _ (List.mem_cons_self ..) rfl).1
    exact absurd hlast (by decide)
  · intro h
    have hlast := ((h.last rfl).finished _ (List.mem_cons_self ..) rfl).2
    exact absurd hlast (by decide)

end CheckpointService

end Belayer.Exec
