import Belayer.Exec.CheckpointNode
import Belayer.Exec.Settled
import Mathlib.Logic.Relation

namespace Belayer.Exec

open Belayer.Framework

/-- Records go, or change in nothing but a status that is not failed yet. -/
structure Evolves (m m' : CheckpointManager) : Prop where
  ids : (m'.checkpoints.map (·.checkpointId)).Sublist (m.checkpoints.map (·.checkpointId))
  old : ∀ r' ∈ m'.checkpoints, ∃ r ∈ m.checkpoints, r.checkpointId = r'.checkpointId ∧
    r.parentCheckpointId = r'.parentCheckpointId ∧ (r.status = .failed → r'.status = .failed)

namespace Evolves

variable {m m' : CheckpointManager}

theorem refl : Evolves m m := ⟨List.Sublist.refl _, fun r hr => ⟨r, hr, rfl, rfl, id⟩⟩

theorem of_checkpoints (h : m'.checkpoints = m.checkpoints) : Evolves m m' :=
  ⟨by rw [h], fun r hr => ⟨r, h ▸ hr, rfl, rfl, id⟩⟩

theorem updateCheckpoint {checkpointId : String} {updates : CheckpointRecord → CheckpointRecord}
    {persisted : Bool}
    (hid : ∀ r, (updates r).checkpointId = r.checkpointId)
    (hparent : ∀ r, (updates r).parentCheckpointId = r.parentCheckpointId)
    (hstatus : ∀ r ∈ m.checkpoints, r.checkpointId = checkpointId → r.status = .failed →
      (updates r).status = .failed) :
    Evolves m (m.updateCheckpoint checkpointId updates persisted).1 := by
  refine ⟨?_, ?_⟩
  · rw [CheckpointManager.updateCheckpoint]
    split
    · exact List.Sublist.refl _
    · rw [List.map_map]
      have hmap : m.checkpoints.map ((·.checkpointId) ∘ fun r =>
          if r.checkpointId = checkpointId then updates r else r) =
          m.checkpoints.map (·.checkpointId) := by
        refine List.map_congr_left ?_
        intro r _
        simp only [Function.comp]
        split_ifs
        · exact hid r
        · rfl
      rw [hmap]
  · intro r' hr'
    obtain ⟨r, hr, ⟨-, rfl⟩ | ⟨he, rfl⟩⟩ := CheckpointManager.mem_updateCheckpoint hr'
    · exact ⟨r', hr, rfl, rfl, id⟩
    · exact ⟨r, hr, (hid r).symm, (hparent r).symm, hstatus r hr he⟩

theorem rewrite {checkpointId : String} {persisted : Bool} :
    Evolves m (m.updateCheckpoint checkpointId id persisted).1 :=
  updateCheckpoint (fun _ => rfl) (fun _ => rfl) fun _ _ _ h => h

theorem deleteCheckpoint {checkpointId : String} :
    Evolves m (m.deleteCheckpoint checkpointId) := by
  refine ⟨List.filter_sublist.map _, ?_⟩
  intro r hr
  exact ⟨r, List.mem_of_mem_filter hr, rfl, rfl, id⟩

end Evolves

namespace CreatePhase

/-- The record of the create is there and has not been given a status. -/
def isOpen : CreatePhase → Bool
  | .created | .queued | .preparing | .committing | .resuming | .committed | .settling _ => true
  | _ => false

def isClosed (phase : CreatePhase) : Bool := !phase.isEarly && !phase.isOpen

variable {phase done raised releasing : CreatePhase} {status : CheckpointStatus}

theorem update?_closed (h : phase.update? = some (status, done, raised)) :
    done.isClosed ∧ raised.isClosed := by
  cases phase with
  | handlerFailing known => cases known <;> cases h; exact ⟨rfl, rfl⟩
  | settling status => cases h; exact ⟨rfl, rfl⟩
  | failing => cases h; exact ⟨rfl, rfl⟩
  | _ => cases h

theorem op?_closed (h : phase.op? = some (done, raised)) : done.isClosed ∧ raised.isClosed := by
  cases phase <;> cases h <;> exact ⟨rfl, rfl⟩

theorem end?_closed (h : phase.end? = some (releasing, done)) :
    releasing.isClosed ∧ done.isClosed := by
  cases phase <;> cases h <;> exact ⟨rfl, rfl⟩

theorem release?_closed (h : phase.release? = some done) : done.isClosed := by
  cases phase <;> cases h <;> rfl

theorem answer?_closed (h : phase.answer? = some done) : done.isClosed := by
  cases phase with
  | answered error => cases error <;> cases h <;> rfl
  | handlerFailing known => cases known <;> cases h; rfl
  | _ => cases h

end CreatePhase

namespace Create

variable {m m' : CheckpointManager} {c c' d : Create} {result : StepResult}

/-- The record of a create is pending until the create gives it a status. -/
structure Tracks (m : CheckpointManager) (c : Create) : Prop where
  early : c.phase.isEarly → c.checkpointId = none
  pending : c.phase.isOpen → ∀ k ∈ c.checkpointId, ∀ r ∈ m.checkpoints, r.checkpointId = k →
    r.status = .pending

theorem Tracks.mono (h : d.Tracks m)
    (hsub : ∀ r ∈ m'.checkpoints, d.checkpointId = some r.checkpointId → r ∈ m.checkpoints) :
    d.Tracks m' := by
  refine ⟨h.early, ?_⟩
  intro ho k hd r hr he
  subst he
  exact h.pending ho _ hd r (hsub r hr hd) rfl

/-- A step out of the phases in which the record is pending. -/
theorem tracks_of_closed (h : c'.phase.isClosed) : c'.Tracks m := by
  simp only [CreatePhase.isClosed, Bool.and_eq_true, Bool.not_eq_true'] at h
  refine ⟨fun he => ?_, fun ho => ?_⟩
  · simp [h.1] at he
  · simp [h.2] at ho

theorem Moves.tracks (h : c.Moves m result m' c') (ht : c.Tracks m) : c'.Tracks m' := by
  cases h with
  | rejects hp => exact tracks_of_closed rfl
  | acquires hp hslots =>
    exact ⟨fun _ => ht.early (by rw [hp]; rfl), by simp [goto, CreatePhase.isOpen]⟩
  | admits hp => exact ⟨fun _ => ht.early (by rw [hp]; rfl), by simp [CreatePhase.isOpen]⟩
  | queues hp hid hok =>
    refine ⟨by simp [CreatePhase.isEarly], ?_⟩
    intro _ k hk r hr he
    exact ht.pending (by rw [hp]; rfl) k hk r (mem_of_rewrite hr) he
  | queueRaises hp hid => exact tracks_of_closed rfl
  | works hp =>
    have hopen : c.phase.isOpen := by
      cases hphase : c.phase <;> simp_all [CreatePhase.isWork, CreatePhase.isOpen]
    have hearly : (c.work result).phase.isEarly = false := by
      rcases work_phase result hp with hp' | ⟨status, hp'⟩ | hp'
      · cases hphase : (c.work result).phase <;>
          simp_all [CreatePhase.isWork, CreatePhase.isEarly]
      · rw [hp']
        rfl
      · rw [hp']
        rfl
    refine ⟨by simp [hearly], fun _ => ?_⟩
    rw [(work_ids c result).1]
    exact ht.pending hopen
  | updates hp hid hok => exact tracks_of_closed (CreatePhase.update?_closed hp).1
  | updateRaises hp hid hok => exact tracks_of_closed (CreatePhase.update?_closed hp).2
  | settles hp hid hok => exact tracks_of_closed (CreatePhase.op?_closed hp).1
  | settleRaises hp hid hok => exact tracks_of_closed (CreatePhase.op?_closed hp).2
  | ends hp =>
    unfold endCreate
    split_ifs
    · exact tracks_of_closed (CreatePhase.end?_closed hp).1
    · exact tracks_of_closed (CreatePhase.end?_closed hp).2
  | releases hp => exact tracks_of_closed (CreatePhase.release?_closed hp)
  | answers hp => exact tracks_of_closed (CreatePhase.answer?_closed hp)

/-- A create makes no failed record anything else. -/
theorem Moves.evolves (h : c.Moves m result m' c') (ht : c.Tracks m) : Evolves m m' := by
  have hupdate : ∀ status done raised checkpointId,
      c.phase.update? = some (status, done, raised) → c.checkpointId = some checkpointId →
      Evolves m (m.updateCheckpoint checkpointId (fun r => { r with status := status })
        (result = .ok)).1 := by
    intro status done raised checkpointId hp hid
    refine .updateCheckpoint (fun _ => rfl) (fun _ => rfl) ?_
    intro r hr he hfailed
    cases hphase : c.phase with
    | settling status =>
      have hpending := ht.pending (by rw [hphase]; rfl) _ hid r hr he
      simp [hpending] at hfailed
    | failing =>
      rw [hphase] at hp
      cases hp
      rfl
    | handlerFailing known =>
      cases known
      · simp [hphase, CreatePhase.update?] at hp
      · rw [hphase] at hp
        cases hp
        rfl
    | _ => simp [hphase, CreatePhase.update?] at hp
  cases h with
  | queues hp hid hok => exact .rewrite
  | queueRaises hp hid => exact .rewrite
  | updates hp hid hok => exact hupdate _ _ _ _ hp hid
  | updateRaises hp hid hok => exact hupdate _ _ _ _ hp hid
  | settles hp hid hok => exact .of_checkpoints (by simp)
  | settleRaises hp hid hok => exact .of_checkpoints (by simp)
  | ends hp =>
    unfold endCreate
    split_ifs
    · exact .of_checkpoints rfl
    · exact .refl
  | _ => exact .of_checkpoints rfl

end Create

/-- The record that a rerun is about to start its container from. -/
def RerunPhase.creating? : RerunPhase → Option CheckpointRecord
  | .creating record => some record
  | _ => none

namespace RerunState

/-- A step of a rerun changes no record and starts at most the new container. -/
theorem Moves.node {s s' : RerunState} {a : RerunAction} (h : s.Moves a s') :
    Evolves s.manager s'.manager ∧
      (∀ r ∈ s'.manager.checkpoints, r ∈ s.manager.checkpoints) ∧
      ∀ c ∈ s'.containers, c ∈ s.containers ∨
        ∃ raised record, a = .create (some c) raised ∧ s.phase = .creating record := by
  cases h with
  | createRaises hp hfresh =>
    rename_i record started
    refine ⟨.refl, fun _ hr => hr, ?_⟩
    intro c hc
    rcases List.mem_append.mp hc with hc | hc
    · exact .inl hc
    · rw [Option.mem_toList] at hc
      cases hc
      exact .inr ⟨true, record, rfl, hp⟩
  | creates hp hfresh =>
    rename_i record c
    refine ⟨.refl, fun _ hr => hr, ?_⟩
    intro d hd
    rcases List.mem_append.mp hd with hd | hd
    · exact .inl hd
    · rw [List.mem_singleton.mp hd]
      exact .inr ⟨false, record, rfl, hp⟩
  | removalRaises hp hold happly =>
    exact ⟨.refl, fun _ hr => hr, fun _ hc => .inl ((mem_of_apply happly).1 hc)⟩
  | removes hp hold happly hraised =>
    exact ⟨.refl, fun _ hr => hr, fun _ hc => .inl ((mem_of_apply happly).1 hc)⟩
  | cleans hp happly =>
    exact ⟨.refl, fun _ hr => hr, fun _ hc => .inl ((mem_of_apply happly).1 hc)⟩
  | marks hp hok => exact ⟨.rewrite, fun _ hr => Create.mem_of_rewrite hr, fun _ hc => .inl hc⟩
  | markRaises hp hok =>
    exact ⟨.rewrite, fun _ hr => Create.mem_of_rewrite hr, fun _ hc => .inl hc⟩
  | deletes =>
    exact ⟨.deleteCheckpoint, fun _ hr => List.mem_of_mem_filter hr, fun _ hc => .inl hc⟩
  | _ => exact ⟨.refl, fun _ hr => hr, fun _ hc => .inl hc⟩

end RerunState

namespace CheckpointNode

variable {s s' : CheckpointNode} {records items : List CheckpointRecord} {d : CheckpointRecord}
  {m m' : CheckpointManager}

/-- `p` is the parent that the record of `k` names. -/
def IsParent (m : CheckpointManager) (p k : String) : Prop :=
  ∃ r ∈ m.checkpoints, r.checkpointId = k ∧ r.parentCheckpointId = some p

def Ancestor (m : CheckpointManager) : String → String → Prop := Relation.TransGen (IsParent m)

/-- The image backs a container that is alive. -/
def Backs (s : CheckpointNode) (image : String) : Prop :=
  ∃ c ∈ s.containers, s.images.lookup c = some image

instance (s : CheckpointNode) (image : String) : Decidable (s.Backs image) :=
  inferInstanceAs (Decidable (∃ c ∈ s.containers, _))

/-- A checkpoint that is ready or pending descends from this one, or a container that is
alive runs its image. -/
def Needed (s : CheckpointNode) (d : CheckpointRecord) : Prop :=
  (∃ r ∈ s.manager.checkpoints, r.status ≠ .failed ∧
    Ancestor s.manager d.checkpointId r.checkpointId) ∨
    ∃ image ∈ d.checkpointImage, s.Backs image

/-- A collection deletes nothing that is needed. -/
def Harmless (s : CheckpointNode) : NodeCheckpointAction → Prop
  | .removeArtifacts j _ | .removeRecord j _ =>
    ∀ t ∈ s.gcs[j]?, ∀ d ∈ t.phase.items.head?, ¬s.Needed d
  | _ => True

/-- The planned deletions of all collections. -/
def doomed (s : CheckpointNode) : List CheckpointRecord := s.gcs.flatMap (·.phase.items)

/-- The records are as in the listing what a plan takes them for: no record that names one
of them as parent is missing there; such a child is of the same lease, later than its
parent if both are ready, and failed if its parent is; no container runs the image of a
failed one, and one that runs the image of a ready one is registered. -/
def Plannable (s : CheckpointNode) (records : List CheckpointRecord) : Prop :=
  (∀ r ∈ s.manager.checkpoints, ∀ p ∈ records, r.parentCheckpointId = some p.checkpointId →
    ∃ q ∈ records, q.checkpointId = r.checkpointId) ∧
  (∀ r ∈ records, ∀ p ∈ records, r.parentCheckpointId = some p.checkpointId →
    r.leaseId = p.leaseId ∧
      (p.status = .ready → r.status = .ready → p.sortKey < r.sortKey) ∧
      (p.status = .failed → r.status = .failed)) ∧
  ∀ p ∈ records, ∀ image ∈ p.checkpointImage, s.Backs image →
    p.status ≠ .failed ∧ (p.status = .ready → image ∈ s.activeImages)

instance (s : CheckpointNode) (records : List CheckpointRecord) :
    Decidable (s.Plannable records) :=
  inferInstanceAs (Decidable (_ ∧ _ ∧ _))

/-- The condition on a step: a plan is made of records as it takes them for, and while its
deletions are not done none of them is made a parent or started from. -/
def Clear (s : CheckpointNode) : NodeCheckpointAction → Prop
  | .plan j => ∀ t ∈ s.gcs[j]?, s.Plannable t.phase.listing
  | .record i _ _ _ _ => ∀ t ∈ s.creates[i]?, ∀ p ∈ t.request.parentCheckpointId,
      ∀ d ∈ s.doomed, d.checkpointId ≠ p
  | .rerun i (.create (some _) _) => ∀ t ∈ s.reruns[i]?, ∀ record ∈ t.phase.creating?,
      ∀ d ∈ s.doomed, d.checkpointImage ≠ some record.restoredImage
  | _ => True

instance (s : CheckpointNode) : ∀ a, Decidable (s.Clear a)
  | .plan j => inferInstanceAs (Decidable (∀ t ∈ s.gcs[j]?, s.Plannable t.phase.listing))
  | .record i _ _ _ _ => inferInstanceAs (Decidable (∀ t ∈ s.creates[i]?,
      ∀ p ∈ t.request.parentCheckpointId, ∀ d ∈ s.doomed, d.checkpointId ≠ p))
  | .rerun i (.create (some _) _) => inferInstanceAs (Decidable (∀ t ∈ s.reruns[i]?,
      ∀ record ∈ t.phase.creating?, ∀ d ∈ s.doomed,
        d.checkpointImage ≠ some record.restoredImage))
  | .rerun _ (.create none _) | .rerun _ .start | .rerun _ (.restore _) | .rerun _ (.destroyOld _)
  | .rerun _ (.markUsed _) | .rerun _ (.cleanUp _) | .rerun _ (.deleteRecord _)
  | .receiveCreate _ | .create _ _ | .receiveRerun _ | .register _ | .endContainer _
  | .deleteRecord _ | .list _ _ _ | .removeArtifacts _ _ | .removeRecord _ _ => .isTrue trivial

/-- What has been listed is what is there, but for records that are gone or have failed
since. -/
def Copies (m : CheckpointManager) (records : List CheckpointRecord) : Prop :=
  ∀ q ∈ records, ∀ r ∈ m.checkpoints, r.checkpointId = q.checkpointId →
    r.parentCheckpointId = q.parentCheckpointId ∧ (q.status = .failed → r.status = .failed)

/-- The planned deletions of a collection: every child of one of them is one too, and
before its parent unless it has failed. -/
structure Doomed (s : CheckpointNode) (items : List CheckpointRecord) : Prop where
  copies : Copies s.manager items
  ids : (items.map (·.checkpointId)).Nodup
  settled : ∀ d ∈ items, d.status = .ready ∨ d.status = .failed
  children : ∀ d ∈ items, ∀ r ∈ s.manager.checkpoints,
    r.parentCheckpointId = some d.checkpointId → ∃ q ∈ items, q.checkpointId = r.checkpointId
  failed : ∀ d ∈ items, ∀ q ∈ items, q.parentCheckpointId = some d.checkpointId →
    d.status = .failed → q.status = .failed
  own : ∀ d ∈ items, d.parentCheckpointId = some d.checkpointId → d.status = .failed
  ordered : items.Pairwise fun d q =>
    q.parentCheckpointId = some d.checkpointId → q.status = .failed
  unused : ∀ d ∈ items, ∀ image ∈ d.checkpointImage, ¬s.Backs image

theorem Copies.evolves (h : Copies m records) (hm : Evolves m m') : Copies m' records := by
  intro q hq r' hr' he
  obtain ⟨r, hr, hid, hparent, hfailed⟩ := hm.old r' hr'
  obtain ⟨hp, hf⟩ := h q hq r hr (hid.trans he)
  exact ⟨hparent.symm.trans hp, fun hs => hfailed (hf hs)⟩

theorem copies_of_subset (h : (m.checkpoints.map (·.checkpointId)).Nodup)
    (hsub : ∀ q ∈ records, q ∈ m.checkpoints) : Copies m records := by
  intro q hq r hr he
  rw [Gc.eq_of_checkpointId h hr (hsub q hq) he]
  exact ⟨rfl, id⟩

/-- Everything that descends from the first planned deletion has failed. -/
theorem Doomed.descendant (h : s.Doomed (d :: items)) {k : String}
    (hk : Ancestor s.manager d.checkpointId k) :
    ∃ q ∈ d :: items, q.checkpointId = k ∧ q.status = .failed := by
  have hd : d ∈ d :: items := List.mem_cons_self ..
  induction hk with
  | single hk =>
    obtain ⟨r, hr, rfl, hp⟩ := hk
    obtain ⟨q, hq, he⟩ := h.children d hd r hr hp
    have hqp : q.parentCheckpointId = some d.checkpointId :=
      (h.copies q hq r hr he.symm).1.symm.trans hp
    refine ⟨q, hq, he, ?_⟩
    rcases List.mem_cons.mp hq with rfl | hq
    · exact h.own _ hd hqp
    · exact (List.pairwise_cons.mp h.ordered).1 q hq hqp
  | tail _ hk ih =>
    obtain ⟨p, hp, rfl, hfailed⟩ := ih
    obtain ⟨r, hr, rfl, hrp⟩ := hk
    obtain ⟨q, hq, he⟩ := h.children p hp r hr hrp
    have hqp : q.parentCheckpointId = some p.checkpointId :=
      (h.copies q hq r hr he.symm).1.symm.trans hrp
    exact ⟨q, hq, he, h.failed p hp q hq hqp hfailed⟩

/-- The first planned deletion is not needed. -/
theorem Doomed.not_needed (h : s.Doomed (d :: items)) : ¬s.Needed d := by
  have hd : d ∈ d :: items := List.mem_cons_self ..
  intro hn
  rcases hn with ⟨r, hr, hs, hk⟩ | ⟨image, hi, hb⟩
  · obtain ⟨q, hq, he, hfailed⟩ := h.descendant hk
    exact hs ((h.copies q hq r hr he.symm).2 hfailed)
  · exact h.unused d hd image hi hb

/-- The first planned deletion is done. -/
theorem Doomed.tail (h : s.Doomed (d :: items)) :
    ({ s with manager := s.manager.deleteCheckpoint d.checkpointId } : CheckpointNode).Doomed
      items := by
  have hsub : ∀ q ∈ items, q ∈ d :: items := fun q hq => List.mem_cons_of_mem _ hq
  refine ⟨?_, (List.nodup_cons.mp h.ids).2, fun q hq => h.settled q (hsub q hq), ?_,
    fun p hp q hq => h.failed p (hsub p hp) q (hsub q hq), fun q hq => h.own q (hsub q hq),
    (List.pairwise_cons.mp h.ordered).2, fun q hq => h.unused q (hsub q hq)⟩
  · exact Copies.evolves (fun q hq => h.copies q (hsub q hq)) .deleteCheckpoint
  · intro p hp r hr hrp
    obtain ⟨hr, hne⟩ := List.mem_filter.mp hr
    obtain ⟨q, hq, he⟩ := h.children p (hsub p hp) r hr hrp
    refine ⟨q, (List.mem_cons.mp hq).resolve_left ?_, he⟩
    intro hqd
    simp [← hqd, he] at hne

theorem Doomed.evolves (h : s.Doomed items) (hm : Evolves s.manager s'.manager)
    (hb : ∀ d ∈ items, ∀ image ∈ d.checkpointImage, s'.Backs image → s.Backs image) :
    s'.Doomed items := by
  refine ⟨h.copies.evolves hm, h.ids, h.settled, ?_, h.failed, h.own, h.ordered,
    fun d hd image hi hbacks => h.unused d hd image hi (hb d hd image hi hbacks)⟩
  intro d hd r' hr' hp
  obtain ⟨r, hr, hid, hparent, -⟩ := hm.old r' hr'
  rw [← hid]
  exact h.children d hd r hr (hparent.trans hp)

/-- What the plan deletes of the listed records. -/
theorem doomed_plan (hn : (records.map (·.checkpointId)).Nodup) (hc : Copies s.manager records)
    (h : s.Plannable records) (keepLatest : Nat) :
    s.Doomed (Gc.plan records keepLatest s.activeImages) := by
  obtain ⟨hlisted, hchild, hactive⟩ := h
  have hmem : ∀ d ∈ Gc.plan records keepLatest s.activeImages, d ∈ records :=
    fun d hd => (Gc.mem_plan hd).1
  have hsettled : ∀ d ∈ Gc.plan records keepLatest s.activeImages,
      d.status = .ready ∨ d.status = .failed :=
    fun d hd => (Gc.mem_plan hd).2.imp_left (·.1)
  refine ⟨fun q hq => hc q (hmem q hq), Gc.nodup_plan, hsettled, ?_, ?_, ?_, ?_, ?_⟩
  · intro d hd r hr hp
    obtain ⟨q, hq, he⟩ := hlisted r hr d (hmem d hd) hp
    have hqp : q.parentCheckpointId = some d.checkpointId :=
      (hc q hq r hr he.symm).1.symm.trans hp
    obtain ⟨hlease, -, hfailed⟩ := hchild q hq d (hmem d hd) hqp
    refine ⟨q, ?_, he⟩
    rcases hsettled d hd with hs | hs
    · exact Gc.child_mem_plan hn hd hs hq hqp hlease
    · exact Gc.mem_plan_of_deletion hn hq (.inr (hfailed hs))
  · intro d hd q hq hqp hs
    exact (hchild q (hmem q hq) d (hmem d hd) hqp).2.2 hs
  · intro d hd hp
    refine (hsettled d hd).resolve_left ?_
    intro hs
    exact lt_irrefl _ ((hchild d (hmem d hd) d (hmem d hd) hp).2.1 hs hs)
  · refine Gc.plan_pairwise.imp_of_mem ?_
    intro d q hd hq hle hqp
    obtain ⟨hlease, hlater, hfailed⟩ := hchild q (hmem q hq) d (hmem d hd) hqp
    refine (hsettled q hq).resolve_left ?_
    intro hs
    rcases hsettled d hd with hds | hds
    · exact absurd (hlater hds hs) (not_lt.mpr (hle hlease.symm hds hs))
    · simp [hfailed hds] at hs
  · intro d hd image hi hb
    obtain ⟨hs, ha⟩ := hactive d (hmem d hd) image hi hb
    have hready : d.status = .ready := (hsettled d hd).resolve_right hs
    exact Gc.inactive_of_mem_plan hd hready hi (ha hready)

/-- No record is that of both. -/
def Distinct (t u : CreateTask) : Prop :=
  ∀ k ∈ u.create.checkpointId, t.create.checkpointId ≠ some k

theorem Distinct.symm {t u : CreateTask} (h : Distinct t u) : Distinct u t :=
  fun k hk hu => h k hu hk

/-- What holds in the runs that meet the condition. -/
structure Sound (s : CheckpointNode) : Prop where
  ids : (s.manager.checkpoints.map (·.checkpointId)).Nodup
  tracks : ∀ t ∈ s.creates, t.create.Tracks s.manager
  apart : Apart Distinct s.creates
  listed : ∀ t ∈ s.gcs, (t.phase.listing.map (·.checkpointId)).Nodup ∧
    Copies s.manager t.phase.listing
  doomed : ∀ t ∈ s.gcs, s.Doomed t.phase.items

/-- `load` by one file. -/
theorem nodup_load_step {loaded : List CheckpointRecord} (r : CheckpointRecord)
    (h : (loaded.map (·.checkpointId)).Nodup) :
    ((if loaded.any (·.checkpointId = r.checkpointId) then
        loaded.map fun q => if q.checkpointId = r.checkpointId then r else q
      else loaded ++ [r]).map (·.checkpointId)).Nodup := by
  split_ifs with hany
  · have hmap : (loaded.map fun q => if q.checkpointId = r.checkpointId then r else q).map
        (·.checkpointId) = loaded.map (·.checkpointId) := by
      rw [List.map_map]
      refine List.map_congr_left ?_
      intro q _
      simp only [Function.comp]
      split_ifs with he
      · exact he.symm
      · rfl
    rw [hmap]
    exact h
  · rw [List.map_append, List.map_singleton, List.nodup_append]
    refine ⟨h, List.nodup_singleton _, ?_⟩
    intro a ha b hb
    rw [List.mem_singleton.mp hb]
    obtain ⟨q, hq, rfl⟩ := List.mem_map.mp ha
    intro he
    exact hany (List.any_eq_true.mpr ⟨q, hq, by simpa using he⟩)

theorem nodup_load (records : List CheckpointRecord) :
    ((load records).map (·.checkpointId)).Nodup := by
  have hnil : (([] : List CheckpointRecord).map (·.checkpointId)).Nodup := List.nodup_nil
  refine List.foldlRecOn (motive := fun loaded : List CheckpointRecord =>
    (loaded.map (·.checkpointId)).Nodup) records _ hnil ?_
  exact fun loaded h r _ => nodup_load_step r h

theorem init_sound (maxInflight : Int) (records : List CheckpointRecord)
    (containers : List String) (images activeContainers : Dict String String) :
    (init maxInflight records containers images activeContainers).Sound :=
  ⟨nodup_load records, by simp [init], apart_nil, by simp [init], by simp [init]⟩

/-- A step that makes no record. -/
theorem Sound.evolves (h : s.Sound) (hm : Evolves s.manager s'.manager)
    (htracks : ∀ t ∈ s'.creates, t.create.Tracks s'.manager)
    (hapart : Apart Distinct s'.creates)
    (hb : ∀ d ∈ s.doomed, ∀ image ∈ d.checkpointImage, s'.Backs image → s.Backs image)
    (hg : ∀ t ∈ s'.gcs, t ∈ s.gcs ∨ ((t.phase.listing.map (·.checkpointId)).Nodup ∧
      Copies s'.manager t.phase.listing) ∧ s'.Doomed t.phase.items) : s'.Sound := by
  refine ⟨h.ids.sublist hm.ids, htracks, hapart, ?_, ?_⟩
  · intro t ht
    rcases hg t ht with ht | ht
    · exact ⟨(h.listed t ht).1, (h.listed t ht).2.evolves hm⟩
    · exact ht.1
  · intro t ht
    rcases hg t ht with ht | ht
    · refine (h.doomed t ht).evolves hm ?_
      exact fun d hd => hb d (List.mem_flatMap.mpr ⟨t, ht, hd⟩)
    · exact ht.2

theorem Sound.receiveCreate (h : s.Sound) {request : CreateRequest}
    (hn : s.next (.receiveCreate request) = some s') : s'.Sound := by
  simp only [next] at hn
  split at hn
  · cases hn
    exact h
  · rename_i image _
    split_ifs at hn
    · cases hn
      refine h.evolves .refl ?_ ?_ (fun _ _ _ _ hb => hb) fun t ht => .inl ht
      · intro t ht
        rcases List.mem_append.mp ht with ht | ht
        · exact h.tracks t ht
        · rw [List.mem_singleton.mp ht]
          exact ⟨fun _ => rfl, by simp [Create.start, CreatePhase.isOpen]⟩
      · exact h.apart.concat fun t _ =>
          ⟨by simp [Distinct, Create.start], by simp [Distinct, Create.start]⟩
    · cases hn
      exact h

/-- A step of one create, seen from all of them. -/
theorem Sound.set_create (h : s.Sound) {i : Nat} {t : CreateTask} {c : Create}
    {m : CheckpointManager} (htracks : c.Tracks m)
    (hframe : ∀ r ∈ m.checkpoints, c.checkpointId ≠ some r.checkpointId →
      r ∈ s.manager.checkpoints)
    (hapart : ∀ (j : Nat) (u : CreateTask), i ≠ j → s.creates[j]? = some u →
      Distinct { t with create := c } u) :
    (∀ u ∈ s.creates.set i { t with create := c }, u.create.Tracks m) ∧
      Apart Distinct (s.creates.set i { t with create := c }) := by
  refine ⟨?_, h.apart.set fun j u hij hu => ⟨hapart j u hij hu, (hapart j u hij hu).symm⟩⟩
  intro u hu
  rcases mem_set_cases hu with rfl | ⟨j, hij, hj⟩
  · exact htracks
  · refine (h.tracks u (List.mem_of_getElem? hj)).mono ?_
    exact fun r hr he => hframe r hr (hapart j u hij hj _ he)

theorem Sound.create (h : s.Sound) {i : Nat} {result : StepResult}
    (hn : s.next (.create i result) = some s') : s'.Sound := by
  simp only [next] at hn
  split at hn
  · cases hn
  · rename_i t hi
    obtain ⟨p, hp, rfl⟩ := Option.map_eq_some_iff.mp hn
    have hmoves := Create.moves_of_step hp
    have ht := h.tracks t (List.mem_of_getElem? hi)
    have hid := hmoves.ids.1
    obtain ⟨htracks, hapart⟩ := h.set_create (t := t) (i := i) (hmoves.tracks ht)
      (by rw [hid]; exact hmoves.frame.checkpoints) (by
        intro j u hij hu k hk
        rw [hid]
        exact h.apart i j t u hij hi hu k hk)
    exact h.evolves (hmoves.evolves ht) htracks hapart (fun _ _ _ _ hb => hb) fun t ht => .inl ht

/-- A container that is alive after a step of a rerun was so before, or runs an image that
no planned deletion is about. -/
theorem backs_of_rerun {i : Nat} {action : RerunAction} {t : RerunTask} {r : RerunState}
    (hc : s.Clear (.rerun i action)) (hi : s.reruns[i]? = some t)
    (hr : (s.rerunState t).next action = some r) {c image : String} (hmem : c ∈ r.containers)
    (hl : (s.rerunImages t action).lookup c = some image) :
    s.Backs image ∨ ∀ d ∈ s.doomed, d.checkpointImage ≠ some image := by
  obtain ⟨-, -, hcontainers⟩ := (RerunState.moves_of_next hr).node
  rcases hcontainers c hmem with hold | ⟨raised, record, rfl, hp⟩
  · unfold rerunImages at hl
    split at hl
    · rename_i record started raised hp
      rw [Dict.lookup_insert_ite] at hl
      split_ifs at hl
      · cases hl
        exact .inr (hc t hi record (by rw [hp]; rfl))
      · exact .inl ⟨c, hold, hl⟩
    · exact .inl ⟨c, hold, hl⟩
  · replace hp : t.phase = .creating record := hp
    simp only [rerunImages, hp, Dict.lookup_insert_ite, if_true] at hl
    cases hl
    exact .inr (hc t hi record (by rw [hp]; rfl))

theorem Sound.rerun (h : s.Sound) {i : Nat} {action : RerunAction}
    (hc : s.Clear (.rerun i action)) (hn : s.next (.rerun i action) = some s') :
    s'.Sound := by
  simp only [next] at hn
  split at hn
  · cases hn
  · rename_i t hi
    split_ifs at hn
    obtain ⟨r, hr, rfl⟩ := Option.map_eq_some_iff.mp hn
    obtain ⟨hm, hsub, hcontainers⟩ := (RerunState.moves_of_next hr).node
    refine h.evolves hm ?_ h.apart ?_ fun t ht => .inl ht
    · exact fun u hu => (h.tracks u hu).mono fun r hr _ => hsub r hr
    · intro d hd image himage hb
      obtain ⟨c, hmem, hl⟩ := hb
      exact (backs_of_rerun hc hi hr hmem hl).resolve_right fun hne => hne d hd himage

theorem Sound.keeps (h : s.Sound) (hm : s'.manager = s.manager) (hcreates : s'.creates = s.creates)
    (hgcs : s'.gcs = s.gcs) (hb : ∀ image, s'.Backs image → s.Backs image) : s'.Sound := by
  refine h.evolves (.of_checkpoints (by rw [hm])) ?_ (hcreates ▸ h.apart)
    (fun _ _ image _ => hb image) fun t ht => .inl (hgcs ▸ ht)
  rw [hcreates, hm]
  exact h.tracks

theorem Sound.record (h : s.Sound) {i : Nat} {checkpointId opId : String} {createdAt : Rat}
    {persisted : Bool} (hc : s.Clear (.record i checkpointId opId createdAt persisted))
    (hn : s.next (.record i checkpointId opId createdAt persisted) = some s') : s'.Sound := by
  simp only [next] at hn
  split at hn
  · cases hn
  · rename_i t hi
    split_ifs at hn with hfresh
    cases hn
    obtain ⟨hphase, hnew, -, hids, hlistings⟩ := hfresh
    have hclear := hc t hi
    have hold : ∀ records : List CheckpointRecord, (∀ q ∈ records, q.checkpointId ≠ checkpointId) →
        Copies s.manager records →
        Copies (t.create.record s.manager (t.request.newRecord t.image checkpointId createdAt) opId
          persisted).1 records := by
      intro records hne hcopies q hq r hr he
      rcases List.mem_append.mp hr with hr | hr
      · exact hcopies q hq r hr he
      · rw [List.mem_singleton.mp hr] at he
        exact absurd he.symm (hne q hq)
    have htracks : (t.create.record s.manager (t.request.newRecord t.image checkpointId createdAt)
        opId persisted).2.Tracks (t.create.record s.manager
          (t.request.newRecord t.image checkpointId createdAt) opId persisted).1 := by
      refine ⟨?_, ?_⟩
      · cases persisted <;> simp [Create.record, CheckpointManager.createCheckpoint, Except.isOk,
          Except.toBool, CreatePhase.isEarly]
      · intro _ k hk r hr he
        cases hk
        rcases List.mem_append.mp hr with hr | hr
        · exact absurd he (hnew r hr)
        · rw [List.mem_singleton.mp hr]
    obtain ⟨htracks, hapart⟩ := h.set_create (t := t) (i := i) htracks
      (by
        intro r hr hne
        rcases List.mem_append.mp hr with hr | hr
        · exact hr
        · rw [List.mem_singleton.mp hr] at hne
          exact absurd rfl hne)
      (by
        intro j u _ hu k hk he
        cases he
        exact (hids u (List.mem_of_getElem? hu)).1 hk)
    refine ⟨?_, htracks, hapart, ?_, ?_⟩
    · change ((s.manager.checkpoints ++ [_]).map _).Nodup
      rw [List.map_append, List.map_singleton, List.nodup_append]
      refine ⟨h.ids, List.nodup_singleton _, ?_⟩
      intro a ha b hb
      rw [List.mem_singleton.mp hb]
      obtain ⟨r, hr, rfl⟩ := List.mem_map.mp ha
      exact hnew r hr
    · intro u hu
      obtain ⟨hn, hcopies⟩ := h.listed u hu
      exact ⟨hn, hold _ (fun q hq => hlistings u hu q (List.mem_append_left _ hq)) hcopies⟩
    · intro u hu
      have hd := h.doomed u hu
      refine ⟨hold _ (fun q hq => hlistings u hu q (List.mem_append_right _ hq)) hd.copies, hd.ids,
        hd.settled, ?_, hd.failed, hd.own, hd.ordered, hd.unused⟩
      intro d hdu r hr hp
      rcases List.mem_append.mp hr with hr | hr
      · exact hd.children d hdu r hr hp
      · rw [List.mem_singleton.mp hr] at hp
        exact absurd rfl (hclear _ hp d (List.mem_flatMap.mpr ⟨u, hu, hdu⟩))

theorem Sound.deleteRecord (h : s.Sound) {checkpointId : String}
    (hn : s.next (.deleteRecord checkpointId) = some s') : s'.Sound := by
  simp only [next] at hn
  split at hn
  · cases hn
  · split_ifs at hn
    cases hn
    refine h.evolves .deleteCheckpoint ?_ h.apart (fun _ _ _ _ hb => hb) fun t ht => .inl ht
    exact fun t ht => (h.tracks t ht).mono fun r hr _ => List.mem_of_mem_filter hr

/-- A step of one collection, which may delete a record. -/
theorem Sound.set_gc (h : s.Sound) {j : Nat} {t : GcTask} {keys : List String}
    {m : CheckpointManager} (hm : Evolves s.manager m)
    (hsub : ∀ r ∈ m.checkpoints, r ∈ s.manager.checkpoints)
    (hlisting : (t.phase.listing.map (·.checkpointId)).Nodup ∧ Copies m t.phase.listing)
    (hitems : ({ s with manager := m } : CheckpointNode).Doomed t.phase.items) :
    ({ s with manager := m, gcs := s.gcs.set j t, gcTasksInflight := keys } :
      CheckpointNode).Sound := by
  refine h.evolves hm ?_ h.apart (fun _ _ _ _ hb => hb) ?_
  · exact fun u hu => (h.tracks u hu).mono fun r hr _ => hsub r hr
  · intro u hu
    rcases List.mem_or_eq_of_mem_set hu with hu | rfl
    · exact .inl hu
    · exact .inr ⟨hlisting, hitems.evolves .refl fun _ _ _ _ hb => hb⟩

theorem doomed_nil : s.Doomed [] := by
  refine ⟨?_, ?_, ?_, ?_, ?_, ?_, ?_, ?_⟩ <;> simp [Copies]

theorem Sound.startGc (h : s.Sound) {j : Nat} {t : GcTask} (hj : s.gcs[j]? = some t)
    (hphase : t.phase = .listed records) (hc : s.Plannable t.phase.listing) :
    (s.startGc j t records).Sound := by
  obtain ⟨hn, hcopies⟩ := h.listed t (List.mem_of_getElem? hj)
  rw [hphase] at hn hcopies hc
  simp only [CheckpointNode.startGc]
  split_ifs
  · exact h.set_gc .refl (fun _ hr => hr) ⟨List.nodup_nil, by simp [Copies, GcPhase.listing]⟩
      doomed_nil
  · exact h.set_gc .refl (fun _ hr => hr) ⟨List.nodup_nil, by simp [Copies, GcPhase.listing]⟩
      (doomed_plan hn hcopies hc t.keepLatest)

/-- The worker goes on, after it has deleted a record or not. -/
theorem Sound.continueGc (h : s.Sound) {j : Nat} {t : GcTask} {m : CheckpointManager}
    (hm : Evolves s.manager m) (hsub : ∀ r ∈ m.checkpoints, r ∈ s.manager.checkpoints)
    (hitems : items ≠ [] → ({ s with manager := m } : CheckpointNode).Doomed items) :
    (({ s with manager := m } : CheckpointNode).continueGc j t items).Sound := by
  simp only [CheckpointNode.continueGc]
  split_ifs with hnil
  · exact h.set_gc hm hsub ⟨List.nodup_nil, by simp [Copies, GcPhase.listing]⟩ doomed_nil
  · exact h.set_gc hm hsub ⟨List.nodup_nil, by simp [Copies, GcPhase.listing]⟩ (hitems hnil)

theorem Sound.next {a : NodeCheckpointAction} (h : s.Sound) (hc : s.Clear a)
    (hn : s.next a = some s') : s'.Sound := by
  cases a with
  | receiveCreate request => exact h.receiveCreate hn
  | record i checkpointId opId createdAt persisted => exact h.record hc hn
  | create i result => exact h.create hn
  | receiveRerun request =>
    cases hn
    exact h.keeps rfl rfl rfl fun _ hb => hb
  | rerun i action => exact h.rerun hc hn
  | register i =>
    simp only [CheckpointNode.next] at hn
    split at hn
    · cases hn
    · split at hn
      · cases hn
        exact h.keeps rfl rfl rfl fun _ hb => hb
      · cases hn
  | endContainer containerId =>
    cases hn
    refine h.keeps rfl rfl rfl ?_
    intro image hb
    obtain ⟨c, hmem, hl⟩ := hb
    exact ⟨c, List.mem_of_mem_filter hmem, hl⟩
  | deleteRecord checkpointId => exact h.deleteRecord hn
  | list leaseId keepLatest dryRun =>
    cases hn
    refine h.evolves .refl h.tracks h.apart (fun _ _ _ _ hb => hb) ?_
    intro t ht
    rcases List.mem_append.mp ht with ht | ht
    · exact .inl ht
    · rw [List.mem_singleton.mp ht]
      refine .inr ⟨⟨?_, ?_⟩, doomed_nil⟩
      · have hperm := List.perm_insertionSort (fun a b => a.sortKey ≤ b.sortKey)
          (s.manager.checkpoints.filter fun r => ∀ l ∈ leaseId, r.leaseId = l)
        exact (hperm.map _).nodup_iff.mpr (h.ids.sublist (List.filter_sublist.map _))
      · refine copies_of_subset h.ids ?_
        exact fun q hq => List.mem_of_mem_filter (Gc.mem_ascending.mp hq)
  | plan j =>
    simp only [CheckpointNode.next] at hn
    split at hn
    · cases hn
    · rename_i t hj
      split at hn
      · rename_i records hphase
        cases hn
        exact h.startGc hj hphase (hc t hj)
      · cases hn
  | removeArtifacts j raised =>
    simp only [CheckpointNode.next] at hn
    split at hn
    · cases hn
    · rename_i t hj
      split at hn
      · rename_i items hphase
        have hd := h.doomed t (List.mem_of_getElem? hj)
        rw [hphase] at hd
        split_ifs at hn
        · cases hn
          exact h.continueGc .refl (fun _ hr => hr) fun hnil => absurd rfl hnil
        · cases hn
          exact h.set_gc .refl (fun _ hr => hr)
            ⟨List.nodup_nil, by simp [Copies, GcPhase.listing]⟩ hd
      · cases hn
  | removeRecord j raised =>
    simp only [CheckpointNode.next] at hn
    split at hn
    · cases hn
    · rename_i t hj
      split at hn
      · rename_i item items hphase
        have hd := h.doomed t (List.mem_of_getElem? hj)
        rw [hphase] at hd
        cases hn
        refine h.continueGc .deleteCheckpoint (fun _ hr => List.mem_of_mem_filter hr) ?_
        split_ifs
        · exact fun hnil => absurd rfl hnil
        · exact fun _ => hd.tail
      · cases hn

theorem Sound.harmless {a : NodeCheckpointAction} (h : s.Sound) : s.Harmless a := by
  have hhead : ∀ j : Nat, ∀ t ∈ s.gcs[j]?, ∀ d ∈ t.phase.items.head?, ¬s.Needed d := by
    intro j t hj d hd
    have hdoomed := h.doomed t (List.mem_of_getElem? hj)
    obtain ⟨items, hitems⟩ := List.head?_eq_some_iff.mp hd
    rw [hitems] at hdoomed
    exact hdoomed.not_needed
  cases a with
  | removeArtifacts j raised => exact hhead j
  | removeRecord j raised => exact hhead j
  | _ => trivial

/-- In a run that meets the condition, no collection deletes what is needed. -/
theorem harmless_of_clear (maxInflight : Int) (records : List CheckpointRecord)
    (containers : List String) (images activeContainers : Dict String String)
    (run : List NodeCheckpointAction)
    (h : Meets next Clear (init maxInflight records containers images activeContainers) run) :
    Meets next Harmless (init maxInflight records containers images activeContainers) run :=
  Meets.of_invariant (fun _ _ _ hs hc hn => hs.next hc hn) (fun _ _ hs _ => hs.harmless)
    (init_sound maxInflight records containers images activeContainers) h

def savedRecord (checkpointId : String) (parentCheckpointId : Option String) (stepIdx : Int)
    (createdAt : Rat) : CheckpointRecord :=
  ⟨checkpointId, .legacy, "l", 0, "img", some (checkpointImageTag checkpointId),
    parentCheckpointId, stepIdx, createdAt, .ready⟩

/-- A node with one container and the given records. -/
def nodeOf (records : List CheckpointRecord) : CheckpointNode :=
  init 1 records ["c"] (AList.insert "c" "img" ∅) (AList.insert "c" "img" ∅)

/-- Of three checkpoints in a row the first is retained for the container that runs its
image, and the others are deleted, the latest first. -/
def collectingRun : List NodeCheckpointAction :=
  [.receiveRerun ⟨"a", some "c", "l"⟩, .rerun 0 .start, .rerun 0 (.create (some "n") false),
    .rerun 0 (.restore false), .rerun 0 (.destroyOld .removed), .register 0,
    .list (some "l") 0 false, .rerun 0 (.markUsed true), .plan 0, .removeArtifacts 0 false,
    .removeRecord 0 false, .removeArtifacts 0 false, .removeRecord 0 false]

theorem harmless_of_clear_collectingRun :
    Meets next Harmless
      (nodeOf [savedRecord "a" none 1 1, savedRecord "b" (some "a") 2 2,
        savedRecord "d" (some "b") 3 3]) collectingRun :=
  harmless_of_clear _ _ _ _ _ collectingRun (by decide)

def planned : List NodeCheckpointAction := [.list (some "l") 0 false, .plan 0]

/-- After the plan a checkpoint is made whose parent it deletes. -/
def lateChildRun : List NodeCheckpointAction :=
  planned ++ [.receiveCreate ⟨"l", 0, "c", 2, .legacy, some "a"⟩, .create 0 .ok, .create 0 .ok,
    .record 0 "b" "o" 2 true]

/-- After the plan a container is started from an image that it deletes. -/
def lateRerunRun : List NodeCheckpointAction :=
  planned ++ [.receiveRerun ⟨"a", some "c", "l"⟩, .rerun 0 .start,
    .rerun 0 (.create (some "n") false)]

/-- Also without other requests: a child with an earlier step than its parent is deleted
after it. -/
theorem harmless_fails :
    ¬Meets next Harmless (nodeOf [savedRecord "a" none 1 1])
        (lateChildRun ++ [.removeArtifacts 0 false]) ∧
      ¬Meets next Harmless (nodeOf [savedRecord "a" none 1 1])
        (lateRerunRun ++ [.removeArtifacts 0 false]) ∧
      ¬Meets next Harmless (nodeOf [savedRecord "a" none 1 1, savedRecord "b" (some "a") 0 2])
        (planned ++ [.removeArtifacts 0 false]) := by
  refine ⟨?_, ?_, ?_⟩
  · intro h
    refine h.mid rfl rfl _ rfl _ rfl (.inl ⟨_, List.mem_cons_of_mem _ (List.mem_cons_self ..),
      by decide, .single ?_⟩)
    exact ⟨_, List.mem_cons_of_mem _ (List.mem_cons_self ..), rfl, rfl⟩
  · intro h
    refine h.mid rfl rfl _ rfl _ rfl (.inr ⟨_, rfl, "n", ?_, rfl⟩)
    exact List.mem_cons_of_mem _ (List.mem_cons_self ..)
  · intro h
    refine h.mid rfl rfl _ rfl _ rfl (.inl ⟨_, List.mem_cons_of_mem _ (List.mem_cons_self ..),
      by decide, .single ?_⟩)
    exact ⟨_, List.mem_cons_of_mem _ (List.mem_cons_self ..), rfl, rfl⟩

end CheckpointNode

end Belayer.Exec
