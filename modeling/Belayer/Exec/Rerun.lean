import Belayer.Exec.CheckpointManager
import Belayer.Framework.Run

namespace Belayer.Exec

open Belayer.Framework

structure RerunRequest where
  checkpointId : String
  oldContainerId : Option String
  leaseId : String
  deriving DecidableEq

inductive RerunResponse where
  | ok (newContainerId : String)
  | failed (errorCode : String)
  deriving DecidableEq

/-- The answer to `docker rm -f`: the container is removed, there is none, or the call
raises, be it that docker has removed the container all the same. -/
inductive Removal where
  | removed
  | absent
  | raised (removed : Bool)
  deriving DecidableEq

/-- Where `container_rerun`, or `_full_checkpoint_rerun`, stands with the record it has
read and the container it has created. -/
inductive RerunPhase where
  | received
  | creating (record : CheckpointRecord)
  | restoring (record : CheckpointRecord) (newContainerId : String)
  | destroying (record : CheckpointRecord) (newContainerId : String)
  | marking (record : CheckpointRecord) (newContainerId : String)
  | cleaning (record : CheckpointRecord) (newContainerId : Option String)
  | done (response : RerunResponse)
  deriving DecidableEq

structure RerunState where
  request : RerunRequest
  manager : CheckpointManager
  containers : List String
  phase : RerunPhase
  deriving DecidableEq

inductive RerunAction where
  | start
  | create (started : Option String) (raised : Bool)
  | restore (raised : Bool)
  | destroyOld (removal : Removal)
  | markUsed (persisted : Bool)
  | cleanUp (removal : Removal)
  | deleteRecord (checkpointId : String)
  deriving DecidableEq

namespace Removal

/-- The containers that are left; `none` when docker cannot answer so. -/
def apply (containers : List String) (containerId : String) : Removal → Option (List String)
  | .removed | .raised true => some (containers.filter (· ≠ containerId))
  | .absent => if containerId ∈ containers then none else some containers
  | .raised false => some containers

def isRaised : Removal → Bool
  | .raised _ => true
  | _ => false

end Removal

namespace RerunState

def init (request : RerunRequest) (manager : CheckpointManager) (containers : List String) :
    RerunState :=
  ⟨request, manager, containers, .received⟩

def errorCode (record : CheckpointRecord) : String :=
  match record.checkpointBackend with
  | .legacy => "rerun_failed"
  | .full => "full_rerun_failed"

/-- The checks of the handler. -/
def start (s : RerunState) : RerunPhase :=
  match s.manager.getCheckpoint s.request.checkpointId with
  | none => .done (.failed "checkpoint_not_found")
  | some record =>
    if record.status ≠ .ready then .done (.failed "checkpoint_not_ready")
    else if s.request.leaseId ≠ "" ∧ record.leaseId ≠ "" ∧ s.request.leaseId ≠ record.leaseId then
      .done (.failed "checkpoint_lease_mismatch")
    else if record.checkpointBackend = .full ∧ record.image = "" then
      .done (.failed (errorCode record))
    else .creating record

/-- An exception before the handler knows the new container: the image backend leaves
it at that, the full backend removes what may stand under the target's name. -/
def createRaised (record : CheckpointRecord) (started : Option String) : RerunPhase :=
  match record.checkpointBackend with
  | .legacy => .done (.failed (errorCode record))
  | .full => .cleaning record started

/-- A container that docker starts has an id that no container has or had. -/
def Fresh (s : RerunState) (containerId : String) : Prop :=
  containerId ∉ s.containers ∧ s.request.oldContainerId ≠ some containerId

instance (s : RerunState) (containerId : String) : Decidable (s.Fresh containerId) :=
  inferInstanceAs (Decidable (_ ∧ _))

/-- After the new container is checked, the old one is removed if there is one. -/
def afterRestore (s : RerunState) (record : CheckpointRecord) (newContainerId : String) :
    RerunPhase :=
  if s.request.oldContainerId.isSome then .destroying record newContainerId
  else .marking record newContainerId

def next (s : RerunState) : RerunAction → Option RerunState
  | .start =>
    match s.phase with
    | .received => some { s with phase := s.start }
    | _ => none
  | .create started raised =>
    match s.phase with
    | .creating record =>
      if ∀ c ∈ started, s.Fresh c then
        let containers := s.containers ++ started.toList
        if raised then
          some { s with containers := containers, phase := createRaised record started }
        else started.map fun c =>
          { s with containers := containers, phase := .restoring record c }
      else none
    | _ => none
  | .restore raised =>
    match s.phase with
    | .restoring record c =>
      some { s with
        phase := if raised then .cleaning record (some c) else s.afterRestore record c }
    | _ => none
  | .destroyOld removal =>
    match s.phase, s.request.oldContainerId with
    | .destroying record c, some old =>
      (removal.apply s.containers old).map fun containers =>
        { s with
          containers := containers
          phase := if removal.isRaised then .cleaning record (some c) else .marking record c }
    | _, _ => none
  | .markUsed persisted =>
    match s.phase with
    | .marking record c =>
      let marked := s.manager.markUsed s.request.checkpointId persisted
      some { s with
        manager := marked.1
        phase := if marked.2.isOk then .done (.ok c) else .cleaning record (some c) }
    | _ => none
  | .cleanUp removal =>
    match s.phase with
    | .cleaning record c =>
      match c with
      | none => some { s with phase := .done (.failed (errorCode record)) }
      | some c =>
        (removal.apply s.containers c).map fun containers =>
          { s with containers := containers, phase := .done (.failed (errorCode record)) }
    | _ => none
  | .deleteRecord checkpointId =>
    match s.manager.getCheckpoint checkpointId with
    | none => none
    | some record =>
      if record.status = .pending then none
      else some { s with manager := s.manager.deleteCheckpoint checkpointId }

end RerunState

namespace RerunPhase

/-- The container that the handler has created and knows. -/
def newContainer? : RerunPhase → Option String
  | .received | .creating _ | .done (.failed _) => none
  | .restoring _ c | .destroying _ c | .marking _ c | .done (.ok c) => some c
  | .cleaning _ c => c

def isCleaning : RerunPhase → Bool
  | .cleaning _ _ => true
  | _ => false

/-- The old container has been removed, and nothing has gone wrong. -/
def isPastRemoval : RerunPhase → Bool
  | .marking _ _ | .done (.ok _) => true
  | _ => false

def isFailed : RerunPhase → Bool
  | .done (.failed _) => true
  | _ => false

def isDone : RerunPhase → Bool
  | .done _ => true
  | _ => false

end RerunPhase

namespace RerunState

/-- Of the `containers` there were, the old one is still there when the handler reports
failure, and is not gone without a new one. -/
def Kept (containers : List String) (s : RerunState) : Prop :=
  ∀ old ∈ s.request.oldContainerId, old ∈ containers →
    (s.phase.isFailed → old ∈ s.containers) ∧
      (old ∈ s.containers ∨ ∃ c ∈ s.phase.newContainer?, c ∈ s.containers)

instance (containers : List String) (s : RerunState) : Decidable (s.Kept containers) :=
  inferInstanceAs (Decidable (∀ old ∈ s.request.oldContainerId, old ∈ containers → _ ∧ _))

/-- The condition on a step: no call raises that has removed the old container, and the
record can be marked as used once that is removed. -/
def Compensable (containers : List String) (s : RerunState) : RerunAction → Prop
  | .destroyOld removal =>
    removal = .raised true → ∀ old ∈ s.request.oldContainerId, old ∉ s.containers
  | .markUsed persisted =>
    (∃ old ∈ s.request.oldContainerId, old ∈ containers) →
      (s.manager.getCheckpoint s.request.checkpointId).isSome ∧ persisted
  | _ => True

instance (containers : List String) (s : RerunState) :
    (a : RerunAction) → Decidable (s.Compensable containers a)
  | .destroyOld removal =>
    inferInstanceAs (Decidable
      (removal = .raised true → ∀ old ∈ s.request.oldContainerId, old ∉ s.containers))
  | .markUsed persisted =>
    inferInstanceAs (Decidable
      ((∃ old ∈ s.request.oldContainerId, old ∈ containers) →
        (s.manager.getCheckpoint s.request.checkpointId).isSome ∧ persisted))
  | .start | .create _ _ | .restore _ | .cleanUp _ | .deleteRecord _ => .isTrue trivial

/-- What holds in every run. -/
structure Base (containers : List String) (s : RerunState) : Prop where
  origin : ∀ old ∈ s.request.oldContainerId, old ∈ s.containers → old ∈ containers
  gone : ∀ record c, s.phase = .marking record c →
    ∀ old ∈ s.request.oldContainerId, old ∉ s.containers
  fresh : ∀ c ∈ s.phase.newContainer?, s.request.oldContainerId ≠ some c

/-- What holds in the runs that meet the condition. -/
structure Inv (containers : List String) (s : RerunState) : Prop where
  base : s.Base containers
  alive : ∀ c ∈ s.phase.newContainer?, s.phase.isCleaning = false → c ∈ s.containers
  kept : ∀ old ∈ s.request.oldContainerId, old ∈ containers →
    s.phase.isPastRemoval = false → old ∈ s.containers

variable {containers : List String} {s s' : RerunState}

theorem init_inv (request : RerunRequest) (manager : CheckpointManager)
    (containers : List String) : (init request manager containers).Inv containers :=
  ⟨⟨fun _ _ h => h, by simp [init], by simp [init, RerunPhase.newContainer?]⟩,
    by simp [init, RerunPhase.newContainer?], fun _ _ h _ => h⟩

theorem Inv.keeps (h : s.Inv containers) : s.Kept containers := by
  intro old hold hc
  refine ⟨?_, ?_⟩
  · intro hf
    refine h.kept old hold hc ?_
    cases hp : s.phase with
    | done r => cases r <;> simp_all [RerunPhase.isFailed, RerunPhase.isPastRemoval]
    | marking record c => simp [hp, RerunPhase.isFailed] at hf
    | _ => rfl
  · by_cases hp : s.phase.isPastRemoval = true
    · right
      cases hphase : s.phase with
      | marking record c =>
        have ha := h.alive c (by rw [hphase]; rfl) (by rw [hphase]; rfl)
        exact ⟨c, rfl, ha⟩
      | done r =>
        cases r with
        | ok c =>
          have ha := h.alive c (by rw [hphase]; rfl) (by rw [hphase]; rfl)
          exact ⟨c, rfl, ha⟩
        | failed code => simp [hphase, RerunPhase.isPastRemoval] at hp
      | _ => simp [hphase, RerunPhase.isPastRemoval] at hp
    · exact .inl (h.kept old hold hc (by simpa using hp))

/-- What a step can do. -/
inductive Moves (s : RerunState) : RerunAction → RerunState → Prop where
  | starts (hp : s.phase = .received) : Moves s .start { s with phase := s.start }
  | createRaises {record : CheckpointRecord} {started : Option String}
      (hp : s.phase = .creating record) (hfresh : ∀ c ∈ started, s.Fresh c) :
      Moves s (.create started true)
        { s with
          containers := s.containers ++ started.toList
          phase := createRaised record started }
  | creates {record : CheckpointRecord} {c : String}
      (hp : s.phase = .creating record) (hfresh : s.Fresh c) :
      Moves s (.create (some c) false)
        { s with containers := s.containers ++ [c], phase := .restoring record c }
  | restoreRaises {record : CheckpointRecord} {c : String} (hp : s.phase = .restoring record c) :
      Moves s (.restore true) { s with phase := .cleaning record (some c) }
  | restores {record : CheckpointRecord} {c : String} (hp : s.phase = .restoring record c) :
      Moves s (.restore false) { s with phase := s.afterRestore record c }
  | removalRaises {record : CheckpointRecord} {c old : String} {removed : Bool}
      {containers : List String} (hp : s.phase = .destroying record c)
      (hold : s.request.oldContainerId = some old)
      (happly : (Removal.raised removed).apply s.containers old = some containers) :
      Moves s (.destroyOld (.raised removed))
        { s with containers := containers, phase := .cleaning record (some c) }
  | removes {record : CheckpointRecord} {c old : String} {removal : Removal}
      {containers : List String} (hp : s.phase = .destroying record c)
      (hold : s.request.oldContainerId = some old)
      (happly : removal.apply s.containers old = some containers)
      (hraised : removal.isRaised = false) :
      Moves s (.destroyOld removal)
        { s with containers := containers, phase := .marking record c }
  | marks {record : CheckpointRecord} {c : String} {persisted : Bool}
      (hp : s.phase = .marking record c)
      (hok : (s.manager.markUsed s.request.checkpointId persisted).2.isOk) :
      Moves s (.markUsed persisted)
        { s with
          manager := (s.manager.markUsed s.request.checkpointId persisted).1
          phase := .done (.ok c) }
  | markRaises {record : CheckpointRecord} {c : String} {persisted : Bool}
      (hp : s.phase = .marking record c)
      (hok : ¬(s.manager.markUsed s.request.checkpointId persisted).2.isOk) :
      Moves s (.markUsed persisted)
        { s with
          manager := (s.manager.markUsed s.request.checkpointId persisted).1
          phase := .cleaning record (some c) }
  | cleansNothing {record : CheckpointRecord} {removal : Removal}
      (hp : s.phase = .cleaning record none) :
      Moves s (.cleanUp removal) { s with phase := .done (.failed (errorCode record)) }
  | cleans {record : CheckpointRecord} {c : String} {removal : Removal}
      {containers : List String} (hp : s.phase = .cleaning record (some c))
      (happly : removal.apply s.containers c = some containers) :
      Moves s (.cleanUp removal)
        { s with containers := containers, phase := .done (.failed (errorCode record)) }
  | deletes {checkpointId : String} :
      Moves s (.deleteRecord checkpointId)
        { s with manager := s.manager.deleteCheckpoint checkpointId }

theorem moves_of_next {a : RerunAction} (h : s.next a = some s') : s.Moves a s' := by
  cases a with
  | start =>
    simp only [next] at h
    split at h
    · rename_i hp
      cases h
      exact .starts hp
    · cases h
  | create started raised =>
    simp only [next] at h
    split at h
    · rename_i record hp
      split_ifs at h with hfresh hraised
      · cases h
        cases raised
        · cases hraised
        · exact .createRaises hp hfresh
      · cases raised
        · obtain ⟨c, rfl, rfl⟩ := Option.map_eq_some_iff.mp h
          exact .creates hp (hfresh c rfl)
        · exact absurd rfl hraised
    · cases h
  | restore raised =>
    simp only [next] at h
    split at h
    · rename_i record c hp
      cases h
      cases raised
      · exact .restores hp
      · exact .restoreRaises hp
    · cases h
  | destroyOld removal =>
    simp only [next] at h
    split at h
    · rename_i record c old hp hold
      obtain ⟨containers, happly, rfl⟩ := Option.map_eq_some_iff.mp h
      cases hraised : removal.isRaised
      · exact .removes hp hold happly hraised
      · cases removal with
        | raised removed => exact .removalRaises hp hold happly
        | _ => cases hraised
    · cases h
  | markUsed persisted =>
    simp only [next] at h
    split at h
    · rename_i record c hp
      cases h
      split_ifs with hok
      · exact .marks hp hok
      · exact .markRaises hp hok
    · cases h
  | cleanUp removal =>
    simp only [next] at h
    split at h
    · rename_i record c hp
      cases c with
      | none =>
        cases h
        exact .cleansNothing hp
      | some c =>
        obtain ⟨containers, happly, rfl⟩ := Option.map_eq_some_iff.mp h
        exact .cleans hp happly
    · cases h
  | deleteRecord checkpointId =>
    simp only [next] at h
    split at h
    · cases h
    · split_ifs at h
      cases h
      exact .deletes

/-- The handler's checks remove nothing and know no new container. -/
theorem start_newContainer? (s : RerunState) : s.start.newContainer? = none := by
  unfold start
  split
  · rfl
  · split_ifs <;> rfl

theorem start_isPastRemoval (s : RerunState) : s.start.isPastRemoval = false := by
  unfold start
  split
  · rfl
  · split_ifs <;> rfl

/-- A removal takes away no other container than the one it is about. -/
theorem mem_of_apply {removal : Removal} {before after : List String} {c d : String}
    (h : removal.apply before c = some after) :
    (d ∈ after → d ∈ before) ∧ (d ∈ before → d ≠ c → d ∈ after) := by
  cases removal with
  | removed =>
    cases h
    simp +contextual
  | absent =>
    simp only [Removal.apply] at h
    split_ifs at h
    cases h
    exact ⟨id, fun hd _ => hd⟩
  | raised removed =>
    cases removed
    · cases h
      exact ⟨id, fun hd _ => hd⟩
    · cases h
      simp +contextual

/-- A removal that does not raise leaves no such container. -/
theorem not_mem_of_apply {removal : Removal} {before after : List String} {c : String}
    (h : removal.apply before c = some after) (hr : removal.isRaised = false) : c ∉ after := by
  cases removal with
  | removed =>
    cases h
    simp
  | absent =>
    simp only [Removal.apply] at h
    split_ifs at h with hc
    cases h
    exact hc
  | raised removed => cases hr

theorem createRaised_newContainer? (record : CheckpointRecord) (started : Option String) :
    ∀ c ∈ (createRaised record started).newContainer?, c ∈ started := by
  cases h : record.checkpointBackend <;> simp [createRaised, h, RerunPhase.newContainer?]

theorem createRaised_isPastRemoval (record : CheckpointRecord) (started : Option String) :
    (createRaised record started).isPastRemoval = false := by
  cases h : record.checkpointBackend <;> simp [createRaised, h, RerunPhase.isPastRemoval]

theorem afterRestore_newContainer? (s : RerunState) (record : CheckpointRecord) (c : String) :
    (s.afterRestore record c).newContainer? = some c := by
  unfold afterRestore
  split_ifs <;> rfl

/-- A container that docker starts is not the old one. -/
theorem origin_append {started : Option String} (hf : ∀ c ∈ started, s.Fresh c)
    (horigin : ∀ old ∈ s.request.oldContainerId, old ∈ s.containers → old ∈ containers) :
    ∀ old ∈ s.request.oldContainerId, old ∈ s.containers ++ started.toList →
      old ∈ containers := by
  intro old ho hm
  rcases List.mem_append.mp hm with hm | hm
  · exact horigin old ho hm
  · exact absurd ho (hf old (by simpa using hm)).2

theorem Base.moves {a : RerunAction} (h : s.Base containers) (hm : s.Moves a s') :
    s'.Base containers := by
  obtain ⟨horigin, hgone, hfresh⟩ := h
  cases hm with
  | starts hp =>
    refine ⟨horigin, ?_, by simp [start_newContainer?]⟩
    intro record c he
    have hn := start_isPastRemoval s
    rw [show s.start = .marking record c from he] at hn
    cases hn
  | createRaises hp hf =>
    rename_i record started
    refine ⟨origin_append hf horigin, ?_, ?_⟩
    · intro r c he
      have hn := createRaised_isPastRemoval record started
      rw [show createRaised record started = .marking r c from he] at hn
      cases hn
    · intro c hc
      exact (hf c (createRaised_newContainer? record started c hc)).2
  | creates hp hf =>
    rename_i record c
    have hone : ∀ d ∈ some c, s.Fresh d := by
      intro d hd
      cases hd
      exact hf
    refine ⟨origin_append hone horigin, by simp, ?_⟩
    intro d hd
    exact (hone d hd).2
  | restoreRaises hp =>
    rw [hp] at hfresh
    exact ⟨horigin, by simp, hfresh⟩
  | restores hp =>
    rename_i record c
    rw [hp] at hfresh
    refine ⟨horigin, ?_, ?_⟩
    · intro r d he old ho
      have hsome : s.request.oldContainerId = some old := ho
      simp [afterRestore, hsome] at he
    · intro d hd
      rw [afterRestore_newContainer?] at hd
      exact hfresh d hd
  | removalRaises hp hold happly =>
    rw [hp] at hfresh
    exact ⟨fun old ho hm => horigin old ho ((mem_of_apply happly).1 hm), by simp, hfresh⟩
  | removes hp hold happly hraised =>
    rw [hp] at hfresh
    refine ⟨fun old ho hm => horigin old ho ((mem_of_apply happly).1 hm), ?_, hfresh⟩
    intro r d he old ho
    rw [Option.mem_unique ho hold]
    exact not_mem_of_apply happly hraised
  | marks hp hok =>
    rw [hp] at hfresh
    exact ⟨horigin, by simp, hfresh⟩
  | markRaises hp hok =>
    rw [hp] at hfresh
    exact ⟨horigin, by simp, hfresh⟩
  | cleansNothing hp => exact ⟨horigin, by simp, by simp [RerunPhase.newContainer?]⟩
  | cleans hp happly =>
    exact ⟨fun old ho hm => horigin old ho ((mem_of_apply happly).1 hm), by simp,
      by simp [RerunPhase.newContainer?]⟩
  | deletes => exact ⟨horigin, hgone, hfresh⟩

theorem Inv.moves {a : RerunAction} (h : s.Inv containers) (hc : s.Compensable containers a)
    (hm : s.Moves a s') : s'.Inv containers := by
  obtain ⟨hbase, halive, hkept⟩ := h
  refine ⟨hbase.moves hm, ?_, ?_⟩
  · cases hm with
    | starts hp => simp [start_newContainer?]
    | createRaises hp hf =>
      rename_i record started
      intro c hn _
      have hm := createRaised_newContainer? record started c hn
      exact List.mem_append_right _ (by simpa using hm)
    | creates hp hf => simp [RerunPhase.newContainer?]
    | restoreRaises hp => simp [RerunPhase.isCleaning]
    | restores hp =>
      intro d hd _
      rw [afterRestore_newContainer?] at hd
      rw [hp] at halive
      exact halive d hd rfl
    | removalRaises hp hold happly => simp [RerunPhase.isCleaning]
    | removes hp hold happly hraised =>
      intro d hd _
      rw [hp] at halive
      refine (mem_of_apply happly).2 (halive d hd rfl) ?_
      have hfresh := hbase.fresh d (by rw [hp]; exact hd)
      intro he
      exact hfresh (he ▸ hold)
    | marks hp hok =>
      rw [hp] at halive
      exact halive
    | markRaises hp hok => simp [RerunPhase.isCleaning]
    | cleansNothing hp => simp [RerunPhase.newContainer?]
    | cleans hp happly => simp [RerunPhase.newContainer?]
    | deletes => exact halive
  · intro old ho hc₀ hpast
    cases hm with
    | starts hp => exact hkept old ho hc₀ (by rw [hp]; rfl)
    | createRaises hp hf =>
      exact List.mem_append_left _ (hkept old ho hc₀ (by rw [hp]; rfl))
    | creates hp hf => exact List.mem_append_left _ (hkept old ho hc₀ (by rw [hp]; rfl))
    | restoreRaises hp => exact hkept old ho hc₀ (by rw [hp]; rfl)
    | restores hp => exact hkept old ho hc₀ (by rw [hp]; rfl)
    | removalRaises hp hold happly =>
      rename_i record c old' removed after
      have hm := hkept old ho hc₀ (by rw [hp]; rfl)
      cases removed
      · cases happly
        exact hm
      · exact absurd hm (hc rfl old ho)
    | removes hp hold happly hraised => cases hpast
    | marks hp hok => cases hpast
    | markRaises hp hok =>
      exact absurd ((CheckpointManager.updateCheckpoint_isOk _ _ _ _).mpr (hc ⟨old, ho, hc₀⟩)) hok
    | cleansNothing hp => exact hkept old ho hc₀ (by rw [hp]; rfl)
    | cleans hp happly =>
      refine (mem_of_apply happly).2 (hkept old ho hc₀ (by rw [hp]; rfl)) ?_
      intro he
      exact hbase.fresh _ (by rw [hp]; rfl) (he ▸ ho)
    | deletes => exact hkept old ho hc₀ hpast

/-- The old container is gone for good, and the handler is on its way to a failure. -/
def Doomed (containers : List String) (s : RerunState) : Prop :=
  (∃ old ∈ s.request.oldContainerId, old ∈ containers ∧ old ∉ s.containers) ∧
    (s.phase.isCleaning ∨ s.phase.isFailed)

theorem Doomed.moves {a : RerunAction} (h : s.Doomed containers) (hm : s.Moves a s') :
    s'.Doomed containers := by
  obtain ⟨⟨old, ho, hc, hn⟩, hphase⟩ := h
  cases hm with
  | cleansNothing hp => exact ⟨⟨old, ho, hc, hn⟩, .inr rfl⟩
  | cleans hp happly =>
    exact ⟨⟨old, ho, hc, fun hm => hn ((mem_of_apply happly).1 hm)⟩, .inr rfl⟩
  | deletes => exact ⟨⟨old, ho, hc, hn⟩, hphase⟩
  | _ => simp_all [RerunPhase.isCleaning, RerunPhase.isFailed]

/-- A step that does not meet the condition dooms the rerun. -/
theorem Base.doomed {a : RerunAction} (h : s.Base containers)
    (hc : ¬s.Compensable containers a) (hm : s.Moves a s') : s'.Doomed containers := by
  cases hm with
  | removalRaises hp hold happly =>
    rename_i record c old removed after
    simp only [Compensable, not_forall] at hc
    obtain ⟨hr, old', ho', hin⟩ := hc
    have hin : old' ∈ s.containers := not_not.mp hin
    cases hr
    cases happly
    refine ⟨⟨old', ho', h.origin old' ho' hin, ?_⟩, .inl rfl⟩
    rw [Option.mem_unique ho' hold]
    simp
  | removes hp hold happly hraised =>
    simp only [Compensable, not_forall] at hc
    obtain ⟨hr, -⟩ := hc
    rw [hr] at hraised
    cases hraised
  | marks hp hok =>
    simp only [Compensable, not_forall] at hc
    obtain ⟨-, hc⟩ := hc
    exact absurd ((CheckpointManager.updateCheckpoint_isOk _ _ _ _).mp hok) hc
  | markRaises hp hok =>
    simp only [Compensable, not_forall] at hc
    obtain ⟨⟨old, ho, hold⟩, -⟩ := hc
    exact ⟨⟨old, ho, hold, h.gone _ _ hp old ho⟩, .inl rfl⟩
  | _ => exact absurd trivial hc

/-- In every run that meets the condition the lease keeps a container, and the old one
when the handler reports failure. A run that does not meet it has lost the old
container once the handler has answered. -/
theorem keeps_container (request : RerunRequest) (manager : CheckpointManager)
    (containers : List String) (run : List RerunAction) :
    (Meets next (Compensable containers) (init request manager containers) run →
      Along next (Kept containers) (init request manager containers) run) ∧
    ∀ s, exec next (init request manager containers) run = some s → s.phase.isDone →
      s.Kept containers →
      Meets next (Compensable containers) (init request manager containers) run := by
  have hinit := init_inv request manager containers
  refine ⟨?_, ?_⟩
  · intro h
    exact (along_of_meets (fun _ _ _ hs hc hn => hs.moves hc (moves_of_next hn)) hinit h).mono
      fun _ hs => hs.keeps
  · intro s hs hdone hkept
    by_contra hv
    have hd : s.Doomed containers :=
      exec_doomed (H := fun _ _ => True) (fun _ _ _ hb hn => hb.moves (moves_of_next hn))
        (fun _ _ _ hb hc hn => hb.doomed hc (moves_of_next hn))
        (fun _ _ _ _ hd _ hn => hd.moves (moves_of_next hn))
        hinit.base (.inr hv) (meets_of_forall (fun _ _ => trivial) _ _) hs
    obtain ⟨⟨old, ho, hold, hn⟩, hphase⟩ := hd
    have hf : s.phase.isFailed := by
      refine hphase.resolve_left ?_
      intro hc
      cases hp : s.phase <;> simp_all [RerunPhase.isDone, RerunPhase.isCleaning]
    exact hn ((hkept old ho hold).1 hf)

/-- A ready checkpoint of the image backend and one of the full backend. -/
def readyRecord (checkpointBackend : CheckpointBackend) : CheckpointRecord :=
  ⟨"k", checkpointBackend, "l", 0, "img", none, none, 0, 0, .ready⟩

def rerunInit (checkpointBackend : CheckpointBackend) : RerunState :=
  init ⟨"k", some "old", "l"⟩ (.init 12 [readyRecord checkpointBackend]) ["old"]

/-- The check of the new container fails; then the record is deleted. -/
def failingRun : List RerunAction :=
  [.start, .create (some "new") false, .restore true, .deleteRecord "k", .cleanUp .removed]

theorem keeps_container_failingRun :
    Meets next (Compensable ["old"]) (rerunInit .full) failingRun ∧
      Along next (Kept ["old"]) (rerunInit .full) failingRun :=
  ⟨by decide, (keeps_container _ _ _ failingRun).1 (by decide)⟩

/-- The record is deleted while the old container is being removed. -/
def deletedRun : List RerunAction :=
  [.start, .create (some "new") false, .restore false, .deleteRecord "k", .destroyOld .removed,
    .markUsed true, .cleanUp .removed]

/-- The removal of the old container times out, but docker carries it out. -/
def timedOutRun : List RerunAction :=
  [.start, .create (some "new") false, .restore false, .destroyOld (.raised true),
    .cleanUp .removed]

theorem keeps_container_fails :
    ¬Along next (Kept ["old"]) (rerunInit .legacy) deletedRun ∧
      ¬Along next (Kept ["old"]) (rerunInit .full) deletedRun ∧
      ¬Along next (Kept ["old"]) (rerunInit .legacy) timedOutRun := by
  refine ⟨?_, ?_, ?_⟩ <;> intro h <;> exact absurd (h.last rfl) (by decide)

end RerunState

end Belayer.Exec
