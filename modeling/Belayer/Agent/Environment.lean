import Belayer.Agent.Rollback
import Belayer.Framework.Dict

namespace Belayer.Agent

open Belayer.Framework

variable {ε : Type*}

/-- What the pool has: for each open lease what the calls have done to its container, none when
the container is lost, and the checkpoints. -/
structure PoolView (ε : Type*) where
  leases : Dict String (Option (List ε))
  checkpoints : Dict String (List ε)

namespace PoolView

/-- A call does something to the container of a lease. -/
def perform (v : PoolView ε) (leaseId : String) (effect : ε) : PoolView ε :=
  match v.leases.lookup leaseId with
  | some (some content) =>
    { v with leases := AList.insert leaseId (some (content ++ [effect])) v.leases }
  | _ => v

def lose (v : PoolView ε) (leaseId : String) : PoolView ε :=
  if leaseId ∈ v.leases then { v with leases := AList.insert leaseId none v.leases } else v

def save (v : PoolView ε) (leaseId checkpointId : String) : Option (PoolView ε) :=
  match v.leases.lookup leaseId with
  | some (some content) =>
    some { v with checkpoints := AList.insert checkpointId content v.checkpoints }
  | _ => none

/-- The lease gets a container with the content of a checkpoint. -/
def restore (v : PoolView ε) (leaseId : String) (checkpointId : Option String) :
    Option (PoolView ε) :=
  match checkpointId.bind v.checkpoints.lookup, v.leases.lookup leaseId with
  | some content, some _ =>
    some { v with leases := AList.insert leaseId (some content) v.leases }
  | _, _ => none

def close (v : PoolView ε) (leaseId : String) : PoolView ε :=
  { v with leases := AList.erase leaseId v.leases }

/-- What the pool does in a call of the agent. `unseen` says that it is not what the reply tells: a
call that fails has been served, the container of a command is lost and no fault is reported. A
lease answers a heartbeat as long as it is open. -/
def serve (v : PoolView ε) (s : AgentRun ε) (unseen : Bool) : AgentAction ε → Option (PoolView ε)
  | .heartbeat none => if s.leaseId ∈ v.leases then some v else none
  | .exec (.returned _ _ _ effect) | .exec (.raised _ effect) =>
    some (if unseen then v.lose s.leaseId else v.perform s.leaseId effect)
  | .exec (.faultInjected _) => some (v.lose s.leaseId)
  | .checkpoint (.created checkpointId _) => v.save s.leaseId checkpointId
  | .rerun (.ok true) => v.restore s.leaseId s.checkpointState.latestReadyCheckpointId
  | .rerun (.ok false) | .rerun (.error _) =>
    if unseen then v.restore s.leaseId s.checkpointState.latestReadyCheckpointId else some v
  | .close none => some (v.close s.leaseId)
  | .close (some _) => some (if unseen then v.close s.leaseId else v)
  | .allocate (.ok leaseId) =>
    if leaseId ∈ v.leases then none
    else some { v with leases := AList.insert leaseId (some []) v.leases }
  | _ => some v

end PoolView

structure AgentWorld (ε : Type*) where
  run : AgentRun ε
  pool : PoolView ε

namespace AgentWorld

open Timeline (eagerParams)

def begin (p : AgentParams) (leaseId : String) : AgentWorld ε :=
  ⟨p.begin leaseId, ⟨AList.singleton leaseId (some []), ∅⟩⟩

def next (p : AgentParams) (w : AgentWorld ε) (a : AgentAction ε × Bool) : Option (AgentWorld ε) :=
  (w.run.step p a.1).bind fun s => (w.pool.serve w.run a.2 a.1).map fun v => ⟨s, v⟩

/-- The model is asked. -/
def context? (w : AgentWorld ε) : Option (List Message) :=
  match w.run.phase with
  | .waiting context _ | .checkpointing context _ _ => some context
  | _ => none

/-- The container of the lease in use holds what the recorded steps have done to it. -/
def Live (w : AgentWorld ε) : Prop :=
  ∃ content, w.pool.leases.lookup w.run.leaseId = some (some content) ∧
    w.run.trajectory.stepDebug.map (·.effect?) = content.map some

/-- The next step can only raise out of the run. -/
def Stops (p : AgentParams) (w : AgentWorld ε) : Prop :=
  ∀ a w', next p w a = some w' →
    w'.run.phase = .cancelled ∨ ∃ error, w'.run.phase = .raised error

/-- When the model is asked at a step, the lease in use is live, and the transcript is that of as
many turns as the step says, with the commands of the recorded steps; a loop top that has lost the
lease and has steps left stops the run. -/
structure Sound (p : AgentParams) (w : AgentWorld ε) : Prop where
  live : w.context? ≠ none → w.Live
  transcript : ∀ context ∈ w.context?, ∃ turns : List (Turn ε),
    turns.length = w.run.stepIdx ∧ Recorded p turns ∧
      w.run.trajectory.stepDebug = turns.filterMap Turn.debug? ∧
      context = p.getContextMessages (p.initialMessages ++ turns.flatMap Turn.messages)
  stops : w.run.phase = .top → ¬w.Live → w.run.stepIdx < p.stepLimit → w.Stops p

/-- The condition on a step: the reply of `exec` tells of every loss of the container, a recovery
has its limiter, and of its calls `rerun` and the heartbeat do not raise, and `close` raises only
when it has closed. -/
def Guarded (p : AgentParams) (w : AgentWorld ε) : AgentAction ε × Bool → Prop
  | (.exec (.faultInjected _), _) => p.hasDockerCreateLimiter = true
  | (.exec _, unseen) => unseen = false
  | (.rerun (.error _), _) => False
  | (.close (some _), unseen) => unseen = true
  | (.heartbeat (some _), _) => w.run.phase.isRecovered = false
  | _ => True

/-- The container is as it should be, except during a recovery. -/
def Backed (w : AgentWorld ε) : Prop :=
  match w.run.phase with
  | .rerunning _ | .closing _ => True
  | .allocating _ => w.run.leaseId ∉ w.pool.leases
  | .diffing | .collecting | .returned | .raised _ | .cancelled => True
  | _ => w.Live

/-- The latest checkpoint holds what the steps before it have done. -/
def Saved (w : AgentWorld ε) : Prop :=
  ∀ checkpointId ∈ w.run.checkpointState.latestReadyCheckpointId,
    ∃ content, w.pool.checkpoints.lookup checkpointId = some content ∧
      (trimStepDebugForResume w.run.trajectory.stepDebug
        w.run.checkpointState.latestReadyResumeStepIdx).map (·.effect?) = content.map some

/-- The agent has lost its environment and is about to notice. -/
def Lost (w : AgentWorld ε) : Prop :=
  w.run.phase = .top ∧ w.run.leaseId ∉ w.pool.leases

/-- The agent follows its turns on a container that goes with them. -/
structure Attached (p : AgentParams) (w : AgentWorld ε) : Prop where
  followed : ∃ turns, Followed p w.run turns
  backed : w.Backed
  saved : w.run.phase.isOver = false → w.Saved

variable {p : AgentParams} {w w' : AgentWorld ε} {s s' : AgentRun ε} {v v' : PoolView ε}
  {turns : List (Turn ε)}

/-- A step that is recorded, in the list of the steps. -/
theorem recordStep_cases (attempt : Attempt) (returncode : Int) (output : String) (elapsed : ℚ)
    (effect? : Option ε) :
    let t := s.recordStep p attempt returncode output elapsed effect?
    t.phase.isOver = true ∨ t.phase = .top ∧ t.leaseId = s.leaseId ∧
      t.trajectory.stepDebug = s.trajectory.stepDebug ++
        [⟨s.stepIdx, attempt.command, returncode, output, elapsed, attempt.llmElapsed, effect?⟩] ∧
      t.checkpointState.latestReadyCheckpointId = s.checkpointState.latestReadyCheckpointId ∧
      t.checkpointState.latestReadyResumeStepIdx =
        s.checkpointState.latestReadyResumeStepIdx := by
  unfold AgentRun.recordStep
  cases isSubmit attempt.command with
  | true => exact .inl isOver_afterLoop
  | false => exact .inr ⟨rfl, rfl, rfl, rfl, rfl⟩

theorem backed_of_isOver (h : w.run.phase.isOver = true) : w.Backed := by
  unfold Backed
  cases hp : w.run.phase <;> first | trivial | (rw [hp] at h; cases h)

theorem attached_of_isOver (h : w.run.phase.isOver = true) : Attached p w := by
  refine ⟨⟨[], followed_of_isOver h⟩, backed_of_isOver h, ?_⟩
  intro hover
  rw [h] at hover
  cases hover

/-- A container that is as it should be is so in every phase but the one without a lease. -/
theorem Live.backed (h : w.Live) (hs : ∀ attempt, w.run.phase ≠ .allocating attempt) :
    w.Backed := by
  unfold Backed
  cases hp : w.run.phase with
  | allocating attempt => exact absurd hp (hs attempt)
  | rerunning attempt => trivial
  | closing attempt => trivial
  | diffing => trivial
  | collecting => trivial
  | returned => trivial
  | raised error => trivial
  | cancelled => trivial
  | top => exact h
  | waiting context wait => exact h
  | checkpointing context wait isAdaptive => exact h
  | executing attempt => exact h
  | recovered attempt r => exact h

/-- What a step of the agent leaves alone of what the pool has to agree with. -/
structure Same (s s' : AgentRun ε) : Prop where
  leaseId : s'.leaseId = s.leaseId
  stepDebug : s'.trajectory.stepDebug = s.trajectory.stepDebug
  checkpointId : s'.checkpointState.latestReadyCheckpointId =
    s.checkpointState.latestReadyCheckpointId
  resumeStepIdx : s'.checkpointState.latestReadyResumeStepIdx =
    s.checkpointState.latestReadyResumeStepIdx

theorem Live.same (h : w.Live) (hs : Same w.run s') : Live ⟨s', w.pool⟩ := by
  obtain ⟨content, hlookup, hcontent⟩ := h
  refine ⟨content, ?_, ?_⟩
  · dsimp only
    rw [hs.leaseId]
    exact hlookup
  · dsimp only
    rw [hs.stepDebug]
    exact hcontent

theorem Saved.same (h : w.Saved) (hs : Same w.run s') (hv : v'.checkpoints = w.pool.checkpoints) :
    Saved ⟨s', v'⟩ := by
  intro checkpointId hid
  dsimp only at hid ⊢
  rw [hs.checkpointId] at hid
  rw [hs.stepDebug, hs.resumeStepIdx, hv]
  exact h checkpointId hid

theorem lookup_perform {leaseId : String} {content : List ε} (effect : ε)
    (h : v.leases.lookup leaseId = some (some content)) :
    (v.perform leaseId effect).leases.lookup leaseId = some (some (content ++ [effect])) ∧
      (v.perform leaseId effect).checkpoints = v.checkpoints := by
  unfold PoolView.perform
  rw [h]
  exact ⟨AList.lookup_insert _, rfl⟩

theorem checkpoints_lose {leaseId : String} : (v.lose leaseId).checkpoints = v.checkpoints := by
  unfold PoolView.lose
  split_ifs <;> rfl

/-- A step that is recorded after the latest checkpoint does not belong to it. -/
theorem trimStepDebug_append {l : List (StepDebug ε)} {debug : StepDebug ε} {r : Nat}
    (h : r ≤ debug.stepIdx) :
    trimStepDebugForResume (l ++ [debug]) r = trimStepDebugForResume l r := by
  unfold trimStepDebugForResume
  have hlater : [debug].filter (·.stepIdx < r) = [] := by
    rw [List.filter_eq_nil_iff]
    intro d hd
    rw [List.mem_singleton.mp hd, decide_eq_true_eq]
    omega
  rw [List.filter_append, hlater, List.append_nil]

theorem trimStepDebug_of_lt {l : List (StepDebug ε)} {r : Nat} (h : ∀ debug ∈ l, debug.stepIdx < r) :
    trimStepDebugForResume l r = l := by
  unfold trimStepDebugForResume
  rw [List.filter_eq_self]
  intro debug hdebug
  exact decide_eq_true (h debug hdebug)

/-- The command has been executed, and what it has done is in the record and in the container. -/
theorem attached_recordStep {attempt : Attempt} {returncode : Int} {output : String} {elapsed : ℚ}
    {effect : ε} (h : Attached p w) (hs : w.run.phase = .executing attempt)
    (hf : ∃ turns, Followed p
      (w.run.recordStep p attempt returncode output elapsed (some effect)) turns) :
    Attached p ⟨w.run.recordStep p attempt returncode output elapsed (some effect),
      w.pool.perform w.run.leaseId effect⟩ := by
  obtain ⟨⟨turns, hfollowed⟩, hbacked, hsaved⟩ := h
  unfold Followed at hfollowed
  rw [hs] at hfollowed
  obtain ⟨hk, -, -⟩ := hfollowed
  unfold Backed at hbacked
  rw [hs] at hbacked
  obtain ⟨content, hlookup, hcontent⟩ := hbacked
  have hbefore : w.Saved := hsaved (by rw [hs]; rfl)
  obtain ⟨hperform, hcheckpoints⟩ := lookup_perform effect hlookup
  rcases recordStep_cases (p := p) (s := w.run) attempt returncode output elapsed (some effect) with
    hover | ⟨htop, hlease, hdebug, hid, hresume⟩
  · exact attached_of_isOver hover
  · refine ⟨hf, ?_, ?_⟩
    · have hlive : Live ⟨w.run.recordStep p attempt returncode output elapsed (some effect),
          w.pool.perform w.run.leaseId effect⟩ := by
        refine ⟨content ++ [effect], ?_, ?_⟩
        · dsimp only
          rw [hlease]
          exact hperform
        · dsimp only
          rw [hdebug, List.map_append, hcontent, List.map_append]
          rfl
      apply hlive.backed
      intro a ha
      rw [htop] at ha
      cases ha
    · intro _ checkpointId hmem
      dsimp only at hmem ⊢
      rw [hid] at hmem
      rw [hcheckpoints, hdebug, hresume, trimStepDebug_append]
      · exact hbefore checkpointId hmem
      · exact hk.resume

/-- A failure in the recovery that leaves no lease. -/
theorem lost_failStep {attempt : Attempt} {failure : Failure} (h : w.run.leaseId ∉ v.leases) :
    Lost ⟨w.run.failStep p attempt failure none, v⟩ ∨
      Attached p ⟨w.run.failStep p attempt failure none, v⟩ := by
  unfold AgentRun.failStep
  rcases recordStep_cases (p := p) (s := w.run) attempt (-1) ("Execution error: " ++ failure.error)
    failure.elapsed none with hover | ⟨htop, hlease, -⟩
  · exact .inr (attached_of_isOver hover)
  · refine .inl ⟨htop, ?_⟩
    dsimp only
    rw [hlease]
    exact h

/-- The phases of the loop that no recovery stands in. -/
def isInUse : AgentPhase → Bool
  | .top | .waiting _ _ | .checkpointing _ _ _ | .executing _ | .recovered _ _ => true
  | .rerunning _ | .closing _ | .allocating _ => false
  | .diffing | .collecting | .returned | .raised _ | .cancelled => false

theorem Attached.live (h : Attached p w) (hu : isInUse w.run.phase = true) :
    w.Live ∧ w.run.phase.isOver = false := by
  have hbacked := h.backed
  unfold Backed at hbacked
  cases hs : w.run.phase with
  | top | waiting | checkpointing | executing | recovered =>
    rw [hs] at hbacked
    exact ⟨hbacked, rfl⟩
  | rerunning | closing | allocating | diffing | collecting | returned | raised | cancelled =>
    rw [hs] at hu
    cases hu

/-- A step that asks nothing of the pool. -/
theorem Attached.same (h : Attached p w) (hu : isInUse w.run.phase = true)
    (hs : Same w.run s') (hf : ∃ turns, Followed p s' turns)
    (hphase : ∀ attempt, s'.phase ≠ .allocating attempt) : Attached p ⟨s', w.pool⟩ := by
  obtain ⟨hlive, hover⟩ := h.live hu
  refine ⟨hf, ?_, ?_⟩
  · have hlive' := hlive.same hs
    exact hlive'.backed hphase
  · intro _
    exact (h.saved hover).same hs rfl

theorem same_takeReply {context : List Message} {text : String} {elapsed : ℚ} :
    Same s (s.takeReply p context text elapsed) := by
  unfold AgentRun.takeReply
  cases p.parseBashAction text with
  | some command => exact ⟨rfl, rfl, rfl, rfl⟩
  | none => exact ⟨rfl, rfl, rfl, rfl⟩

theorem ne_allocating_takeReply {context : List Message} {text : String} {elapsed : ℚ}
    (attempt : Attempt) : (s.takeReply p context text elapsed).phase ≠ .allocating attempt := by
  unfold AgentRun.takeReply
  cases p.parseBashAction text with
  | some command => exact AgentPhase.noConfusion
  | none => exact AgentPhase.noConfusion

/-- The new checkpoint holds what all recorded steps have done. -/
theorem attached_created {context : List Message} {wait : LlmWait} {isAdaptive : Bool}
    {checkpointId : String} {stepIdx : Option Int} (h : Attached p w)
    (hs : w.run.phase = .checkpointing context wait isAdaptive)
    (hv : w.pool.save w.run.leaseId checkpointId = some v)
    (hf : ∃ turns, Followed p
      (w.run.endCheckpoint p context wait isAdaptive (.created checkpointId stepIdx)) turns) :
    Attached p
      ⟨w.run.endCheckpoint p context wait isAdaptive (.created checkpointId stepIdx), v⟩ := by
  obtain ⟨⟨turns, hfollowed⟩, hbacked, -⟩ := h
  unfold Followed at hfollowed
  rw [hs] at hfollowed
  obtain ⟨hk, ht, -⟩ := hfollowed
  unfold Backed at hbacked
  rw [hs] at hbacked
  obtain ⟨content, hlookup, hcontent⟩ := hbacked
  unfold PoolView.save at hv
  rw [hlookup] at hv
  cases hv
  refine ⟨hf, ⟨content, hlookup, hcontent⟩, ?_⟩
  intro _ id hid
  have hsame : checkpointId = id := Option.some.inj hid
  have hall : trimStepDebugForResume w.run.trajectory.stepDebug w.run.stepIdx =
      w.run.trajectory.stepDebug := by
    apply trimStepDebug_of_lt
    intro debug hdebug
    rw [ht] at hdebug
    have hdate := (hk.recorded.steps.bounds hdebug).2
    have hlength := hk.length
    omega
  refine ⟨content, ?_, ?_⟩
  · rw [← hsame]
    exact AList.lookup_insert _
  · change (trimStepDebugForResume w.run.trajectory.stepDebug w.run.stepIdx).map _ = _
    rw [hall]
    exact hcontent

/-- The container of the lease has been replaced by one from the checkpoint. -/
theorem attached_restored {attempt : Attempt} (h : Attached p w)
    (hs : w.run.phase = .rerunning attempt)
    (hv : w.pool.restore w.run.leaseId w.run.checkpointState.latestReadyCheckpointId = some v)
    (hf : ∃ turns, Followed p (w.run.endRerun p attempt (.ok true)) turns) :
    Attached p ⟨w.run.endRerun p attempt (.ok true), v⟩ := by
  have hsaved : w.Saved := h.saved (by rw [hs]; rfl)
  unfold PoolView.restore at hv
  split at hv
  · rename_i content old hcontent hold
    cases hv
    obtain ⟨checkpointId, hid, hlookup⟩ := Option.bind_eq_some_iff.mp hcontent
    obtain ⟨saved, hfound, hview⟩ := hsaved checkpointId hid
    obtain rfl : saved = content := Option.some.inj (hfound.symm.trans hlookup)
    refine ⟨hf, ⟨saved, AList.lookup_insert _, hview⟩, ?_⟩
    intro _ id hmem
    have hsame : checkpointId = id := Option.some.inj (hid.symm.trans hmem)
    refine ⟨saved, ?_, ?_⟩
    · rw [← hsame]
      exact hlookup
    · have htwice : trimStepDebugForResume (trimStepDebugForResume w.run.trajectory.stepDebug
          w.run.checkpointState.latestReadyResumeStepIdx)
            w.run.checkpointState.latestReadyResumeStepIdx =
          trimStepDebugForResume w.run.trajectory.stepDebug
            w.run.checkpointState.latestReadyResumeStepIdx := by
        apply trimStepDebug_of_lt
        intro debug hdebug
        exact of_decide_eq_true (List.mem_filter.mp hdebug).2
      change (trimStepDebugForResume (trimStepDebugForResume w.run.trajectory.stepDebug
        w.run.checkpointState.latestReadyResumeStepIdx)
          w.run.checkpointState.latestReadyResumeStepIdx).map _ = _
      rw [htwice]
      exact hview
  · cases hv

/-- A new lease, and a transcript from the start. -/
theorem attached_allocated {attempt : Attempt} {leaseId : String}
    (hv : (if leaseId ∈ w.pool.leases then none
      else some { w.pool with leases := AList.insert leaseId (some []) w.pool.leases }) = some v)
    (hf : ∃ turns, Followed p
      (AgentRun.resume { w.run with checkpointState := .start } attempt leaseId 0) turns) :
    Attached p
      ⟨AgentRun.resume { w.run with checkpointState := .start } attempt leaseId 0, v⟩ := by
  split_ifs at hv
  cases hv
  have hnone : trimStepDebugForResume w.run.trajectory.stepDebug 0 = [] := by
    unfold trimStepDebugForResume
    rw [List.filter_eq_nil_iff]
    intro debug _
    rw [decide_eq_true_eq]
    omega
  refine ⟨hf, ⟨[], AList.lookup_insert _, ?_⟩, ?_⟩
  · change (trimStepDebugForResume w.run.trajectory.stepDebug 0).map _ = _
    rw [hnone]
    rfl
  · intro _ id hid
    cases hid

theorem attached_endCheckpoint {context : List Message} {wait : LlmWait} {isAdaptive : Bool}
    {result : CheckpointResult} {unseen : Bool} (h : Attached p w)
    (hphase : w.run.phase = .checkpointing context wait isAdaptive)
    (hv : w.pool.serve w.run unseen (.checkpoint result) = some v)
    (hf : ∃ turns, Followed p (w.run.endCheckpoint p context wait isAdaptive result) turns) :
    Attached p ⟨w.run.endCheckpoint p context wait isAdaptive result, v⟩ := by
  have hu : isInUse w.run.phase = true := by
    rw [hphase]
    rfl
  cases result with
  | created checkpointId stepIdx => exact attached_created h hphase hv hf
  | busy =>
    cases hv
    exact h.same hu ⟨rfl, rfl, rfl, rfl⟩ hf fun _ => AgentPhase.noConfusion
  | failed =>
    cases hv
    exact h.same hu ⟨rfl, rfl, rfl, rfl⟩ hf fun _ => AgentPhase.noConfusion
  | raised error => exact attached_of_isOver isOver_afterLoop

theorem attached_endExec {attempt : Attempt} {result : ExecResult ε} {unseen : Bool}
    (h : Attached p w) (hphase : w.run.phase = .executing attempt)
    (hg : Guarded p w (.exec result, unseen))
    (hv : w.pool.serve w.run unseen (.exec result) = some v)
    (hf : Recovers p w.run (.exec result) →
      ∃ turns, Followed p (w.run.endExec p attempt result) turns) :
    Attached p ⟨w.run.endExec p attempt result, v⟩ := by
  have hbefore : w.Saved := h.saved (by rw [hphase]; rfl)
  cases result with
  | returned returncode output elapsed effect =>
    have hseen : unseen = false := hg
    rw [hseen] at hv
    cases hv
    exact attached_recordStep h hphase (hf trivial)
  | raised failure effect =>
    have hseen : unseen = false := hg
    rw [hseen] at hv
    cases hv
    exact attached_recordStep h hphase (hf trivial)
  | faultInjected elapsed =>
    cases hv
    have hlimiter : p.hasDockerCreateLimiter = true := hg
    have hfollowed := hf hlimiter
    simp only [AgentRun.endExec, if_pos hlimiter] at hfollowed ⊢
    cases hid : w.run.checkpointState.latestReadyCheckpointId with
    | none =>
      rw [hid] at hfollowed
      refine ⟨hfollowed, trivial, fun _ => ?_⟩
      exact hbefore.same ⟨rfl, rfl, rfl, rfl⟩ checkpoints_lose
    | some id =>
      rw [hid] at hfollowed
      refine ⟨hfollowed, trivial, fun _ => ?_⟩
      exact hbefore.same ⟨rfl, rfl, rfl, rfl⟩ checkpoints_lose

theorem checkpoints_restore {leaseId : String} {checkpointId : Option String}
    (h : v.restore leaseId checkpointId = some v') : v'.checkpoints = v.checkpoints := by
  unfold PoolView.restore at h
  split at h
  · cases h
    rfl
  · cases h

theorem attached_endRerun {attempt : Attempt} {result : Except Failure Bool} {unseen : Bool}
    (h : Attached p w) (hphase : w.run.phase = .rerunning attempt)
    (hg : Guarded p w (.rerun result, unseen))
    (hv : w.pool.serve w.run unseen (.rerun result) = some v)
    (hf : Recovers p w.run (.rerun result) →
      ∃ turns, Followed p (w.run.endRerun p attempt result) turns) :
    Attached p ⟨w.run.endRerun p attempt result, v⟩ := by
  cases result with
  | error failure => exact absurd hg id
  | ok isRestored =>
    cases isRestored with
    | true => exact attached_restored h hphase hv (hf trivial)
    | false =>
      have hbefore : w.Saved := h.saved (by rw [hphase]; rfl)
      have hcheckpoints : v.checkpoints = w.pool.checkpoints := by
        simp only [PoolView.serve] at hv
        split_ifs at hv
        · exact checkpoints_restore hv
        · cases hv
          rfl
      exact ⟨hf trivial, trivial, fun _ => hbefore.same ⟨rfl, rfl, rfl, rfl⟩ hcheckpoints⟩

theorem not_mem_close {leaseId : String} : leaseId ∉ (v.close leaseId).leases := by
  unfold PoolView.close
  rw [AList.mem_erase]
  exact fun h => h.1 rfl

theorem serve_heartbeat {unseen : Bool} (hv : v.serve s unseen (.heartbeat none) = some v') :
    v' = v := by
  simp only [PoolView.serve] at hv
  split_ifs at hv
  exact (Option.some.inj hv).symm

/-- What the recovery does not re-establish, the agent notices at the next loop top. -/
theorem lost_or_attached_next {a : AgentAction ε × Bool} (h : Attached p w) (hg : Guarded p w a)
    (hn : next p w a = some w') : Lost w' ∨ Attached p w' := by
  obtain ⟨s, hs, hrest⟩ := Option.bind_eq_some_iff.mp hn
  obtain ⟨v, hv, rfl⟩ := Option.map_eq_some_iff.mp hrest
  obtain ⟨action, unseen⟩ := a
  obtain ⟨turns, hfollowed⟩ := h.followed
  have hf : Recovers p w.run action → ∃ turns, Followed p s turns := by
    intro hr
    obtain ⟨turns', hf', -⟩ := followed_step hfollowed hr.resumes hs
    exact ⟨turns', hf'⟩
  have hu : ∀ {phase : AgentPhase}, w.run.phase = phase → isInUse phase = true →
      isInUse w.run.phase = true := fun hphase huse => hphase ▸ huse
  cases AgentRun.stepped_of_step hs with
  | left => exact .inr (attached_of_isOver isOver_afterLoop)
  | asked hphase =>
    rw [serve_heartbeat hv]
    exact .inr (h.same (hu hphase rfl) ⟨rfl, rfl, rfl, rfl⟩ (hf trivial)
      fun _ => AgentPhase.noConfusion)
  | lapsed => exact .inr (attached_of_isOver rfl)
  | resumed hphase =>
    rw [serve_heartbeat hv]
    exact .inr (h.same (hu hphase rfl) ⟨rfl, rfl, rfl, rfl⟩ (hf trivial)
      fun _ => AgentPhase.noConfusion)
  | resumeFailed failure hphase =>
    have hnot : w.run.phase.isRecovered = false := hg
    rw [hphase] at hnot
    cases hnot
  | attemptedFixed hphase | attemptedAdaptive hphase =>
    cases hv
    exact .inr (h.same (hu hphase rfl) ⟨rfl, rfl, rfl, rfl⟩ (hf trivial)
      fun _ => AgentPhase.noConfusion)
  | checkpointed result hphase => exact .inr (attached_endCheckpoint h hphase hv (hf trivial))
  | replied text elapsed hphase =>
    cases hv
    exact .inr (h.same (hu hphase rfl) same_takeReply (hf trivial) ne_allocating_takeReply)
  | callFailed => exact .inr (attached_of_isOver isOver_afterLoop)
  | executed result hphase => exact .inr (attached_endExec h hphase hg hv hf)
  | rerun result hphase => exact .inr (attached_endRerun h hphase hg hv hf)
  | closed hphase =>
    cases hv
    have hbefore : w.Saved := h.saved (by rw [hphase]; rfl)
    exact .inr ⟨hf trivial, not_mem_close, fun _ => hbefore.same ⟨rfl, rfl, rfl, rfl⟩ rfl⟩
  | closeFailed failure =>
    have hserved : unseen = true := hg
    rw [hserved] at hv
    cases hv
    exact lost_failStep not_mem_close
  | allocated leaseId => exact .inr (attached_allocated hv (hf trivial))
  | allocateFailed failure hphase =>
    cases hv
    have hgone := h.backed
    unfold Backed at hgone
    rw [hphase] at hgone
    exact lost_failStep hgone
  | diffed result =>
    cases result with
    | ok patch => exact .inr (attached_of_isOver isOver_finish)
    | error error => exact .inr (attached_of_isOver isOver_finish)
  | collected | collectFailed | cancelled => exact .inr (attached_of_isOver rfl)

/-- A loop top without its lease leads out of the loop. -/
theorem isOver_of_lost {a : AgentAction ε × Bool} (h : Lost w) (hn : next p w a = some w') :
    w'.run.phase.isOver = true ∧
      (w.run.stepIdx < p.stepLimit →
        w'.run.phase = .cancelled ∨ ∃ error, w'.run.phase = .raised error) := by
  obtain ⟨htop, hgone⟩ := h
  obtain ⟨s, hs, hrest⟩ := Option.bind_eq_some_iff.mp hn
  obtain ⟨v, hv, rfl⟩ := Option.map_eq_some_iff.mp hrest
  obtain ⟨action, unseen⟩ := a
  cases AgentRun.stepped_of_step hs with
  | left _ hi => exact ⟨isOver_afterLoop, fun hlt => absurd hlt hi⟩
  | asked =>
    simp only [PoolView.serve, if_neg hgone] at hv
    cases hv
  | lapsed failure => exact ⟨rfl, fun _ => .inr ⟨_, rfl⟩⟩
  | cancelled => exact ⟨rfl, fun _ => .inl rfl⟩
  | resumed hphase | resumeFailed _ hphase | attemptedFixed hphase | attemptedAdaptive hphase
  | checkpointed _ hphase | replied _ _ hphase | callFailed _ _ hphase | executed _ hphase
  | rerun _ hphase | closed hphase | closeFailed _ hphase | allocated _ hphase
  | allocateFailed _ hphase | diffed _ hphase | collected hphase | collectFailed _ hphase =>
    rw [htop] at hphase
    cases hphase

/-- The model is not asked. -/
theorem sound_of_unasked (hnone : w.context? = none)
    (hstops : w.run.phase = .top → ¬w.Live → w.run.stepIdx < p.stepLimit → w.Stops p) :
    Sound p w := by
  refine ⟨fun hasked => absurd hnone hasked, ?_, hstops⟩
  intro context hmem
  rw [hnone] at hmem
  cases hmem

theorem sound_of_lost (h : Lost w) : Sound p w := by
  have hnone : w.context? = none := by
    unfold context?
    rw [h.1]
  apply sound_of_unasked hnone
  intro _ _ hlimit a w' hn
  exact (isOver_of_lost h hn).2 hlimit

/-- The model is asked with the transcript of the turns. -/
theorem sound_of_asked {context : List Message} (hasked : w.context? = some context)
    (hlive : w.Live) (hk : Kept p w.run.stepIdx w.run turns)
    (ht : w.run.trajectory = trajectoryOf p turns)
    (hcontext : context = p.getContextMessages (trajectoryOf p turns).messages) : Sound p w := by
  refine ⟨fun _ => hlive, ?_, fun _ hdead => absurd hlive hdead⟩
  intro asked hmem
  obtain rfl : context = asked := Option.some.inj (hasked.symm.trans hmem)
  refine ⟨turns, hk.length, hk.recorded, ?_, hcontext⟩
  rw [ht]
  rfl

theorem sound_of_attached (h : Attached p w) : Sound p w := by
  obtain ⟨turns, hf⟩ := h.followed
  have hbacked := h.backed
  unfold Followed at hf
  unfold Backed at hbacked
  cases hs : w.run.phase with
  | waiting context | checkpointing context =>
    rw [hs] at hf hbacked
    obtain ⟨hk, ht, hcontext⟩ := hf
    have hasked : w.context? = some context := by
      unfold context?
      rw [hs]
    exact sound_of_asked hasked hbacked hk ht hcontext
  | top =>
    rw [hs] at hbacked
    have hnone : w.context? = none := by
      unfold context?
      rw [hs]
    exact sound_of_unasked hnone fun _ hdead => absurd hbacked hdead
  | executing | rerunning | closing | allocating | recovered | diffing | collecting | returned
  | raised | cancelled =>
    have hnone : w.context? = none := by
      unfold context?
      rw [hs]
    apply sound_of_unasked hnone
    intro htop
    rw [hs] at htop
    cases htop

/-- The agent never goes on without its environment, in a run whose steps are guarded. -/
theorem sound_of_guarded (p : AgentParams) (leaseId : String) (run : List (AgentAction ε × Bool))
    (h : Meets (next p) (Guarded p) (begin p leaseId) run) :
    Along (next p) (Sound p) (begin p leaseId) run := by
  have hbegin : Attached p (begin p leaseId : AgentWorld ε) := by
    refine ⟨⟨[], ⟨recorded_nil, rfl, rfl, le_rfl, rfl⟩, rfl⟩, ⟨[], ?_, rfl⟩, ?_⟩
    · exact AList.lookup_insert ∅
    · intro _ checkpointId hid
      cases hid
  have hinvariant := along_of_meets (I := fun w : AgentWorld ε => Lost w ∨ Attached p w)
    (fun w a w' hi hg hn => by
      rcases hi with hlost | hattached
      · exact .inr (attached_of_isOver (isOver_of_lost hlost hn).1)
      · exact lost_or_attached_next hattached hg hn)
    (.inr hbegin) h
  refine hinvariant.mono fun w hi => ?_
  rcases hi with hlost | hattached
  · exact sound_of_lost hlost
  · exact sound_of_attached hattached

instance (p : AgentParams) (w : AgentWorld ε) : ∀ a, Decidable (Guarded p w a)
  | (.exec (.faultInjected _), _) => inferInstanceAs (Decidable (p.hasDockerCreateLimiter = true))
  | (.exec (.returned _ _ _ _), unseen) | (.exec (.raised _ _), unseen) =>
    inferInstanceAs (Decidable (unseen = false))
  | (.rerun (.error _), _) => .isFalse not_false
  | (.close (some _), unseen) => inferInstanceAs (Decidable (unseen = true))
  | (.heartbeat (some _), _) => inferInstanceAs (Decidable (w.run.phase.isRecovered = false))
  | (.heartbeat none, _) | (.rerun (.ok _), _) | (.close none, _) | (.allocate _, _) | (.leave, _)
  | (.attemptFixed, _) | (.attemptAdaptive, _) | (.checkpoint _, _) | (.complete _ _, _)
  | (.diff _, _) | (.collect _, _) | (.cancel, _) => .isTrue trivial

instance [DecidableEq ε] (w : AgentWorld ε) : Decidable w.Live :=
  decidable_of_iff (∃ content ∈ w.pool.leases.lookup w.run.leaseId, ∃ done ∈ content,
      w.run.trajectory.stepDebug.map (·.effect?) = done.map some) <| by
    constructor
    · rintro ⟨content, hlookup, done, hdone, heffects⟩
      refine ⟨done, ?_, heffects⟩
      rw [Option.mem_def.mp hlookup, Option.mem_def.mp hdone]
    · rintro ⟨done, hlookup, heffects⟩
      exact ⟨some done, hlookup, done, rfl, heffects⟩

/-- A turn with a command and a checkpoint, then a fault in the next turn. -/
def faultRun : List (AgentAction String × Bool) :=
  [(.heartbeat none, false), (.complete (.ok "```bash\nls\n```") 1, false),
    (.exec (.returned 0 "a" 1 "ls"), false), (.heartbeat none, false), (.attemptFixed, false),
    (.checkpoint (.created "c1" none), false), (.complete (.ok "```bash\nls\n```") 1, false),
    (.exec (.faultInjected 1), false)]

/-- The rerun is refused, and so is the allocation of another lease. -/
theorem sound_of_guarded_faultRun :
    Along (next eagerParams) (Sound eagerParams) (begin eagerParams "l1")
      (faultRun ++ [(.rerun (.ok false), false), (.close none, false),
        (.allocate (.error ⟨"no slot", 2⟩), false), (.heartbeat (some ⟨"Unknown lease_id", 0⟩), false)]) :=
  sound_of_guarded eagerParams "l1" _ (by decide +kernel)

/-- The rerun succeeds and the heartbeat after it raises: the agent goes on at the step of the
fault, and asks the model with a transcript that two messages of the user end. -/
theorem sound_fails :
    ¬Along (next eagerParams) (Sound eagerParams) (begin eagerParams "l1")
      (faultRun ++ [(.rerun (.ok true), false), (.heartbeat (some ⟨"timed out", 60⟩), false),
        (.heartbeat none, false)]) := by
  intro h
  have hasked : ∃ w ∈ exec (next eagerParams) (begin eagerParams "l1")
      (faultRun ++ [(.rerun (.ok true), false), (.heartbeat (some ⟨"timed out", 60⟩), false),
        (.heartbeat none, false)]), w.context? ≠ none ∧ ¬w.Live := by
    decide +kernel
  obtain ⟨w, hw, hcontext, hdead⟩ := hasked
  have hsound : Sound eagerParams w := h.last hw
  exact hdead (hsound.live hcontext)

end AgentWorld

end Belayer.Agent
