import Belayer.Agent.GenerateImpl
import Belayer.Agent.Rollback
import Mathlib.Data.Set.Basic

namespace Belayer.Agent

open Belayer.Framework

variable {ε : Type*}

/-- The agent's run is over. -/
def GeneratePhase.isAfter : GeneratePhase ε → Bool
  | .admitting | .acquiring | .allocating | .attaching _ | .running _ => false
  | _ => true

namespace GenerateRun

def IsEnded (s : GenerateRun ε) : Prop := ∃ isCancelled, s.phase = .ended isCancelled

/-- Every lease id that a call of `allocate` has returned has been passed to a call of `close`. -/
def Released (s : GenerateRun ε) : Prop := ∀ leaseId ∈ s.allocated, leaseId ∈ s.closed

/-- The lease that the agent uses is the one of `_generate_impl`, or the agent has closed it. -/
def Known (s : GenerateRun ε) : Prop :=
  ∀ agent, s.phase = .running agent → s.leaseId = some agent.leaseId ∨ agent.leaseId ∈ s.closed

/-- The condition on a step that ends the run of the agent. -/
def Hands (p : GenerateParams) (s : GenerateRun ε) (a : GenerateAction ε) : Prop :=
  ∀ s', s.step p a = some s' → (∀ agent, s'.phase ≠ .running agent) → s.Known

/-- The leases that are open and that no variable of `_generate_impl` holds. -/
def left (s : GenerateRun ε) : Set String :=
  {leaseId | leaseId ∈ s.allocated ∧ leaseId ∉ s.closed ∧ s.leaseId ≠ some leaseId ∧
    s.evalLeaseId ≠ some leaseId}

/-- The lease of a variable has been passed to `close`. -/
def IsClosed (s : GenerateRun ε) (leaseId? : Option String) : Prop :=
  ∀ leaseId ∈ leaseId?, leaseId ∈ s.closed

/-- What is known of the leases where the agent runs. -/
structure Uses (s : GenerateRun ε) (agent : AgentRun ε) : Prop where
  eval : s.evalLeaseId = none
  leaseId : agent.leaseId ∈ s.allocated
  closing : ∀ attempt, agent.phase = .closing attempt → agent.leaseId ∈ s.closed
  allocating : ∀ attempt, agent.phase = .allocating attempt → agent.leaseId ∈ s.closed
  left : ∀ leaseId ∈ s.left, leaseId = agent.leaseId

/-- What is known of the leases in a phase. -/
def Phased (s : GenerateRun ε) : Prop :=
  match s.phase with
  | .admitting | .acquiring | .allocating =>
    s.allocated = [] ∧ s.leaseId = none ∧ s.evalLeaseId = none
  | .attaching leaseId =>
    s.allocated = [leaseId] ∧ s.leaseId = some leaseId ∧ s.evalLeaseId = none
  | .running agent => s.Uses agent
  | .closingAgent | .detachingAgent => s.IsClosed s.leaseId ∧ s.evalLeaseId = none
  | .acquiringEval | .allocatingEval => s.evalLeaseId = none
  | .attachingEval | .evaluating => True
  | .closingEval _ | .detachingEval _ | .cleaningEval _ | .cleaningEvalDetach _ =>
    s.IsClosed s.evalLeaseId
  | .cleaning _ | .cleaningDetach _ | .finishing _ _ | .ended _ =>
    s.IsClosed s.leaseId ∧ s.IsClosed s.evalLeaseId

/-- Where a part of the coroutine leads after the agent's run: no lease is lost or found. -/
structure Passes (s s' : GenerateRun ε) : Prop where
  after : s'.phase.isAfter = true
  phased : s'.Phased
  left : s'.left = s.left

variable {p : GenerateParams} {s s' : GenerateRun ε} {a : GenerateAction ε} {leaseId : String}

theorem left_congr (ha : s'.allocated = s.allocated) (hc : s'.closed = s.closed)
    (hl : s'.leaseId = s.leaseId) (he : s'.evalLeaseId = s.evalLeaseId) : s'.left = s.left := by
  unfold left
  rw [ha, hc, hl, he]

/-- Leases that a variable holds are passed to `close`. -/
theorem left_close {ids : List String}
    (hids : ∀ id ∈ ids, s.leaseId = some id ∨ s.evalLeaseId = some id)
    (ha : s'.allocated = s.allocated) (hc : s'.closed = s.closed ++ ids)
    (hl : s'.leaseId = s.leaseId) (he : s'.evalLeaseId = s.evalLeaseId) : s'.left = s.left := by
  ext id
  unfold left
  rw [Set.mem_ofPred_eq, Set.mem_ofPred_eq, ha, hc, hl, he]
  constructor
  · rintro ⟨hallocated, hopen, hlease, heval⟩
    refine ⟨hallocated, ?_, hlease, heval⟩
    exact fun hclosed => hopen (List.mem_append_left _ hclosed)
  · rintro ⟨hallocated, hopen, hlease, heval⟩
    refine ⟨hallocated, ?_, hlease, heval⟩
    intro hclosed
    rcases List.mem_append.mp hclosed with hclosed | hnew
    · exact hopen hclosed
    · exact (hids id hnew).elim hlease heval

theorem left_callClose {phase : GeneratePhase ε}
    (h : s.leaseId = some leaseId ∨ s.evalLeaseId = some leaseId) :
    (s.callClose leaseId phase).left = s.left := by
  refine left_close ?_ rfl rfl rfl rfl
  intro id hid
  rw [List.mem_singleton.mp hid]
  exact h

/-- A variable gives up a lease that has been passed to `close`. -/
theorem left_forget (h : s.IsClosed s.leaseId) (ha : s'.allocated = s.allocated)
    (hc : s'.closed = s.closed) (hl : s'.leaseId = none) (he : s'.evalLeaseId = s.evalLeaseId) :
    s'.left = s.left := by
  ext id
  unfold left
  rw [Set.mem_ofPred_eq, Set.mem_ofPred_eq, ha, hc, hl, he]
  constructor
  · rintro ⟨hallocated, hopen, -, heval⟩
    exact ⟨hallocated, hopen, fun hlease => hopen (h id hlease), heval⟩
  · rintro ⟨hallocated, hopen, -, heval⟩
    exact ⟨hallocated, hopen, nofun, heval⟩

theorem left_forgetEval (h : s.IsClosed s.evalLeaseId) (ha : s'.allocated = s.allocated)
    (hc : s'.closed = s.closed) (hl : s'.leaseId = s.leaseId) (he : s'.evalLeaseId = none) :
    s'.left = s.left := by
  ext id
  unfold left
  rw [Set.mem_ofPred_eq, Set.mem_ofPred_eq, ha, hc, hl, he]
  constructor
  · rintro ⟨hallocated, hopen, hlease, -⟩
    exact ⟨hallocated, hopen, hlease, fun heval => hopen (h id heval)⟩
  · rintro ⟨hallocated, hopen, hlease, -⟩
    exact ⟨hallocated, hopen, hlease, nofun⟩

theorem isClosed_none : s.IsClosed none := by
  intro leaseId h
  cases h

theorem isClosed_callClose {leaseId? : Option String} {phase : GeneratePhase ε}
    (h : leaseId? = some leaseId) : (s.callClose leaseId phase).IsClosed leaseId? := by
  intro id hid
  have hsame : leaseId = id := Option.some.inj (h.symm.trans hid)
  rw [← hsame]
  exact List.mem_append_right _ (List.mem_singleton_self _)

theorem passes_release (isCancelled : Bool) (hl : s.IsClosed s.leaseId)
    (he : s.IsClosed s.evalLeaseId) : s.Passes (s.release p isCancelled) := by
  unfold release
  split
  · split_ifs
    · exact ⟨rfl, ⟨hl, he⟩, rfl⟩
    · exact ⟨rfl, ⟨hl, he⟩, rfl⟩
  · exact ⟨rfl, ⟨hl, he⟩, rfl⟩

theorem passes_cleanAgent (isCancelled : Bool) (he : s.IsClosed s.evalLeaseId) :
    s.Passes (s.cleanAgent p isCancelled) := by
  unfold cleanAgent
  dsimp only
  split
  · rename_i leaseId hlease
    refine ⟨rfl, ⟨isClosed_callClose hlease, ?_⟩, left_callClose (.inl hlease)⟩
    intro id hid
    exact List.mem_append_left _ (he id hid)
  · rename_i hlease
    have hclosed : s.IsClosed s.leaseId := by
      rw [hlease]
      exact isClosed_none
    have hpasses := passes_release (p := p) (s := { s with evalSlotAcquired := false })
      isCancelled hclosed he
    exact ⟨hpasses.after, hpasses.phased, hpasses.left⟩

/-- The cleanup after the handlers around `_run_after_semaphore`. -/
def cleanEval (p : GenerateParams) (s : GenerateRun ε) (isCancelled : Bool) : GenerateRun ε :=
  match s.evalLeaseId with
  | some evalLeaseId => s.callClose evalLeaseId (.cleaningEval isCancelled)
  | none => s.cleanAgent p isCancelled

theorem cleanUp_cases (p : GenerateParams) (s : GenerateRun ε) (raised? : Option Raised) :
    ∃ timedOut error isCancelled,
      s.cleanUp p raised? = cleanEval p { s with timedOut := timedOut, error := error } isCancelled := by
  unfold cleanUp
  cases raised? with
  | none => exact ⟨_, _, _, rfl⟩
  | some raised => cases raised <;> exact ⟨_, _, _, rfl⟩

theorem passes_cleanEval (isCancelled : Bool) : s.Passes (s.cleanEval p isCancelled) := by
  unfold cleanEval
  cases hid : s.evalLeaseId with
  | some evalLeaseId => exact ⟨rfl, isClosed_callClose hid, left_callClose (.inr hid)⟩
  | none =>
    have hclosed : s.IsClosed s.evalLeaseId := by
      rw [hid]
      exact isClosed_none
    exact passes_cleanAgent isCancelled hclosed

theorem passes_cleanUp (raised? : Option Raised) : s.Passes (s.cleanUp p raised?) := by
  obtain ⟨timedOut, error, isCancelled, hclean⟩ := cleanUp_cases p s raised?
  have hpasses := passes_cleanEval (p := p) (s := { s with timedOut := timedOut, error := error })
    isCancelled
  rw [hclean]
  exact ⟨hpasses.after, hpasses.phased, hpasses.left⟩

theorem passes_releaseEval (raised? : Option Raised) (he : s.IsClosed s.evalLeaseId) :
    s.Passes (releaseEval p { s with evalLeaseId := none } raised?) := by
  obtain ⟨hafter, hphased, hleft⟩ := passes_cleanUp (p := p)
    (s := { s with evalLeaseId := none, evalSlotAcquired := false }) raised?
  exact ⟨hafter, hphased, hleft.trans (left_forgetEval he rfl rfl rfl rfl)⟩

/-- The cleanup of the evaluation after its handlers. -/
def closeEval (p : GenerateParams) (s : GenerateRun ε) (raised? : Option Raised) : GenerateRun ε :=
  match s.evalLeaseId with
  | some evalLeaseId => s.callClose evalLeaseId (.closingEval raised?)
  | none => s.releaseEval p raised?

theorem endEval_cases (p : GenerateParams) (s : GenerateRun ε) (raised? : Option Raised) :
    ∃ error left?, s.endEval p raised? = closeEval p { s with error := error } left? := by
  unfold endEval
  cases raised? with
  | none => exact ⟨_, _, rfl⟩
  | some raised => cases raised <;> exact ⟨_, _, rfl⟩

theorem passes_closeEval (raised? : Option Raised) : s.Passes (s.closeEval p raised?) := by
  unfold closeEval
  cases hid : s.evalLeaseId with
  | some evalLeaseId => exact ⟨rfl, isClosed_callClose hid, left_callClose (.inr hid)⟩
  | none =>
    have hpasses := passes_cleanUp (p := p) (s := { s with evalSlotAcquired := false }) raised?
    exact ⟨hpasses.after, hpasses.phased, hpasses.left⟩

theorem passes_endEval (raised? : Option Raised) : s.Passes (s.endEval p raised?) := by
  obtain ⟨error, left?, hend⟩ := endEval_cases p s raised?
  have hpasses := passes_closeEval (p := p) (s := { s with error := error }) left?
  rw [hend]
  exact ⟨hpasses.after, hpasses.phased, hpasses.left⟩

theorem passes_afterAgent {agent : AgentRun ε} (he : s.evalLeaseId = none) :
    s.Passes (s.afterAgent p agent) := by
  unfold afterAgent
  dsimp only
  split
  · refine ⟨rfl, ⟨?_, he⟩, ?_⟩
    · intro id hid
      have hmem : id ∈ s.leaseId.toList := Option.mem_toList.mpr hid
      exact List.mem_append_right _ hmem
    · refine left_close ?_ rfl rfl rfl rfl
      intro id hid
      exact .inl (Option.mem_toList.mp hid)
  · have hpasses := passes_cleanUp (p := p)
      (s := { s with error := agent.error, gitPatch := agent.gitPatch }) none
    exact ⟨hpasses.after, hpasses.phased, hpasses.left⟩

/-- The evaluation's lease is a new one. -/
theorem passes_allocateEval (he : s.evalLeaseId = none) (hnew : leaseId ∉ s.allocated) :
    s.Passes (s.allocateEval p leaseId) := by
  have hleft : ∀ t : GenerateRun ε, t.allocated = s.allocated ++ [leaseId] →
      t.closed = s.closed → t.leaseId = s.leaseId → t.evalLeaseId = some leaseId →
      t.left = s.left := by
    intro t hallocated hclosed hlease heval
    ext id
    unfold left
    rw [Set.mem_ofPred_eq, Set.mem_ofPred_eq, hallocated, hclosed, hlease, heval, he]
    constructor
    · rintro ⟨hmem, hopen, hother, hdifferent⟩
      rcases List.mem_append.mp hmem with hmem | hmem
      · exact ⟨hmem, hopen, hother, nofun⟩
      · rw [List.mem_singleton.mp hmem] at hdifferent
        exact absurd rfl hdifferent
    · rintro ⟨hmem, hopen, hother, -⟩
      refine ⟨List.mem_append_left _ hmem, hopen, hother, ?_⟩
      intro hsame
      rw [Option.some.inj hsame] at hnew
      exact hnew hmem
  unfold allocateEval
  dsimp only
  split_ifs
  · exact ⟨rfl, trivial, hleft _ rfl rfl rfl rfl⟩
  · exact ⟨rfl, trivial, hleft _ rfl rfl rfl rfl⟩

/-- The calls of `close` after the agent's run. -/
theorem passes_close {result : Except Raised Unit} (hp : s.Phased)
    (hs : s.step p (.close result) = some s') : s.Passes s' := by
  unfold Phased at hp
  simp only [step] at hs
  split at hs
  · rename_i hphase
    rw [hphase] at hp
    split_ifs at hs
    · cases hs
      exact ⟨rfl, hp, rfl⟩
    · cases hs
      exact ⟨rfl, hp.2, left_forget hp.1 rfl rfl rfl rfl⟩
  · cases hs
    exact passes_cleanUp _
  · rename_i hphase
    rw [hphase] at hp
    cases hs
    exact ⟨rfl, hp.2, rfl⟩
  · rename_i hphase
    rw [hphase] at hp
    split_ifs at hs
    · cases hs
      exact ⟨rfl, hp, rfl⟩
    · cases hs
      exact passes_releaseEval _ hp
  · rename_i hphase
    rw [hphase] at hp
    cases hs
    exact passes_releaseEval _ hp
  · rename_i hphase
    rw [hphase] at hp
    split_ifs at hs
    · cases hs
      exact ⟨rfl, hp, rfl⟩
    · cases hs
      exact passes_cleanAgent _ hp
  · rename_i hphase
    rw [hphase] at hp
    cases hs
    exact passes_cleanAgent _ hp
  · rename_i hphase
    rw [hphase] at hp
    split_ifs at hs
    · cases hs
      exact ⟨rfl, hp, rfl⟩
    · cases hs
      exact passes_release _ hp.1 hp.2
  · rename_i hphase
    rw [hphase] at hp
    cases hs
    exact passes_release _ hp.1 hp.2
  · cases hs

/-- The calls of `detach_lease`. -/
theorem passes_detach {result : Except Raised Unit} (hp : s.Phased)
    (hs : s.step p (.detach result) = some s') : s.Passes s' := by
  unfold Phased at hp
  simp only [step] at hs
  split at hs
  · rename_i hphase
    rw [hphase] at hp
    cases hs
    exact ⟨rfl, hp.2, left_forget hp.1 rfl rfl rfl rfl⟩
  · cases hs
    exact passes_cleanUp _
  · rename_i hphase
    rw [hphase] at hp
    cases hs
    exact ⟨rfl, hp.2, rfl⟩
  · rename_i hphase
    rw [hphase] at hp
    cases hs
    exact passes_releaseEval _ hp
  · rename_i hphase
    rw [hphase] at hp
    cases hs
    exact passes_cleanAgent _ hp
  · rename_i hphase
    rw [hphase] at hp
    cases hs
    exact passes_release _ hp.1 hp.2
  · cases hs

/-- After the agent's run no lease is lost or found. -/
theorem passes_step (h : s.phase.isAfter = true) (hp : s.Phased) (hs : s.step p a = some s') :
    s.Passes s' := by
  have hfollows := hp
  unfold Phased at hp
  cases a with
  | admission result =>
    simp only [step] at hs
    split at hs
    · rename_i hphase
      rw [hphase] at h
      cases h
    · rename_i hphase
      rw [hphase] at h
      cases h
    · rename_i hphase
      rw [hphase] at h
      cases h
    · cases hs
  | agent action =>
    simp only [step] at hs
    split at hs
    · rename_i hphase
      rw [hphase] at h
      cases h
    · cases hs
  | agentTimeout =>
    simp only [step] at hs
    split at hs
    · rename_i hphase
      rw [hphase] at h
      cases h
    · cases hs
  | acquire result =>
    simp only [step] at hs
    split at hs
    · rename_i hphase
      rw [hphase] at h
      cases h
    · rename_i hphase
      rw [hphase] at h
      cases h
    · rename_i hphase
      rw [hphase] at hp
      cases hs
      exact ⟨rfl, hp, rfl⟩
    · cases hs
      exact passes_cleanUp _
    · cases hs
  | allocate result =>
    simp only [step] at hs
    split at hs
    · rename_i hphase
      rw [hphase] at h
      cases h
    · rename_i hphase
      rw [hphase] at h
      cases h
    · rename_i hphase
      rw [hphase] at hp
      split_ifs at hs with hold
      cases hs
      exact passes_allocateEval hp hold
    · cases hs
      exact passes_endEval _
    · cases hs
  | attach result =>
    simp only [step] at hs
    split at hs
    · rename_i hphase
      rw [hphase] at h
      cases h
    · rename_i hphase _
      rw [hphase] at h
      cases h
    · cases hs
      exact passes_endEval _
    · cases hs
      exact ⟨rfl, trivial, rfl⟩
    · cases hs
  | close result => exact passes_close hfollows hs
  | detach result => exact passes_detach hfollows hs
  | evaluate result =>
    simp only [step] at hs
    split at hs
    · rename_i resolved _
      cases hs
      have hpasses := passes_endEval (p := p) (s := { s with reward := resolved.toNat }) none
      exact ⟨hpasses.after, hpasses.phased, hpasses.left⟩
    · cases hs
      exact passes_endEval _
    · cases hs
      exact passes_endEval _
    · cases hs
  | finish result =>
    simp only [step] at hs
    split at hs
    · rename_i hphase
      rw [hphase] at hp
      cases hs
      exact ⟨rfl, hp, rfl⟩
    · rename_i hphase _
      rw [hphase] at hp
      cases hs
      exact ⟨rfl, hp, rfl⟩
    · cases hs

variable {agent agent' : AgentRun ε} {action : AgentAction ε}

/-- How a step of the agent changes its lease. -/
inductive Leased (agent : AgentRun ε) (action : AgentAction ε) (agent' : AgentRun ε) : Prop
  | same (hl : agent'.leaseId = agent.leaseId) (ha : ∀ leaseId, action ≠ .allocate (.ok leaseId))
      (hp : ∀ attempt, agent'.phase = .allocating attempt → agent.phase = .closing attempt)
  | replaced {attempt : Attempt} (leaseId : String) (hp : agent.phase = .allocating attempt)
      (ha : action = .allocate (.ok leaseId)) (hl : agent'.leaseId = leaseId)
      (hp' : agent'.phase = .recovered attempt 0)

theorem leaseId_finish : (agent.finish p.agent).leaseId = agent.leaseId := by
  unfold AgentRun.finish
  split_ifs <;> rfl

theorem leaseId_afterLoop : (agent.afterLoop p.agent).leaseId = agent.leaseId := by
  unfold AgentRun.afterLoop
  split_ifs
  · rfl
  · exact leaseId_finish

theorem leased_of_isOver (hl : agent'.leaseId = agent.leaseId) (hover : agent'.phase.isOver = true)
    (ha : ∀ leaseId, action ≠ .allocate (.ok leaseId)) : Leased agent action agent' := by
  refine .same hl ha ?_
  intro attempt hphase
  rw [hphase] at hover
  cases hover

theorem leased_recordStep {attempt : Attempt} {returncode : Int} {output : String} {elapsed : ℚ}
    {effect? : Option ε} (ha : ∀ leaseId, action ≠ .allocate (.ok leaseId)) :
    Leased agent action (agent.recordStep p.agent attempt returncode output elapsed effect?) := by
  unfold AgentRun.recordStep
  cases isSubmit attempt.command with
  | true => exact leased_of_isOver leaseId_afterLoop isOver_afterLoop ha
  | false => exact .same rfl ha fun _ => AgentPhase.noConfusion

theorem leased_step (h : agent.step p.agent action = some agent') : Leased agent action agent' := by
  cases AgentRun.stepped_of_step h with
  | left => exact leased_of_isOver leaseId_afterLoop isOver_afterLoop nofun
  | asked | resumed => exact .same rfl nofun fun _ => AgentPhase.noConfusion
  | lapsed => exact .same rfl nofun fun _ => AgentPhase.noConfusion
  | resumeFailed failure => exact leased_recordStep nofun
  | attemptedFixed | attemptedAdaptive => exact .same rfl nofun fun _ => AgentPhase.noConfusion
  | checkpointed result =>
    cases result with
    | created checkpointId stepIdx => exact .same rfl nofun fun _ => AgentPhase.noConfusion
    | busy | failed => exact .same rfl nofun fun _ => AgentPhase.noConfusion
    | raised error => exact leased_of_isOver leaseId_afterLoop isOver_afterLoop nofun
  | replied text =>
    unfold AgentRun.takeReply
    cases p.agent.parseBashAction text with
    | some command => exact .same rfl nofun fun _ => AgentPhase.noConfusion
    | none => exact .same rfl nofun fun _ => AgentPhase.noConfusion
  | callFailed => exact leased_of_isOver leaseId_afterLoop isOver_afterLoop nofun
  | executed result =>
    cases result with
    | returned returncode output elapsed effect => exact leased_recordStep nofun
    | raised failure effect => exact leased_recordStep nofun
    | faultInjected elapsed =>
      simp only [AgentRun.endExec]
      split_ifs
      · split
        · exact .same rfl nofun fun _ => AgentPhase.noConfusion
        · exact .same rfl nofun fun _ => AgentPhase.noConfusion
      · exact leased_recordStep nofun
  | rerun result =>
    cases result with
    | ok isRestored =>
      cases isRestored with
      | true => exact .same rfl nofun fun _ => AgentPhase.noConfusion
      | false => exact .same rfl nofun fun _ => AgentPhase.noConfusion
    | error failure => exact leased_recordStep nofun
  | closed hs =>
    refine .same rfl nofun ?_
    intro attempt hattempt
    rw [hs, AgentPhase.allocating.inj hattempt]
  | closeFailed failure => exact leased_recordStep nofun
  | allocated leaseId hs => exact .replaced leaseId hs rfl rfl rfl
  | allocateFailed failure => exact leased_recordStep nofun
  | diffed result =>
    cases result with
    | ok patch => exact leased_of_isOver leaseId_finish isOver_finish nofun
    | error error => exact leased_of_isOver leaseId_finish isOver_finish nofun
  | collected | collectFailed | cancelled =>
    exact .same rfl nofun fun _ => AgentPhase.noConfusion

theorem allocated_account (h : ∀ leaseId, action ≠ .allocate (.ok leaseId)) :
    (s.account action agent').allocated = s.allocated := by
  unfold account
  dsimp only
  split
  · rename_i leaseId
    exact absurd rfl (h leaseId)
  · rfl

theorem closed_account (h : ∀ attempt, agent'.phase ≠ .closing attempt) :
    (s.account action agent').closed = s.closed := by
  unfold account
  dsimp only
  split
  · rename_i attempt hphase
    exact absurd hphase (h attempt)
  · rfl

theorem mem_closed_account (h : leaseId ∈ s.closed) :
    leaseId ∈ (s.account action agent').closed := by
  unfold account
  dsimp only
  split
  · exact List.mem_append_left _ h
  · exact h

/-- What the agent passes to `close` is accounted for. -/
theorem mem_closed_of_closing {attempt : Attempt} (h : agent'.phase = .closing attempt) :
    agent'.leaseId ∈ (s.account action agent').closed := by
  unfold account
  dsimp only
  rw [h]
  exact List.mem_append_right _ (List.mem_singleton_self _)

theorem uses_account (hu : s.Uses agent) (hl : Leased agent action agent') :
    (s.account action agent').Uses agent' := by
  cases hl with
  | same hlease haction hallocating =>
    have hallocated : (s.account action agent').allocated = s.allocated :=
      allocated_account haction
    refine ⟨hu.eval, ?_, fun attempt hphase => mem_closed_of_closing hphase, ?_, ?_⟩
    · rw [hallocated, hlease]
      exact hu.leaseId
    · intro attempt hphase
      rw [hlease]
      exact mem_closed_account (hu.closing attempt (hallocating attempt hphase))
    · rintro id ⟨hmem, hopen, hother, hdifferent⟩
      rw [hlease]
      apply hu.left
      rw [hallocated] at hmem
      exact ⟨hmem, fun hclosed => hopen (mem_closed_account hclosed), hother, hdifferent⟩
  | replaced leaseId hphase haction hlease hphase' =>
    subst haction
    have hclosed : agent.leaseId ∈ s.closed := hu.allocating _ hphase
    refine ⟨hu.eval, ?_, ?_, ?_, ?_⟩
    · rw [hlease]
      exact List.mem_append_right _ (List.mem_singleton_self _)
    · intro attempt hclosing
      rw [hphase'] at hclosing
      cases hclosing
    · intro attempt hallocating
      rw [hphase'] at hallocating
      cases hallocating
    · rintro id ⟨hmem, hopen, hother, hdifferent⟩
      rw [hlease]
      rcases List.mem_append.mp hmem with hold | hnew
      · have hleft : id ∈ s.left :=
          ⟨hold, fun hid => hopen (mem_closed_account hid), hother, hdifferent⟩
        have hsame : id = agent.leaseId := hu.left id hleft
        rw [hsame] at hopen
        exact absurd (mem_closed_account hclosed) hopen
      · exact List.mem_singleton.mp hnew

/-- The agent ends, and its calls have changed nothing in this step. -/
theorem left_account (hl : Leased agent action agent')
    (hphase : ∀ attempt r, agent'.phase ≠ .recovered attempt r)
    (hclosing : ∀ attempt, agent'.phase ≠ .closing attempt) :
    (s.account action agent').left = s.left := by
  cases hl with
  | same hlease haction hallocating =>
    exact left_congr (allocated_account haction) (closed_account hclosing) rfl rfl
  | replaced leaseId _ haction hlease hphase' => exact absurd hphase' (hphase _ _)

theorem Passes.of_left {t : GenerateRun ε} (h : t.Passes s') (hleft : t.left = s.left) :
    s.Passes s' := ⟨h.after, h.phased, h.left.trans hleft⟩

/-- Where the agent runs, it goes on or its run ends. -/
theorem uses_or_passes (hphase : s.phase = .running agent) (hu : s.Uses agent)
    (hs : s.step p a = some s') :
    (∃ agent', s'.phase = .running agent' ∧ s'.Uses agent') ∨ s.Passes s' := by
  cases a with
  | agent action =>
    simp only [step, hphase] at hs
    split_ifs at hs
    obtain ⟨agent', hstep, rfl⟩ := Option.map_eq_some_iff.mp hs
    have hl : Leased agent action agent' := leased_step hstep
    have hkeep := uses_account hu hl
    unfold follow
    cases hphase' : agent'.phase with
    | returned =>
      have hleft := left_account (s := s) hl (by rw [hphase']; exact nofun)
        (by rw [hphase']; exact nofun)
      exact .inr ((passes_afterAgent hkeep.eval).of_left hleft)
    | raised error =>
      have hleft := left_account (s := s) hl (by rw [hphase']; exact nofun)
        (by rw [hphase']; exact nofun)
      exact .inr ((passes_cleanUp _).of_left hleft)
    | cancelled =>
      have hleft := left_account (s := s) hl (by rw [hphase']; exact nofun)
        (by rw [hphase']; exact nofun)
      exact .inr ((passes_cleanUp _).of_left hleft)
    | top | waiting | checkpointing | executing | rerunning | closing | allocating | recovered
    | diffing | collecting =>
      exact .inl ⟨agent', rfl, ⟨hkeep.eval, hkeep.leaseId, hkeep.closing, hkeep.allocating,
        hkeep.left⟩⟩
  | agentTimeout =>
    simp only [step, hphase] at hs
    cases hs
    exact .inr (passes_cleanUp _)
  | admission | acquire | allocate | attach | close | detach | evaluate | finish =>
    simp only [step, hphase] at hs
    cases hs

theorem uses_begin (ha : s.allocated = [leaseId]) (he : s.evalLeaseId = none) :
    (s.startAgent p leaseId).Uses (p.agent.begin leaseId) := by
  refine ⟨he, ?_, ?_, ?_, ?_⟩
  · change leaseId ∈ s.allocated
    rw [ha]
    exact List.mem_singleton_self _
  · intro attempt hphase
    cases hphase
  · intro attempt hphase
    cases hphase
  · rintro id ⟨hmem, -, -, -⟩
    change id ∈ s.allocated at hmem
    rw [ha] at hmem
    exact List.mem_singleton.mp hmem

theorem left_eq_empty (h : ∀ leaseId ∈ s.allocated, s.leaseId = some leaseId) : s.left = ∅ := by
  rw [Set.eq_empty_iff_forall_notMem]
  rintro id ⟨hmem, -, hother, -⟩
  exact hother (h id hmem)

/-- The task is cancelled before there is a lease. -/
theorem phased_endedEarly (hp : s.allocated = [] ∧ s.leaseId = none ∧ s.evalLeaseId = none) :
    ({ s with phase := .ended true } : GenerateRun ε).Phased := by
  refine ⟨?_, ?_⟩
  · change s.IsClosed s.leaseId
    rw [hp.2.1]
    exact isClosed_none
  · change s.IsClosed s.evalLeaseId
    rw [hp.2.2]
    exact isClosed_none

/-- The phases before the agent's run. -/
theorem phased_before (h : s.phase.isAfter = false) (hr : ∀ agent, s.phase ≠ .running agent)
    (hp : s.Phased) (hs : s.step p a = some s') :
    s'.Phased ∧ (s'.phase.isAfter = true → s'.left = ∅) := by
  unfold Phased at hp
  have hpass : ∀ t : GenerateRun ε, s.Passes t → s.left = ∅ →
      t.Phased ∧ (t.phase.isAfter = true → t.left = ∅) :=
    fun t ht hempty => ⟨ht.phased, fun _ => ht.left.trans hempty⟩
  have hnothing : s.allocated = [] → s.left = ∅ := by
    intro hnone
    apply left_eq_empty
    intro id hmem
    rw [hnone] at hmem
    cases hmem
  cases hphase : s.phase with
  | admitting =>
    rw [hphase] at hp
    cases a with
    | admission result =>
      simp only [step, hphase] at hs
      split at hs
      · cases hs
        exact ⟨hp, nofun⟩
      · cases hs
        exact ⟨phased_endedEarly hp, fun _ => hnothing hp.1⟩
      · cases hs
        exact ⟨hp, nofun⟩
      · cases hs
    | acquire | allocate | attach | agent | agentTimeout | close | detach | evaluate | finish =>
      simp only [step, hphase] at hs
      cases hs
  | acquiring =>
    rw [hphase] at hp
    cases a with
    | acquire result =>
      simp only [step, hphase] at hs
      split at hs
      · cases hs
        exact ⟨hp, nofun⟩
      · cases hs
        exact ⟨phased_endedEarly hp, fun _ => hnothing hp.1⟩
      · rename_i hother
        cases hother
      · rename_i hother
        cases hother
      · cases hs
    | admission | allocate | attach | agent | agentTimeout | close | detach | evaluate | finish =>
      simp only [step, hphase] at hs
      cases hs
  | allocating =>
    rw [hphase] at hp
    obtain ⟨hallocated, hlease, heval⟩ := hp
    cases a with
    | allocate result =>
      cases result with
      | ok leaseId =>
        simp only [step, hphase] at hs
        split_ifs at hs
        cases hs
        unfold allocateFirst
        dsimp only
        rw [hallocated]
        split_ifs
        · exact ⟨⟨rfl, rfl, heval⟩, nofun⟩
        · exact ⟨uses_begin rfl heval, nofun⟩
      | error raised =>
        simp only [step, hphase] at hs
        cases hs
        exact hpass _ (passes_cleanUp _) (hnothing hallocated)
    | admission | acquire | attach | agent | agentTimeout | close | detach | evaluate | finish =>
      simp only [step, hphase] at hs
      cases hs
  | attaching leaseId =>
    rw [hphase] at hp
    obtain ⟨hallocated, hlease, heval⟩ := hp
    have hempty : s.left = ∅ := by
      apply left_eq_empty
      intro id hmem
      rw [hallocated] at hmem
      rw [hlease, List.mem_singleton.mp hmem]
    cases a with
    | attach result =>
      simp only [step, hphase] at hs
      split at hs
      · cases hs
        exact hpass _ (passes_cleanUp _) hempty
      · rename_i hsame _
        cases hs
        cases hsame
        exact ⟨uses_begin hallocated heval, nofun⟩
      · rename_i hother
        cases hother
      · rename_i hother _
        cases hother
      · cases hs
    | admission | acquire | allocate | agent | agentTimeout | close | detach | evaluate | finish =>
      simp only [step, hphase] at hs
      cases hs
  | running agent => exact absurd hphase (hr agent)
  | closingAgent | detachingAgent | acquiringEval | allocatingEval | attachingEval | evaluating
  | closingEval | detachingEval | cleaningEval | cleaningEvalDetach | cleaning | cleaningDetach
  | finishing | ended =>
    rw [hphase] at h
    cases h

theorem Phased.uses {agent : AgentRun ε} (hp : s.Phased) (hphase : s.phase = .running agent) :
    s.Uses agent := by
  unfold Phased at hp
  rw [hphase] at hp
  exact hp

/-- Until the agent's run is over no lease is lost but the one that the agent uses. -/
theorem phased_step (hp : s.Phased) (hs : s.step p a = some s') : s'.Phased := by
  cases hafter : s.phase.isAfter with
  | true => exact (passes_step hafter hp hs).phased
  | false =>
    by_cases hrunning : ∃ agent, s.phase = .running agent
    · obtain ⟨agent, hphase⟩ := hrunning
      have huses : s.Uses agent := hp.uses hphase
      rcases uses_or_passes hphase huses hs with ⟨agent', hphase', huses'⟩ | hpasses
      · unfold Phased
        rw [hphase']
        exact huses'
      · exact hpasses.phased
    · have hr : ∀ agent, s.phase ≠ .running agent := fun agent h => hrunning ⟨agent, h⟩
      exact (phased_before hafter hr hp hs).1

theorem left_of_known {agent : AgentRun ε} (hphase : s.phase = .running agent)
    (hu : s.Uses agent) : s.left = ∅ ↔ s.Known := by
  rw [Set.eq_empty_iff_forall_notMem]
  constructor
  · intro hnone other hother
    obtain rfl : agent = other := GeneratePhase.running.inj (hphase.symm.trans hother)
    by_contra hunknown
    obtain ⟨hdifferent, hopen⟩ := not_or.mp hunknown
    apply hnone agent.leaseId
    refine ⟨hu.leaseId, hopen, hdifferent, ?_⟩
    rw [hu.eval]
    exact nofun
  · intro hknown id hleft
    have hsame : id = agent.leaseId := hu.left id hleft
    obtain ⟨-, hopen, hdifferent, -⟩ := hleft
    rw [hsame] at hopen hdifferent
    exact (hknown agent hphase).elim hdifferent hopen

/-- A step that the condition allows loses no lease. -/
theorem left_step (hp : s.Phased) (hempty : s.phase.isAfter = true → s.left = ∅)
    (hg : Hands p s a) (hs : s.step p a = some s') : s'.phase.isAfter = true → s'.left = ∅ := by
  intro hafter'
  cases hafter : s.phase.isAfter with
  | true => exact (passes_step hafter hp hs).left.trans (hempty hafter)
  | false =>
    by_cases hrunning : ∃ agent, s.phase = .running agent
    · obtain ⟨agent, hphase⟩ := hrunning
      have huses : s.Uses agent := hp.uses hphase
      rcases uses_or_passes hphase huses hs with ⟨agent', hphase', -⟩ | hpasses
      · rw [hphase'] at hafter'
        cases hafter'
      · have hknown : s.Known := by
          apply hg s' hs
          intro agent' hphase'
          rw [hphase'] at hafter'
          cases hafter'
        exact hpasses.left.trans ((left_of_known hphase huses).mpr hknown)
    · have hr : ∀ agent, s.phase ≠ .running agent := fun agent h => hrunning ⟨agent, h⟩
      exact (phased_before hafter hr hp hs).2 hafter'

/-- A step that the condition does not allow loses the lease of the agent for good. -/
theorem left_lost (hp : s.Phased) (hg : ¬Hands p s a) (hs : s.step p a = some s') :
    s'.phase.isAfter = true ∧ s'.left ≠ ∅ := by
  unfold Hands at hg
  push Not at hg
  obtain ⟨t, ht, hended, hunknown⟩ := hg
  obtain rfl : s' = t := Option.some.inj (hs.symm.trans ht)
  have hrunning : ∃ agent, s.phase = .running agent := by
    by_contra hnone
    apply hunknown
    intro agent hphase
    exact absurd ⟨agent, hphase⟩ hnone
  obtain ⟨agent, hphase⟩ := hrunning
  have huses : s.Uses agent := hp.uses hphase
  rcases uses_or_passes hphase huses hs with ⟨agent', hphase', -⟩ | hpasses
  · exact absurd hphase' (hended agent')
  · refine ⟨hpasses.after, ?_⟩
    rw [hpasses.left]
    intro hempty
    exact hunknown ((left_of_known hphase huses).mp hempty)

theorem released_of_left {isCancelled : Bool} (hp : s.Phased) (h : s.phase = .ended isCancelled) :
    s.Released ↔ s.left = ∅ := by
  unfold Phased at hp
  rw [h] at hp
  rw [Set.eq_empty_iff_forall_notMem]
  constructor
  · rintro hreleased id ⟨hmem, hopen, -, -⟩
    exact hopen (hreleased id hmem)
  · intro hnone id hmem
    by_contra hopen
    apply hnone id
    exact ⟨hmem, hopen, fun hlease => hopen (hp.1 id hlease), fun heval => hopen (hp.2 id heval)⟩

theorem phased_begin : (begin p : GenerateRun ε).Phased := by
  unfold begin Phased
  split_ifs
  · exact ⟨rfl, rfl, rfl⟩
  · exact ⟨rfl, rfl, rfl⟩

theorem isAfter_begin : (begin p : GenerateRun ε).phase.isAfter = false := by
  unfold begin
  split_ifs <;> rfl

/-- When `_generate_impl` has ended, every lease has been passed to `close` iff the agent's run has
ended with a lease that `_generate_impl` knows or that the agent has closed. -/
theorem released_iff_hands (p : GenerateParams) (run : List (GenerateAction ε)) (t : GenerateRun ε)
    (h : exec (step p) (begin p) run = some t) (hended : t.IsEnded) :
    t.Released ↔ Meets (step p) (Hands p) (begin p) run := by
  obtain ⟨isCancelled, hphase⟩ := hended
  have hphased : t.Phased := exec_invariant (fun _ _ _ hp hs => phased_step hp hs) phased_begin h
  have hafter : t.phase.isAfter = true := by
    rw [hphase]
    rfl
  rw [released_of_left hphased hphase]
  constructor
  · intro hempty
    by_contra hviolated
    have hdoomed := exec_doomed (H := fun _ _ => True)
      (I := Phased) (D := fun s : GenerateRun ε => s.phase.isAfter = true ∧ s.left ≠ ∅)
      (fun _ _ _ hp hs => phased_step hp hs) (fun _ _ _ hp hg hs => left_lost hp hg hs)
      (fun s a s' hp hd _ hs => by
        have hpasses := passes_step hd.1 hp hs
        refine ⟨hpasses.after, ?_⟩
        rw [hpasses.left]
        exact hd.2)
      phased_begin (.inr hviolated) (meets_of_forall (fun _ _ => trivial) _ _) h
    exact hdoomed.2 hempty
  · intro hmeets
    have hinvariant := along_of_meets
      (I := fun s : GenerateRun ε => s.Phased ∧ (s.phase.isAfter = true → s.left = ∅))
      (fun s a s' hi hg hs => ⟨phased_step hi.1 hs, left_step hi.1 hi.2 hg hs⟩)
      ⟨phased_begin, fun hbefore => by rw [isAfter_begin] at hbefore; cases hbefore⟩ hmeets
    exact (hinvariant.last h).2 hafter

open Timeline (eagerParams)

def plainParams : GenerateParams := ⟨eagerParams, false, "2400.0", "2400.0"⟩

/-- A fault in the first command, recovered from the base. -/
def restartRun : List (GenerateAction String) :=
  [.acquire (.ok ()), .allocate (.ok "l1"), .agent (.heartbeat none),
    .agent (.complete (.ok "```bash\nls\n```") 1), .agent (.exec (.faultInjected 1)),
    .agent (.close none), .agent (.allocate (.ok "l2")), .agent (.heartbeat none)]

instance (s : GenerateRun ε) : Decidable s.IsEnded :=
  match h : s.phase with
  | .ended isCancelled => .isTrue ⟨isCancelled, h⟩
  | .admitting | .acquiring | .allocating | .attaching _ | .running _ | .closingAgent
  | .detachingAgent | .acquiringEval | .allocatingEval | .attachingEval | .evaluating
  | .closingEval _ | .detachingEval _ | .cleaningEval _ | .cleaningEvalDetach _ | .cleaning _
  | .cleaningDetach _ | .finishing _ _ =>
    .isFalse fun hended => by
      obtain ⟨isCancelled, hphase⟩ := hended
      rw [h] at hphase
      cases hphase

instance (s : GenerateRun ε) : Decidable s.Released :=
  inferInstanceAs (Decidable (∀ leaseId ∈ s.allocated, leaseId ∈ s.closed))

/-- In a second recovery the agent closes the lease that it got in the first. -/
def closedRun : List (GenerateAction String) :=
  restartRun ++ [.agent (.heartbeat none), .agent (.complete (.ok "```bash\nls\n```") 1),
    .agent (.exec (.faultInjected 1)), .agent (.close none),
    .agent (.allocate (.error ⟨"no slot", 2⟩)),
    .agent (.heartbeat (some ⟨"Unknown lease_id", 0⟩)), .close (.ok ())]

theorem released_iff_hands_closedRun :
    ∃ t ∈ exec (step plainParams) (begin plainParams) closedRun,
      t.Released ↔ Meets (step plainParams) (Hands plainParams) (begin plainParams) closedRun := by
  obtain ⟨t, ht, hended⟩ :
      ∃ t ∈ exec (step plainParams) (begin plainParams) closedRun, t.IsEnded := by
    decide +kernel
  exact ⟨t, ht, released_iff_hands plainParams closedRun t ht hended⟩

/-- The agent times out on the lease that it got in a recovery; the lease is never closed. -/
theorem released_fails :
    ∃ t ∈ exec (step plainParams) (begin plainParams)
        (restartRun ++ [.agentTimeout, .close (.ok ())]),
      t.IsEnded ∧ "l2" ∈ t.allocated ∧ "l2" ∉ t.closed ∧ ¬t.Released := by
  decide +kernel

end GenerateRun

end Belayer.Agent
