import Belayer.Agent.RunAgentRemote
import Belayer.Framework.Dated

namespace Belayer.Agent

open Belayer.Framework

variable {ε : Type*}

/-- A completed turn of the agent, with what has been recorded of its command. -/
structure Turn (ε : Type*) where
  context : List Message
  text : String
  observation : String
  debug? : Option (StepDebug ε)
  task? : Option (PrmTask ε)

def Turn.messages (turn : Turn ε) : List Message :=
  [⟨.assistant, turn.text⟩, ⟨.user, turn.observation⟩]

/-- The five lists are five views of one list of turns. -/
def trajectoryOf (p : AgentParams) (turns : List (Turn ε)) : Trajectory ε :=
  ⟨p.initialMessages ++ turns.flatMap Turn.messages, turns.filterMap Turn.debug?,
    turns.filterMap Turn.task?, turns.map Turn.context, turns.map Turn.text⟩

/-- What it costs to replay recorded steps. -/
def costOf (stepDebug : List (StepDebug ε)) : ReplayCost :=
  ⟨(stepDebug.map (·.elapsed)).sum, (stepDebug.map (·.llmElapsed)).sum⟩

/-- The records bear the number of their turn and are those of its command. -/
structure Recorded (p : AgentParams) (turns : List (Turn ε)) : Prop where
  steps : DatedFrom StepDebug.stepIdx Turn.debug? 0 turns
  tasks : DatedFrom PrmTask.stepIdx Turn.task? 0 turns
  commands : ∀ turn ∈ turns, p.parseBashAction turn.text = turn.debug?.map (·.action)

variable {p : AgentParams} {turns : List (Turn ε)}

theorem recorded_nil : Recorded p ([] : List (Turn ε)) :=
  ⟨trivial, trivial, fun _ h => absurd h List.not_mem_nil⟩

theorem Recorded.take (h : Recorded p turns) (r : Nat) : Recorded p (turns.take r) :=
  ⟨h.steps.take r, h.tasks.take r, fun turn ht => h.commands turn (List.mem_of_mem_take ht)⟩

theorem Recorded.append (h : Recorded p turns) {turn : Turn ε}
    (hstep : ∀ debug ∈ turn.debug?, debug.stepIdx = turns.length)
    (htask : ∀ task ∈ turn.task?, task.stepIdx = turns.length)
    (hcommand : p.parseBashAction turn.text = turn.debug?.map (·.action)) :
    Recorded p (turns ++ [turn]) := by
  have hplace : 0 + turns.length = turns.length := Nat.zero_add _
  refine ⟨datedFrom_append.mpr ⟨h.steps, ?_, trivial⟩,
    datedFrom_append.mpr ⟨h.tasks, ?_, trivial⟩, ?_⟩
  · rw [hplace]
    exact hstep
  · rw [hplace]
    exact htask
  · intro t ht
    rcases List.mem_append.mp ht with ht | ht
    · exact h.commands t ht
    · rw [List.mem_singleton.mp ht]
      exact hcommand

/-- Twice as many messages as turns. -/
theorem take_flatMap_messages (turns : List (Turn ε)) (r : Nat) :
    (turns.flatMap Turn.messages).take (2 * r) = (turns.take r).flatMap Turn.messages := by
  induction turns generalizing r with
  | nil => simp
  | cons turn turns ih =>
    cases r with
    | zero => rfl
    | succ r =>
      have htwo : 2 * (r + 1) = 2 * r + 1 + 1 := by omega
      rw [List.flatMap_cons, List.take_succ_cons, List.flatMap_cons, htwo]
      unfold Turn.messages at ih ⊢
      rw [List.cons_append, List.cons_append, List.nil_append, List.take_succ_cons,
        List.take_succ_cons, ih]
      rfl

theorem length_flatMap_messages (turns : List (Turn ε)) :
    (turns.flatMap Turn.messages).length = 2 * turns.length := by
  induction turns with
  | nil => rfl
  | cons turn turns ih =>
    rw [List.flatMap_cons, List.length_append, ih, List.length_cons]
    change 2 + _ = _
    omega

theorem trimMessages_initial (p : AgentParams) (messages : List Message) (r : Nat) :
    trimMessagesForResume (p.initialMessages ++ messages) r =
      p.initialMessages ++ messages.take (2 * r) := by
  have hkeep : max 2 (2 + 2 * r) = p.initialMessages.length + 2 * r := by
    change max 2 (2 + 2 * r) = 2 + 2 * r
    omega
  unfold trimMessagesForResume
  rw [hkeep, List.take_length_add_append]

/-- Trimming the views cuts the list of turns. -/
theorem trim_trajectoryOf (h : Recorded p turns) (r : Nat) :
    (trajectoryOf p turns).trim r = trajectoryOf p (turns.take r) := by
  unfold Trajectory.trim trajectoryOf
  rw [trimMessages_initial, take_flatMap_messages, ← List.map_take, ← List.map_take]
  unfold trimStepDebugForResume trimPendingPrmTasksForResume
  rw [h.steps.filter_lt r, h.tasks.filter_lt r]

/-- The reply of a turn that is not completed is trimmed away with the rest. -/
theorem trim_addReply (h : Recorded p turns) {r : Nat} (hr : r ≤ turns.length)
    (context : List Message) (text : String) :
    ((trajectoryOf p turns).addReply context text).trim r = trajectoryOf p (turns.take r) := by
  have htrim := trim_trajectoryOf h r
  have hmessages : trimMessagesForResume
      ((trajectoryOf p turns).messages ++ [⟨.assistant, text⟩]) r =
        trimMessagesForResume (trajectoryOf p turns).messages r := by
    unfold trajectoryOf
    dsimp only
    rw [List.append_assoc, trimMessages_initial, trimMessages_initial, List.take_append_of_le_length]
    rw [length_flatMap_messages]
    omega
  have hcontexts : ((trajectoryOf p turns).managedContexts ++ [context]).take r =
      (trajectoryOf p turns).managedContexts.take r :=
    List.take_append_of_le_length (by simpa [trajectoryOf] using hr)
  have htexts : ((trajectoryOf p turns).assistantTexts ++ [text]).take r =
      (trajectoryOf p turns).assistantTexts.take r :=
    List.take_append_of_le_length (by simpa [trajectoryOf] using hr)
  rw [← htrim]
  unfold Trajectory.trim Trajectory.addReply
  dsimp only
  rw [hmessages, hcontexts, htexts]

theorem costOf_append (l : List (StepDebug ε)) (debug : StepDebug ε) :
    costOf (l ++ [debug]) =
      ⟨(costOf l).env + debug.elapsed, (costOf l).llm + debug.llmElapsed⟩ := by
  unfold costOf
  rw [List.map_append, List.map_append, List.sum_append, List.sum_append]
  simp

/-- The records of the turns and the costs of a run at a step. -/
structure Kept (p : AgentParams) (n : Nat) (s : AgentRun ε) (turns : List (Turn ε)) : Prop where
  recorded : Recorded p turns
  length : turns.length = n
  cost : s.checkpointState.cumulativeReplay = costOf (turns.filterMap Turn.debug?)
  resume : s.checkpointState.latestReadyResumeStepIdx ≤ n
  protects : s.checkpointState.latestReadyProtected =
    costOf ((turns.take s.checkpointState.latestReadyResumeStepIdx).filterMap Turn.debug?)

/-- The loop has been left. -/
def AgentPhase.isOver : AgentPhase → Bool
  | .diffing | .collecting | .returned | .raised _ | .cancelled => true
  | _ => false

/-- The heartbeat after a recovery is awaited. -/
def AgentPhase.isRecovered : AgentPhase → Bool
  | .recovered _ _ => true
  | _ => false

/-- The run is at the end of these turns, or in the turn that follows them. -/
def Followed (p : AgentParams) (s : AgentRun ε) (turns : List (Turn ε)) : Prop :=
  match s.phase with
  | .top => Kept p s.stepIdx s turns ∧ s.trajectory = trajectoryOf p turns
  | .waiting context _ | .checkpointing context _ _ =>
    Kept p s.stepIdx s turns ∧ s.trajectory = trajectoryOf p turns ∧
      context = p.getContextMessages (trajectoryOf p turns).messages
  | .executing attempt | .rerunning attempt | .closing attempt | .allocating attempt =>
    Kept p s.stepIdx s turns ∧ p.parseBashAction attempt.text = some attempt.command ∧
      ∃ context, s.trajectory = (trajectoryOf p turns).addReply context attempt.text
  | .recovered _ resumeStepIdx =>
    Kept p resumeStepIdx s turns ∧ s.trajectory = trajectoryOf p turns ∧
      s.checkpointState.latestReadyResumeStepIdx = resumeStepIdx
  | .diffing | .collecting | .returned | .raised _ | .cancelled => True

/-- The calls of a recovery succeed, by the checkpoint or from the base. -/
def Recovers (p : AgentParams) (s : AgentRun ε) : AgentAction ε → Prop
  | .exec (.faultInjected _) => p.hasDockerCreateLimiter = true
  | .rerun (.error _) | .close (some _) | .allocate (.error _) => False
  | .heartbeat (some _) => s.phase.isRecovered = false
  | _ => True

/-- The heartbeat after a recovery succeeds. -/
def Resumes (s : AgentRun ε) : AgentAction ε → Prop
  | .heartbeat (some _) => s.phase.isRecovered = false
  | _ => True

/-- What a step does to the turns. -/
inductive Turned (s : AgentRun ε) (a : AgentAction ε) (s' : AgentRun ε) (turns : List (Turn ε)) :
    List (Turn ε) → Prop
  | kept (h : s'.phase ≠ .top) : Turned s a s' turns turns
  | reached {attempt : Attempt} {r : Nat} (hs : s.phase = .recovered attempt r)
      (ha : a = .heartbeat none) (hi : s'.stepIdx = r) : Turned s a s' turns turns
  | added (turn : Turn ε) (hs : s.phase.isRecovered = false)
      (h : s'.phase = .top) : Turned s a s' turns (turns ++ [turn])
  | cut (r : Nat) (h : s'.phase ≠ .top) : Turned s a s' turns (turns.take r)

variable {s s' : AgentRun ε} {a : AgentAction ε}

/-- The steps of the coroutine: where each starts, and what it makes of the run. -/
inductive AgentRun.Stepped (p : AgentParams) (s : AgentRun ε) : AgentAction ε → AgentRun ε → Prop
  | left (hs : s.phase = .top) (hi : ¬s.stepIdx < p.stepLimit) :
      Stepped p s .leave (s.afterLoop p)
  | asked (hs : s.phase = .top) (hi : s.stepIdx < p.stepLimit) :
      Stepped p s (.heartbeat none) { s with
        nSteps := max s.nSteps (s.stepIdx + 1)
        phase := .waiting (p.getContextMessages s.trajectory.messages) .start }
  | lapsed (failure : Failure) (hs : s.phase = .top) (hi : s.stepIdx < p.stepLimit) :
      Stepped p s (.heartbeat (some failure)) { s with
        nSteps := max s.nSteps (s.stepIdx + 1)
        phase := .raised failure.error }
  | resumed {attempt : Attempt} {r : Nat} (hs : s.phase = .recovered attempt r) :
      Stepped p s (.heartbeat none) { s with stepIdx := r, phase := .top }
  | resumeFailed {attempt : Attempt} {r : Nat} (failure : Failure)
      (hs : s.phase = .recovered attempt r) :
      Stepped p s (.heartbeat (some failure)) (s.failStep p attempt failure none)
  | attemptedFixed {context : List Message} {wait : LlmWait} (hs : s.phase = .waiting context wait)
      (hdue : p.fixedPolicyIsDue s wait = true) :
      Stepped p s .attemptFixed { s with
        checkpointState := { s.checkpointState with
          lastFixedPolicyCheckpointAttemptStepIdx := s.stepIdx - 1 }
        phase := .checkpointing context { wait with fixedPolicyCheckpointAttempted := true }
          false }
  | attemptedAdaptive {context : List Message} {wait : LlmWait}
      (hs : s.phase = .waiting context wait) (hallowed : p.adaptiveIsAllowed s wait = true) :
      Stepped p s .attemptAdaptive { s with
        phase := .checkpointing context { wait with probeAttemptedInBubble := true } true }
  | checkpointed {context : List Message} {wait : LlmWait} {isAdaptive : Bool}
      (result : CheckpointResult) (hs : s.phase = .checkpointing context wait isAdaptive) :
      Stepped p s (.checkpoint result) (s.endCheckpoint p context wait isAdaptive result)
  | replied {context : List Message} {wait : LlmWait} (text : String) (elapsed : ℚ)
      (hs : s.phase = .waiting context wait) :
      Stepped p s (.complete (.ok text) elapsed) (s.takeReply p context text elapsed)
  | callFailed {context : List Message} {wait : LlmWait} (error : String) (elapsed : ℚ)
      (hs : s.phase = .waiting context wait) :
      Stepped p s (.complete (.error error) elapsed) (AgentRun.afterLoop p { s with
        error := some ("LLM call failed at step " ++ toString s.stepIdx ++ ": " ++ error) })
  | executed {attempt : Attempt} (result : ExecResult ε) (hs : s.phase = .executing attempt) :
      Stepped p s (.exec result) (s.endExec p attempt result)
  | rerun {attempt : Attempt} (result : Except Failure Bool) (hs : s.phase = .rerunning attempt) :
      Stepped p s (.rerun result) (s.endRerun p attempt result)
  | closed {attempt : Attempt} (hs : s.phase = .closing attempt) :
      Stepped p s (.close none) { s with phase := .allocating attempt }
  | closeFailed {attempt : Attempt} (failure : Failure) (hs : s.phase = .closing attempt) :
      Stepped p s (.close (some failure)) (s.failStep p attempt failure none)
  | allocated {attempt : Attempt} (leaseId : String) (hs : s.phase = .allocating attempt) :
      Stepped p s (.allocate (.ok leaseId))
        (AgentRun.resume { s with checkpointState := .start } attempt leaseId 0)
  | allocateFailed {attempt : Attempt} (failure : Failure) (hs : s.phase = .allocating attempt) :
      Stepped p s (.allocate (.error failure)) (s.failStep p attempt failure none)
  | diffed (result : Except String String) (hs : s.phase = .diffing) :
      Stepped p s (.diff result) (s.endDiff p result)
  | collected (hs : s.phase = .collecting) :
      Stepped p s (.collect none) { s with phase := .returned }
  | collectFailed (error : String) (hs : s.phase = .collecting) :
      Stepped p s (.collect (some error)) { s with phase := .raised error }
  | cancelled (hr : s.phase ≠ .returned) (he : ∀ error, s.phase ≠ .raised error)
      (hc : s.phase ≠ .cancelled) : Stepped p s .cancel { s with phase := .cancelled }

theorem AgentRun.stepped_of_step (h : s.step p a = some s') : s.Stepped p a s' := by
  cases a with
  | leave =>
    simp only [AgentRun.step] at h
    split at h
    · rename_i hs
      split_ifs at h with hi
      cases h
      exact .left hs hi
    · cases h
  | heartbeat failure? =>
    simp only [AgentRun.step] at h
    split at h
    · rename_i hs
      split_ifs at h with hi
      cases h
      exact .asked hs hi
    · rename_i failure hs
      split_ifs at h with hi
      cases h
      exact .lapsed failure hs hi
    · rename_i hs
      cases h
      exact .resumed hs
    · rename_i failure hs
      cases h
      exact .resumeFailed failure hs
    · cases h
  | attemptFixed =>
    simp only [AgentRun.step] at h
    split at h
    · rename_i hs
      split_ifs at h with hdue
      cases h
      exact .attemptedFixed hs hdue
    · cases h
  | attemptAdaptive =>
    simp only [AgentRun.step] at h
    split at h
    · rename_i hs
      split_ifs at h with hallowed
      cases h
      exact .attemptedAdaptive hs hallowed
    · cases h
  | checkpoint result =>
    simp only [AgentRun.step] at h
    split at h
    · rename_i hs
      cases h
      exact .checkpointed result hs
    · cases h
  | complete reply elapsed =>
    simp only [AgentRun.step] at h
    split at h
    · rename_i text hs
      cases h
      exact .replied text elapsed hs
    · rename_i error hs
      cases h
      exact .callFailed error elapsed hs
    · cases h
  | exec result =>
    simp only [AgentRun.step] at h
    split at h
    · rename_i hs
      cases h
      exact .executed result hs
    · cases h
  | rerun result =>
    simp only [AgentRun.step] at h
    split at h
    · rename_i hs
      cases h
      exact .rerun result hs
    · cases h
  | close failure? =>
    simp only [AgentRun.step] at h
    split at h
    · rename_i hs
      cases h
      exact .closed hs
    · rename_i failure hs
      cases h
      exact .closeFailed failure hs
    · cases h
  | allocate result =>
    simp only [AgentRun.step] at h
    split at h
    · rename_i leaseId hs
      cases h
      exact .allocated leaseId hs
    · rename_i failure hs
      cases h
      exact .allocateFailed failure hs
    · cases h
  | diff result =>
    simp only [AgentRun.step] at h
    split at h
    · rename_i hs
      cases h
      exact .diffed result hs
    · cases h
  | collect error? =>
    simp only [AgentRun.step] at h
    split at h
    · rename_i hs
      cases h
      exact .collected hs
    · rename_i error hs
      cases h
      exact .collectFailed error hs
    · cases h
  | cancel =>
    simp only [AgentRun.step] at h
    split at h
    · cases h
    · cases h
    · cases h
    · rename_i hr he hc
      cases h
      exact .cancelled hr he hc

theorem Recovers.resumes (h : Recovers p s a) : Resumes s a := by
  cases a with
  | heartbeat failure? =>
    cases failure? with
    | none => trivial
    | some failure => exact h
  | leave | attemptFixed | attemptAdaptive | checkpoint | complete | exec | rerun | close
  | allocate | diff | collect | cancel => trivial

theorem followed_of_isOver (h : s.phase.isOver = true) : Followed p s turns := by
  unfold Followed
  cases hp : s.phase <;> first | trivial | (rw [hp] at h; cases h)

theorem isOver_finish : (s.finish p).phase.isOver = true := by
  unfold AgentRun.finish
  split_ifs <;> rfl

theorem isOver_afterLoop : (s.afterLoop p).phase.isOver = true := by
  unfold AgentRun.afterLoop
  split_ifs
  · rfl
  · exact isOver_finish

theorem ne_top_of_isOver (h : s.phase.isOver = true) : s.phase ≠ .top := by
  intro hp
  rw [hp] at h
  cases h

theorem Kept.congr {n : Nat} (h : Kept p n s turns) (hc : s'.checkpointState = s.checkpointState) :
    Kept p n s' turns := by
  refine ⟨h.recorded, h.length, ?_, ?_, ?_⟩
  · rw [hc]
    exact h.cost
  · rw [hc]
    exact h.resume
  · rw [hc]
    exact h.protects

/-- A turn is completed. -/
theorem Kept.append {n : Nat} (h : Kept p n s turns) {turn : Turn ε}
    (hrecorded : Recorded p (turns ++ [turn]))
    (hcost : s'.checkpointState.cumulativeReplay =
      costOf ((turns ++ [turn]).filterMap Turn.debug?))
    (hresume : s'.checkpointState.latestReadyResumeStepIdx =
      s.checkpointState.latestReadyResumeStepIdx)
    (hprotects : s'.checkpointState.latestReadyProtected = s.checkpointState.latestReadyProtected) :
    Kept p (n + 1) s' (turns ++ [turn]) := by
  have hle := h.resume
  refine ⟨hrecorded, ?_, hcost, ?_, ?_⟩
  · rw [List.length_append, h.length, List.length_singleton]
  · rw [hresume]
    omega
  · rw [hprotects, hresume, List.take_append_of_le_length (by rw [h.length]; exact hle)]
    exact h.protects

/-- The views of the turns with one more. -/
theorem trajectoryOf_append (turn : Turn ε) :
    trajectoryOf p (turns ++ [turn]) =
      ⟨(trajectoryOf p turns).messages ++ turn.messages,
        (trajectoryOf p turns).stepDebug ++ turn.debug?.toList,
        (trajectoryOf p turns).prmPendingTasks ++ turn.task?.toList,
        (trajectoryOf p turns).managedContexts ++ [turn.context],
        (trajectoryOf p turns).assistantTexts ++ [turn.text]⟩ := by
  unfold trajectoryOf
  rw [List.flatMap_append, List.filterMap_append, List.filterMap_append, List.map_append,
    List.map_append, List.append_assoc]
  have hmessages : [turn].flatMap Turn.messages = turn.messages := by simp
  have hdebug : [turn].filterMap Turn.debug? = turn.debug?.toList := by
    cases h : turn.debug? <;> simp [h]
  have htask : [turn].filterMap Turn.task? = turn.task?.toList := by
    cases h : turn.task? <;> simp [h]
  rw [hmessages, hdebug, htask]
  rfl

/-- A turn without a command. -/
theorem followed_takeReply {context : List Message} {wait : LlmWait} {text : String} {elapsed : ℚ}
    (hs : s.phase = .waiting context wait) (hf : Followed p s turns) :
    ∃ turns', Followed p (s.takeReply p context text elapsed) turns' ∧
      Turned s a (s.takeReply p context text elapsed) turns turns' := by
  unfold Followed at hf
  rw [hs] at hf
  obtain ⟨hk, ht, -⟩ := hf
  unfold AgentRun.takeReply
  cases hparse : p.parseBashAction text with
  | some command =>
    refine ⟨turns, ⟨hk.congr rfl, hparse, context, ?_⟩, .kept AgentPhase.noConfusion⟩
    dsimp only
    rw [ht]
  | none =>
    dsimp only
    generalize p.renderObservation (-1) "No valid bash command found in response." = observation
    have hrecorded : Recorded p (turns ++ [⟨context, text, observation, none, none⟩]) :=
      hk.recorded.append (fun _ h => by cases h) (fun _ h => by cases h) hparse
    refine ⟨turns ++ [⟨context, text, observation, none, none⟩], ⟨hk.append hrecorded ?_ rfl rfl, ?_⟩,
      .added _ (by rw [hs]; rfl) rfl⟩
    · change s.checkpointState.cumulativeReplay = _
      rw [List.filterMap_append, hk.cost]
      simp
    · rw [trajectoryOf_append]
      dsimp only [AgentRun.next]
      rw [ht]
      unfold Trajectory.addReply Trajectory.addObservation Turn.messages
      simp

theorem steps_append (turn : Turn ε) {debug : StepDebug ε} (h : turn.debug? = some debug) :
    (turns ++ [turn]).filterMap Turn.debug? = turns.filterMap Turn.debug? ++ [debug] := by
  rw [List.filterMap_append, List.filterMap_cons_some h, List.filterMap_nil]

theorem ite_append_toList {β : Type*} {c : Prop} [Decidable c] (l : List β) (b : β) :
    (if c then l ++ [b] else l) = l ++ (if c then some b else none).toList := by
  split_ifs
  · rfl
  · exact (List.append_nil l).symm

/-- A turn whose command has been executed, or has failed. -/
theorem followed_recordStep {attempt : Attempt} {context : List Message} {returncode : Int}
    {output : String} {elapsed : ℚ} {effect? : Option ε} (hk : Kept p s.stepIdx s turns)
    (hcommand : p.parseBashAction attempt.text = some attempt.command)
    (ht : s.trajectory = (trajectoryOf p turns).addReply context attempt.text)
    (hs : s.phase.isRecovered = false) :
    ∃ turns', Followed p (s.recordStep p attempt returncode output elapsed effect?) turns' ∧
      Turned s a (s.recordStep p attempt returncode output elapsed effect?) turns turns' := by
  unfold AgentRun.recordStep
  dsimp only
  rw [ite_append_toList]
  generalize hdebug : (⟨s.stepIdx, attempt.command, returncode, output, elapsed,
    attempt.llmElapsed, effect?⟩ : StepDebug ε) = debug
  have hdate : debug.stepIdx = turns.length := by
    rw [← hdebug, hk.length]
  have haction : debug.action = attempt.command := by
    rw [← hdebug]
  generalize htask : (if p.hasPrmAgent = true ∧
      ¬(isSubmit attempt.command = true ∧ p.skipSubmit = true) then
    some (⟨s.stepIdx, s.trajectory.stepDebug ++ [debug], attempt.text⟩ : PrmTask ε) else none) =
      task?
  have htaskdate : ∀ task ∈ task?, task.stepIdx = turns.length := by
    intro task hmem
    rw [← htask] at hmem
    split_ifs at hmem
    · rw [← Option.some.inj hmem, hk.length]
    · cases hmem
  split_ifs with hsubmit
  · exact ⟨turns, followed_of_isOver isOver_afterLoop, .kept (ne_top_of_isOver isOver_afterLoop)⟩
  · generalize p.renderObservation returncode output ++
      reminder ((p.stepLimit : Int) - (s.stepIdx + 1)) = observation
    have hrecorded : Recorded p
        (turns ++ [⟨context, attempt.text, observation, some debug, task?⟩]) := by
      refine hk.recorded.append ?_ htaskdate ?_
      · intro d hd
        rw [← Option.some.inj hd]
        exact hdate
      · rw [hcommand, Option.map_some, haction]
    refine ⟨_, ⟨hk.append hrecorded ?_ rfl rfl, ?_⟩, .added _ hs rfl⟩
    · rw [steps_append _ rfl, costOf_append, ← hk.cost, ← hdebug]
      rfl
    · rw [trajectoryOf_append]
      dsimp only [AgentRun.next]
      rw [ht]
      unfold Trajectory.addReply Trajectory.addObservation Turn.messages
      simp

/-- The costs that a checkpoint protects are those of the steps before it. -/
theorem Kept.ready {n : Nat} (h : Kept p n s turns) {checkpointId : String} {step : Int}
    (hc : s'.checkpointState = s.checkpointState.ready checkpointId step n) :
    Kept p n s' turns := by
  refine ⟨h.recorded, h.length, ?_, ?_, ?_⟩
  · rw [hc]
    exact h.cost
  · rw [hc]
    exact le_rfl
  · rw [hc]
    change s.checkpointState.cumulativeReplay = costOf ((turns.take n).filterMap Turn.debug?)
    rw [List.take_of_length_le h.length.le]
    exact h.cost

theorem followed_endCheckpoint {context : List Message} {wait : LlmWait} {isAdaptive : Bool}
    {result : CheckpointResult} (hs : s.phase = .checkpointing context wait isAdaptive)
    (hf : Followed p s turns) :
    ∃ turns', Followed p (s.endCheckpoint p context wait isAdaptive result) turns' ∧
      Turned s a (s.endCheckpoint p context wait isAdaptive result) turns turns' := by
  unfold Followed at hf
  rw [hs] at hf
  obtain ⟨hk, ht, hcontext⟩ := hf
  cases result with
  | created checkpointId stepIdx =>
    exact ⟨turns, ⟨hk.ready rfl, ht, hcontext⟩, .kept AgentPhase.noConfusion⟩
  | busy => exact ⟨turns, ⟨hk.congr rfl, ht, hcontext⟩, .kept AgentPhase.noConfusion⟩
  | failed => exact ⟨turns, ⟨hk.congr rfl, ht, hcontext⟩, .kept AgentPhase.noConfusion⟩
  | raised error =>
    exact ⟨turns, followed_of_isOver isOver_afterLoop, .kept (ne_top_of_isOver isOver_afterLoop)⟩

/-- The agent is in a turn whose command is being executed or recovered from. -/
structure InTurn (p : AgentParams) (s : AgentRun ε) (attempt : Attempt) (turns : List (Turn ε)) :
    Prop where
  kept : Kept p s.stepIdx s turns
  command : p.parseBashAction attempt.text = some attempt.command
  trajectory : ∃ context, s.trajectory = (trajectoryOf p turns).addReply context attempt.text

theorem inTurn_of_followed {attempt : Attempt}
    (hs : s.phase = .executing attempt ∨ s.phase = .rerunning attempt ∨
      s.phase = .closing attempt ∨ s.phase = .allocating attempt)
    (hf : Followed p s turns) : InTurn p s attempt turns := by
  unfold Followed at hf
  rcases hs with hs | hs | hs | hs <;> rw [hs] at hf <;> exact ⟨hf.1, hf.2.1, hf.2.2⟩

/-- A call of the turn has failed, one of the recovery among them. -/
theorem followed_failStep {attempt : Attempt} {failure : Failure} {effect? : Option ε}
    (hf : InTurn p s attempt turns) (hs : s.phase.isRecovered = false) :
    ∃ turns', Followed p (s.failStep p attempt failure effect?) turns' ∧
      Turned s a (s.failStep p attempt failure effect?) turns turns' := by
  obtain ⟨hk, hcommand, context, ht⟩ := hf
  exact followed_recordStep hk hcommand ht hs

theorem followed_endExec {attempt : Attempt} {result : ExecResult ε}
    (hs : s.phase = .executing attempt) (hf : InTurn p s attempt turns) :
    ∃ turns', Followed p (s.endExec p attempt result) turns' ∧
      Turned s a (s.endExec p attempt result) turns turns' := by
  have hnot : s.phase.isRecovered = false := by
    rw [hs]
    rfl
  have hturn := hf
  obtain ⟨hk, hcommand, context, ht⟩ := hturn
  cases result with
  | returned returncode output elapsed effect =>
    exact followed_recordStep hk hcommand ht hnot
  | raised failure effect => exact followed_failStep hf hnot
  | faultInjected elapsed =>
    unfold AgentRun.endExec
    dsimp only
    split_ifs with hlimiter
    · cases hid : s.checkpointState.latestReadyCheckpointId with
      | none => exact ⟨turns, ⟨hk.congr rfl, hcommand, context, ht⟩, .kept AgentPhase.noConfusion⟩
      | some id => exact ⟨turns, ⟨hk.congr rfl, hcommand, context, ht⟩, .kept AgentPhase.noConfusion⟩
    · exact followed_failStep hf hnot

theorem followed_endRerun {attempt : Attempt} {result : Except Failure Bool}
    (hs : s.phase = .rerunning attempt) (hf : InTurn p s attempt turns) :
    ∃ turns', Followed p (s.endRerun p attempt result) turns' ∧
      Turned s a (s.endRerun p attempt result) turns turns' := by
  cases result with
  | error failure =>
    refine followed_failStep hf ?_
    rw [hs]
    rfl
  | ok hasRerun =>
    obtain ⟨hk, hcommand, context, ht⟩ := hf
    cases hasRerun with
    | false => exact ⟨turns, ⟨hk.congr rfl, hcommand, context, ht⟩, .kept AgentPhase.noConfusion⟩
    | true =>
      have hle : s.checkpointState.latestReadyResumeStepIdx ≤ turns.length := by
        rw [hk.length]
        exact hk.resume
      have htrim := trim_addReply hk.recorded hle context attempt.text
      refine ⟨turns.take s.checkpointState.latestReadyResumeStepIdx, ⟨?_, ?_, rfl⟩,
        .cut _ AgentPhase.noConfusion⟩
      · refine ⟨hk.recorded.take _, List.length_take_of_le hle, hk.protects, le_rfl, ?_⟩
        change s.checkpointState.latestReadyProtected =
          costOf (((turns.take s.checkpointState.latestReadyResumeStepIdx).take
            s.checkpointState.latestReadyResumeStepIdx).filterMap Turn.debug?)
        rw [List.take_take, min_self]
        exact hk.protects
      · change s.trajectory.trim s.checkpointState.latestReadyResumeStepIdx = _
        rw [ht, htrim]

theorem followed_allocated {attempt : Attempt} {leaseId : String} (hf : InTurn p s attempt turns) :
    ∃ turns', Followed p
        (AgentRun.resume { s with checkpointState := .start } attempt leaseId 0) turns' ∧
      Turned s a (AgentRun.resume { s with checkpointState := .start } attempt leaseId 0) turns
        turns' := by
  obtain ⟨hk, hcommand, context, ht⟩ := hf
  have htrim := trim_addReply hk.recorded (Nat.zero_le _) context attempt.text
  refine ⟨turns.take 0, ⟨⟨hk.recorded.take 0, rfl, rfl, le_rfl, rfl⟩, ?_, rfl⟩,
    .cut 0 AgentPhase.noConfusion⟩
  change s.trajectory.trim 0 = _
  rw [ht, htrim]

theorem followed_step (hf : Followed p s turns) (hr : Resumes s a)
    (h : s.step p a = some s') : ∃ turns', Followed p s' turns' ∧ Turned s a s' turns turns' := by
  have hover : ∀ t : AgentRun ε, t.phase.isOver = true →
      ∃ turns', Followed p t turns' ∧ Turned s a t turns turns' :=
    fun t ht => ⟨turns, followed_of_isOver ht, .kept (ne_top_of_isOver ht)⟩
  have hnot : ∀ {attempt : Attempt}, s.phase = .closing attempt ∨ s.phase = .allocating attempt →
      s.phase.isRecovered = false := by
    rintro attempt (hs | hs) <;> rw [hs] <;> rfl
  have hfollowed := hf
  unfold Followed at hf
  cases AgentRun.stepped_of_step h with
  | left hs => exact hover _ isOver_afterLoop
  | asked hs =>
    rw [hs] at hf
    obtain ⟨hk, ht⟩ := hf
    refine ⟨turns, ⟨hk.congr rfl, ht, ?_⟩, .kept AgentPhase.noConfusion⟩
    rw [ht]
  | lapsed failure hs => exact hover _ rfl
  | resumed hs =>
    rw [hs] at hf
    obtain ⟨hk, ht, hresume⟩ := hf
    exact ⟨turns, ⟨hk.congr rfl, ht⟩, .reached hs rfl rfl⟩
  | resumeFailed failure hs =>
    unfold Resumes at hr
    rw [hs] at hr
    cases hr
  | attemptedFixed hs =>
    rw [hs] at hf
    obtain ⟨hk, ht, hcontext⟩ := hf
    exact ⟨turns, ⟨⟨hk.recorded, hk.length, hk.cost, hk.resume, hk.protects⟩, ht, hcontext⟩,
      .kept AgentPhase.noConfusion⟩
  | attemptedAdaptive hs =>
    rw [hs] at hf
    obtain ⟨hk, ht, hcontext⟩ := hf
    exact ⟨turns, ⟨hk.congr rfl, ht, hcontext⟩, .kept AgentPhase.noConfusion⟩
  | checkpointed result hs => exact followed_endCheckpoint hs hfollowed
  | replied text elapsed hs => exact followed_takeReply hs hfollowed
  | callFailed error elapsed hs => exact hover _ isOver_afterLoop
  | executed result hs => exact followed_endExec hs (inTurn_of_followed (.inl hs) hfollowed)
  | rerun result hs =>
    exact followed_endRerun hs (inTurn_of_followed (.inr (.inl hs)) hfollowed)
  | closed hs =>
    rw [hs] at hf
    exact ⟨turns, ⟨hf.1.congr rfl, hf.2.1, hf.2.2⟩, .kept AgentPhase.noConfusion⟩
  | closeFailed failure hs =>
    exact followed_failStep (inTurn_of_followed (.inr (.inr (.inl hs))) hfollowed) (hnot (.inl hs))
  | allocated leaseId hs =>
    exact followed_allocated (inTurn_of_followed (.inr (.inr (.inr hs))) hfollowed)
  | allocateFailed failure hs =>
    exact followed_failStep (inTurn_of_followed (.inr (.inr (.inr hs))) hfollowed) (hnot (.inr hs))
  | diffed result hs =>
    cases result with
    | ok patch => exact hover _ isOver_finish
    | error error => exact hover _ isOver_finish
  | collected hs => exact hover _ rfl
  | collectFailed error hs => exact hover _ rfl
  | cancelled => exact hover _ rfl

/-- What a loop top finds. -/
structure LoopTop (ε : Type*) where
  trajectory : Trajectory ε
  cumulativeReplay : ReplayCost
  latestReadyResumeStepIdx : Nat

/-- A run with the loop tops of its current timeline: those that it has reached, up to the step
that it was taken back to last, and those after that. -/
structure Timeline (ε : Type*) where
  run : AgentRun ε
  tops : List (LoopTop ε)

def AgentRun.loopTop (s : AgentRun ε) : LoopTop ε :=
  ⟨s.trajectory, s.checkpointState.cumulativeReplay, s.checkpointState.latestReadyResumeStepIdx⟩

namespace Timeline

def begin (p : AgentParams) (leaseId : String) : Timeline ε :=
  ⟨p.begin leaseId, [(p.begin leaseId).loopTop]⟩

/-- A loop top that is reached by a recovery has been reached before. -/
def account (t : Timeline ε) (s : AgentRun ε) : List (LoopTop ε) :=
  if s.phase = .top then
    if t.run.phase.isRecovered then t.tops.take (s.stepIdx + 1)
    else t.tops.take s.stepIdx ++ [s.loopTop]
  else t.tops

def next (p : AgentParams) (t : Timeline ε) (a : AgentAction ε) : Option (Timeline ε) :=
  (t.run.step p a).map fun s => ⟨s, t.account s⟩

/-- The lists and the costs at a loop top are those of as many turns as the step says, and they
are what they were when the current timeline first got there. -/
structure RolledBack (p : AgentParams) (t : Timeline ε) : Prop where
  messages : ∃ turns : List (String × String), turns.length = t.run.stepIdx ∧
    t.run.trajectory.messages = p.initialMessages ++
      turns.flatMap fun turn => [⟨.assistant, turn.1⟩, ⟨.user, turn.2⟩]
  contexts : t.run.trajectory.managedContexts.length = t.run.stepIdx
  texts : t.run.trajectory.assistantTexts.length = t.run.stepIdx
  steps : ∀ debug ∈ t.run.trajectory.stepDebug, debug.stepIdx < t.run.stepIdx
  stepsOrdered : t.run.trajectory.stepDebug.Pairwise (·.stepIdx < ·.stepIdx)
  tasks : ∀ task ∈ t.run.trajectory.prmPendingTasks, task.stepIdx < t.run.stepIdx
  tasksOrdered : t.run.trajectory.prmPendingTasks.Pairwise (·.stepIdx < ·.stepIdx)
  cost : t.run.checkpointState.cumulativeReplay = costOf t.run.trajectory.stepDebug
  resume : t.run.checkpointState.latestReadyResumeStepIdx ≤ t.run.stepIdx
  current : ∃ top ∈ t.tops[t.run.stepIdx]?, t.run.trajectory = top.trajectory ∧
    t.run.checkpointState.cumulativeReplay = top.cumulativeReplay
  timeline : ∀ k ≤ t.run.stepIdx, ∃ top ∈ t.tops[k]?, t.run.trajectory.trim k = top.trajectory ∧
    costOf (t.run.trajectory.trim k).stepDebug = top.cumulativeReplay

/-- So it is at every loop top, and after a recovery the checkpoint is at the step of the loop
top. -/
def Consistent (p : AgentParams) (t : Timeline ε) : Prop :=
  (t.run.phase = .top → t.RolledBack p) ∧
    ∀ attempt r, t.run.phase = .recovered attempt r →
      t.run.checkpointState.latestReadyResumeStepIdx = r

/-- The loop tops are those of the turns. -/
def Topped (p : AgentParams) (tops : List (LoopTop ε)) (turns : List (Turn ε)) : Prop :=
  ∀ k ≤ turns.length, ∃ top ∈ tops[k]?, top.trajectory = trajectoryOf p (turns.take k) ∧
    top.cumulativeReplay = costOf ((turns.take k).filterMap Turn.debug?)

variable {t : Timeline ε} {turns' : List (Turn ε)}

theorem Topped.take {tops : List (LoopTop ε)} (h : Topped p tops turns) (r : Nat) :
    Topped p tops (turns.take r) := by
  intro k hk
  rw [List.length_take] at hk
  have hcut : (turns.take r).take k = turns.take k := by
    rw [List.take_take, min_eq_left (by omega)]
  rw [hcut]
  exact h k (by omega)

/-- The step of a run at a loop top is the number of its turns. -/
theorem followed_top (hf : Followed p s turns) (hs : s.phase = .top) :
    Kept p s.stepIdx s turns ∧ s.trajectory = trajectoryOf p turns := by
  unfold Followed at hf
  rw [hs] at hf
  exact hf

theorem topped_account (hf' : Followed p s' turns) (ht : Topped p t.tops turns)
    (hr : t.run.phase.isRecovered = true) : Topped p (t.account s') turns := by
  unfold account
  split_ifs with htop
  · obtain ⟨hk, -⟩ := followed_top hf' htop
    intro k hle
    obtain ⟨top, hmem, htop⟩ := ht k hle
    refine ⟨top, ?_, htop⟩
    have hlength := hk.length
    rw [List.getElem?_take_of_lt (by omega)]
    exact hmem
  · exact ht

/-- A new loop top is put behind the others. -/
theorem topped_added {turn : Turn ε} (hf' : Followed p s' (turns ++ [turn]))
    (ht : Topped p t.tops turns) (hr : t.run.phase.isRecovered = false) (htop : s'.phase = .top) :
    Topped p (t.account s') (turns ++ [turn]) := by
  obtain ⟨hk, htrajectory⟩ := followed_top hf' htop
  have hlength : s'.stepIdx = turns.length + 1 := by
    rw [← hk.length, List.length_append, List.length_singleton]
  obtain ⟨last, hlast, -⟩ := ht turns.length le_rfl
  have hlong : turns.length < t.tops.length := (List.getElem?_eq_some_iff.mp hlast).1
  have haccount : t.account s' = t.tops.take (turns.length + 1) ++ [s'.loopTop] := by
    unfold account
    rw [if_pos htop, hr, hlength]
    rfl
  have htake : (t.tops.take (turns.length + 1)).length = turns.length + 1 :=
    List.length_take_of_le hlong
  intro k hle
  rw [haccount]
  rw [List.length_append, List.length_singleton] at hle
  rcases Nat.lt_or_ge k (turns.length + 1) with hlt | hge
  · obtain ⟨top, hmem, hviews⟩ := ht k (by omega)
    rw [List.getElem?_append_left (by rw [htake]; exact hlt), List.getElem?_take_of_lt hlt,
      List.take_append_of_le_length (by omega)]
    exact ⟨top, hmem, hviews⟩
  · obtain rfl : k = turns.length + 1 := by omega
    have hwhole : (turns ++ [turn]).take (turns.length + 1) = turns ++ [turn] :=
      List.take_of_length_le (by rw [List.length_append, List.length_singleton])
    rw [List.getElem?_append_right htake.le, htake, Nat.sub_self, hwhole]
    exact ⟨s'.loopTop, rfl, htrajectory, hk.cost⟩

theorem topped_next (hf' : Followed p s' turns') (ht : Topped p t.tops turns)
    (h : Turned t.run a s' turns turns') : Topped p (t.account s') turns' := by
  cases h with
  | kept hs =>
    unfold account
    rw [if_neg hs]
    exact ht
  | reached hs _ _ =>
    refine topped_account hf' ht ?_
    rw [hs]
    rfl
  | added turn hs htop => exact topped_added hf' ht hs htop
  | cut r hs =>
    unfold account
    rw [if_neg hs]
    exact ht.take r

theorem rolledBack_of_followed (hf : Followed p t.run turns) (ht : Topped p t.tops turns)
    (htop : t.run.phase = .top) : t.RolledBack p := by
  obtain ⟨hk, hviews⟩ := followed_top hf htop
  have hlength := hk.length
  have htrim : ∀ k, t.run.trajectory.trim k = trajectoryOf p (turns.take k) := by
    intro k
    rw [hviews, trim_trajectoryOf hk.recorded]
  refine ⟨?_, ?_, ?_, ?_, ?_, ?_, ?_, ?_, hk.resume, ?_, ?_⟩
  · refine ⟨turns.map fun turn => (turn.text, turn.observation), ?_, ?_⟩
    · rw [List.length_map, hlength]
    · rw [hviews, List.flatMap_map]
      rfl
  · rw [hviews]
    exact (List.length_map _).trans hlength
  · rw [hviews]
    exact (List.length_map _).trans hlength
  · intro debug hdebug
    rw [hviews] at hdebug
    have hdate := (hk.recorded.steps.bounds hdebug).2
    omega
  · rw [hviews]
    exact hk.recorded.steps.pairwise
  · intro task htask
    rw [hviews] at htask
    have hdate := (hk.recorded.tasks.bounds htask).2
    omega
  · rw [hviews]
    exact hk.recorded.tasks.pairwise
  · rw [hviews]
    exact hk.cost
  · obtain ⟨top, hmem, htrajectory, hcost⟩ := ht t.run.stepIdx hlength.ge
    rw [List.take_of_length_le hlength.le] at htrajectory hcost
    exact ⟨top, hmem, hviews.trans htrajectory.symm, hk.cost.trans hcost.symm⟩
  · intro k hle
    obtain ⟨top, hmem, htrajectory, hcost⟩ := ht k (by omega)
    refine ⟨top, hmem, (htrim k).trans htrajectory.symm, ?_⟩
    rw [htrim]
    exact hcost.symm

/-- Every rollback leaves the trajectory as it was, when the recoveries succeed. -/
theorem consistent_of_recovers (p : AgentParams) (leaseId : String) (run : List (AgentAction ε))
    (h : Meets (next p) (fun t => Recovers p t.run) (begin p leaseId) run) :
    Along (next p) (Consistent p) (begin p leaseId) run := by
  have hbegin : Followed p (p.begin leaseId : AgentRun ε) [] ∧
      Topped p (begin p leaseId : Timeline ε).tops [] := by
    refine ⟨⟨⟨recorded_nil, rfl, rfl, le_rfl, rfl⟩, rfl⟩, ?_⟩
    intro k hk
    obtain rfl : k = 0 := Nat.le_zero.mp hk
    exact ⟨(p.begin leaseId).loopTop, rfl, rfl, rfl⟩
  have hinvariant := along_of_meets
    (I := fun t : Timeline ε => ∃ turns, Followed p t.run turns ∧ Topped p t.tops turns)
    (fun t a t' hi hr hn => by
      obtain ⟨turns, hf, ht⟩ := hi
      obtain ⟨s, hs, rfl⟩ := Option.map_eq_some_iff.mp hn
      obtain ⟨turns', hf', hturned⟩ := followed_step hf hr.resumes hs
      exact ⟨turns', hf', topped_next hf' ht hturned⟩)
    ⟨[], hbegin⟩ h
  refine hinvariant.mono fun t hi => ?_
  obtain ⟨turns, hf, ht⟩ := hi
  refine ⟨rolledBack_of_followed hf ht, ?_⟩
  intro attempt r hs
  unfold Followed at hf
  rw [hs] at hf
  exact hf.2.2

/-- Every model reply asks for `ls`, and a checkpoint is due at every step. -/
def eagerParams : AgentParams where
  systemTemplate := "You are a helpful assistant."
  instanceMessage := "Fix the bug."
  stepLimit := 3
  policy := .always
  hasTailModel := false
  hasPrmAgent := true
  skipSubmit := true
  hasDockerCreateLimiter := true
  getContextMessages := id
  parseBashAction text := if text = "```bash\nls\n```" then some "ls" else none
  renderObservation _ output := output
  extractPatchFromSubmission _ := none
  isValidGitPatch _ := false

instance (p : AgentParams) (s : AgentRun ε) : ∀ a, Decidable (Recovers p s a)
  | .exec (.faultInjected _) => inferInstanceAs (Decidable (p.hasDockerCreateLimiter = true))
  | .rerun (.error _) | .close (some _) | .allocate (.error _) => .isFalse not_false
  | .heartbeat (some _) => inferInstanceAs (Decidable (s.phase.isRecovered = false))
  | .exec (.returned _ _ _ _) | .exec (.raised _ _) | .rerun (.ok _) | .close none
  | .allocate (.ok _) | .heartbeat none | .leave | .attemptFixed | .attemptAdaptive
  | .checkpoint _ | .complete _ _ | .diff _ | .collect _ | .cancel => .isTrue trivial

/-- A turn with a command, then a checkpoint, a fault in the next turn and a rerun. -/
def rerunRun : List (AgentAction String) :=
  [.heartbeat none, .complete (.ok "```bash\nls\n```") 1, .exec (.returned 0 "a" 1 "ls"),
    .heartbeat none, .attemptFixed, .checkpoint (.created "c1" none),
    .complete (.ok "```bash\nls\n```") 1, .exec (.faultInjected 1), .rerun (.ok true),
    .heartbeat none]

theorem consistent_of_recovers_rerunRun :
    Along (next eagerParams) (Consistent eagerParams) (begin eagerParams "l1") rerunRun :=
  consistent_of_recovers eagerParams "l1" rerunRun (by decide +kernel)

/-- The recoveries succeed, and at the loop top of step 1 the checkpoint is at step 1; it was at
step 0 when the timeline first got there. -/
theorem resumeStepIdx_restored_fails :
    Meets (next eagerParams) (fun t => Recovers eagerParams t.run) (begin eagerParams "l1")
        rerunRun ∧
      ∃ t ∈ exec (next eagerParams) (begin eagerParams "l1") rerunRun,
        t.run.phase = .top ∧ t.run.stepIdx = 1 ∧
          t.run.checkpointState.latestReadyResumeStepIdx = 1 ∧
          (t.tops[1]?).map (·.latestReadyResumeStepIdx) = some 0 := by
  decide +kernel

end Timeline

end Belayer.Agent
