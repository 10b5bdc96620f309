import Belayer.Agent.Leases
import Belayer.Agent.RolloutTasks
import Belayer.Scheduler.Presence

namespace Belayer.Agent

open Belayer.Framework Belayer.Scheduler

variable {ε : Type*} {p : GenerateParams}

namespace GenerateRun

variable {s s' t : GenerateRun ε} {a : GenerateAction ε}

/-- A part of the run that keeps the admission: it is given back in `finish_prompt`, and before
that the run does not end. -/
structure Keeps (p : GenerateParams) (s s' : GenerateRun ε) : Prop where
  ticket : s'.admissionTicket = s.admissionTicket
  phase : s'.phase.isAdmitting = false
  finishing : ∀ promptId isCancelled, s'.phase = .finishing promptId isCancelled →
    s.admissionTicket = some promptId
  ended : s'.phase.isEnded = true → s.admissionTicket = none ∨ p.hasScheduler = false

/-- Neither in `admit_prompt` nor in `finish_prompt` nor at the end. -/
def isBetween : GeneratePhase ε → Bool
  | .admitting | .finishing _ _ | .ended _ => false
  | _ => true

theorem keeps_between (ht : s'.admissionTicket = s.admissionTicket)
    (hb : isBetween s'.phase = true) : s.Keeps p s' := by
  cases hphase : s'.phase with
  | admitting | finishing | ended =>
    rw [hphase] at hb
    cases hb
  | _ =>
    refine ⟨ht, ?_, ?_, ?_⟩
    · rw [hphase]
      rfl
    · intro q isCancelled hf
      rw [hphase] at hf
      cases hf
    · intro he
      rw [hphase] at he
      cases he

theorem keeps_release {isCancelled : Bool} (ht : t.admissionTicket = s.admissionTicket) :
    s.Keeps p (t.release p isCancelled) := by
  unfold release
  split
  · rename_i promptId hticket
    rw [ht] at hticket
    split_ifs with hscheduler
    · refine ⟨ht, rfl, ?_, nofun⟩
      intro q isCancelled' hphase
      cases hphase
      exact hticket
    · have hnone : p.hasScheduler = false := Bool.eq_false_iff.mpr hscheduler
      exact ⟨ht, rfl, nofun, fun _ => .inr hnone⟩
  · rename_i hticket
    rw [ht] at hticket
    exact ⟨ht, rfl, nofun, fun _ => .inl hticket⟩

theorem keeps_cleanAgent {isCancelled : Bool} (ht : t.admissionTicket = s.admissionTicket) :
    s.Keeps p (t.cleanAgent p isCancelled) := by
  unfold cleanAgent
  dsimp only
  split
  · exact keeps_between ht rfl
  · exact keeps_release ht

theorem keeps_cleanUp {raised? : Option Raised} (ht : t.admissionTicket = s.admissionTicket) :
    s.Keeps p (t.cleanUp p raised?) := by
  obtain ⟨timedOut, error, isCancelled, hclean⟩ := cleanUp_cases p t raised?
  rw [hclean]
  unfold cleanEval
  split
  · exact keeps_between ht rfl
  · exact keeps_cleanAgent ht

theorem keeps_releaseEval {raised? : Option Raised} (ht : t.admissionTicket = s.admissionTicket) :
    s.Keeps p (t.releaseEval p raised?) :=
  keeps_cleanUp ht

theorem keeps_endEval {raised? : Option Raised} (ht : t.admissionTicket = s.admissionTicket) :
    s.Keeps p (t.endEval p raised?) := by
  obtain ⟨error, left?, hend⟩ := endEval_cases p t raised?
  rw [hend]
  unfold closeEval
  split
  · exact keeps_between ht rfl
  · exact keeps_releaseEval ht

theorem keeps_follow {agent : AgentRun ε} (ht : t.admissionTicket = s.admissionTicket) :
    s.Keeps p (t.follow p agent) := by
  unfold follow
  split
  · unfold afterAgent
    dsimp only
    split
    · exact keeps_between ht rfl
    · exact keeps_cleanUp ht
  · exact keeps_cleanUp ht
  · exact keeps_cleanUp ht
  · exact keeps_between ht rfl

theorem keeps_allocateFirst {leaseId : String} : s.Keeps p (s.allocateFirst p leaseId) := by
  unfold allocateFirst
  dsimp only
  split_ifs
  · exact keeps_between rfl rfl
  · exact keeps_between rfl rfl

theorem keeps_allocateEval {leaseId : String} : s.Keeps p (s.allocateEval p leaseId) := by
  unfold allocateEval
  dsimp only
  split_ifs
  · exact keeps_between rfl rfl
  · exact keeps_between rfl rfl

theorem keeps_close {result : Except Raised Unit} (hs : s.step p (.close result) = some s') :
    s.Keeps p s' := by
  simp only [step] at hs
  split at hs
  · split_ifs at hs
    · cases hs
      exact keeps_between rfl rfl
    · cases hs
      exact keeps_between rfl rfl
  · cases hs
    exact keeps_cleanUp rfl
  · cases hs
    exact keeps_between rfl rfl
  · split_ifs at hs
    · cases hs
      exact keeps_between rfl rfl
    · cases hs
      exact keeps_releaseEval rfl
  · cases hs
    exact keeps_releaseEval rfl
  · split_ifs at hs
    · cases hs
      exact keeps_between rfl rfl
    · cases hs
      exact keeps_cleanAgent rfl
  · cases hs
    exact keeps_cleanAgent rfl
  · split_ifs at hs
    · cases hs
      exact keeps_between rfl rfl
    · cases hs
      exact keeps_release rfl
  · cases hs
    exact keeps_release rfl
  · cases hs

theorem keeps_detach {result : Except Raised Unit} (hs : s.step p (.detach result) = some s') :
    s.Keeps p s' := by
  simp only [step] at hs
  split at hs
  · cases hs
    exact keeps_between rfl rfl
  · cases hs
    exact keeps_cleanUp rfl
  · cases hs
    exact keeps_between rfl rfl
  · cases hs
    exact keeps_releaseEval rfl
  · cases hs
    exact keeps_cleanAgent rfl
  · cases hs
    exact keeps_release rfl
  · cases hs

/-- What a step does for the admission, apart from the ends of `admit_prompt` and `finish_prompt`: it
keeps it, or the run ends in the wait for the semaphore, before the cleanup. -/
theorem keeps_or_ends (ha : ∀ result, a ≠ .admission result) (hf : ∀ result, a ≠ .finish result)
    (hs : s.step p a = some s') :
    s.Keeps p s' ∨ s.phase = .acquiring ∧ a = .acquire (.error .cancelled) ∧
      s' = { s with phase := .ended true } := by
  cases a with
  | admission result => exact absurd rfl (ha result)
  | finish result => exact absurd rfl (hf result)
  | acquire result =>
    simp only [step] at hs
    split at hs
    · cases hs
      exact .inl (keeps_between rfl rfl)
    · rename_i hphase
      cases hs
      exact .inr ⟨hphase, rfl, rfl⟩
    · cases hs
      exact .inl (keeps_between rfl rfl)
    · cases hs
      exact .inl (keeps_cleanUp rfl)
    · cases hs
  | allocate result =>
    simp only [step] at hs
    split at hs
    · split_ifs at hs
      cases hs
      exact .inl keeps_allocateFirst
    · cases hs
      exact .inl (keeps_cleanUp rfl)
    · split_ifs at hs
      cases hs
      exact .inl keeps_allocateEval
    · cases hs
      exact .inl (keeps_endEval rfl)
    · cases hs
  | attach result =>
    simp only [step] at hs
    split at hs
    · cases hs
      exact .inl (keeps_cleanUp rfl)
    · cases hs
      exact .inl (keeps_between rfl rfl)
    · cases hs
      exact .inl (keeps_endEval rfl)
    · cases hs
      exact .inl (keeps_between rfl rfl)
    · cases hs
  | agent action =>
    simp only [step] at hs
    split at hs
    · split_ifs at hs
      obtain ⟨agent, -, rfl⟩ := Option.map_eq_some_iff.mp hs
      exact .inl (keeps_follow rfl)
    · cases hs
  | agentTimeout =>
    simp only [step] at hs
    split at hs
    · cases hs
      exact .inl (keeps_cleanUp rfl)
    · cases hs
  | close result => exact .inl (keeps_close hs)
  | detach result => exact .inl (keeps_detach hs)
  | evaluate result =>
    simp only [step] at hs
    split at hs
    · cases hs
      exact .inl (keeps_endEval rfl)
    · cases hs
      exact .inl (keeps_endEval rfl)
    · cases hs
      exact .inl (keeps_endEval rfl)
    · cases hs

theorem step_finish {result : Except Raised Unit} (hs : s.step p (.finish result) = some s') :
    ∃ promptId isCancelled isCancelled', s.phase = .finishing promptId isCancelled ∧
      s' = { s with phase := .ended isCancelled' } := by
  simp only [step] at hs
  split at hs
  · rename_i hphase
    cases hs
    exact ⟨_, _, true, hphase, rfl⟩
  · rename_i hphase _
    cases hs
    exact ⟨_, _, _, hphase, rfl⟩
  · cases hs

def afterAdmit (s : GenerateRun ε) : Except Raised String → GenerateRun ε
  | .ok promptId => { s with admissionTicket := some promptId, phase := .acquiring }
  | .error .cancelled => { s with phase := .ended true }
  | .error _ => { s with phase := .acquiring }

theorem step_admit {result : Except Raised String} (hs : s.step p (.admission result) = some s') :
    s.phase = .admitting ∧ s' = s.afterAdmit result := by
  have hphase : s.phase = .admitting := by
    cases hphase : s.phase with
    | admitting => rfl
    | _ =>
      simp only [step, hphase] at hs
      cases hs
  simp only [step, hphase] at hs
  refine ⟨hphase, ?_⟩
  cases result with
  | ok promptId => exact (Option.some.inj hs).symm
  | error raised => cases raised <;> exact (Option.some.inj hs).symm

/-- A run that has ended takes no step, and one in `admit_prompt` only the end of that. -/
theorem phase_of_step (hs : s.step p a = some s') :
    s.phase.isEnded = false ∧ (s.phase.isAdmitting = true → ∃ result, a = .admission result) := by
  cases hphase : s.phase with
  | ended isCancelled =>
    cases a <;> simp only [step, hphase] at hs <;> cases hs
  | admitting =>
    refine ⟨rfl, fun _ => ?_⟩
    cases a with
    | admission result => exact ⟨result, rfl⟩
    | _ =>
      simp only [step, hphase] at hs
      cases hs
  | _ => exact ⟨rfl, fun h => absurd h Bool.false_ne_true⟩

end GenerateRun

namespace GeneratePhase

def isAcquiring : GeneratePhase ε → Bool
  | .acquiring => true
  | _ => false

theorem isEnded_of_isAdmitting {phase : GeneratePhase ε} (h : phase.isAdmitting = true) :
    phase.isEnded = false := by
  cases phase with
  | ended isCancelled => cases h
  | _ => rfl

end GeneratePhase

namespace RolloutTasks

/-- The scheduler has nothing of the prompt of a task that has ended. -/
def Returned (w : RolloutTasks ε) : Prop :=
  ∀ t ∈ w.tasks, t.run.phase.isEnded = true → ∀ j promptId, t.call? = some j →
    w.promptIds[j]? = some promptId → ¬w.scheduler.Holds promptId

/-- The prompt ids are distinct. -/
def Fresh (w : RolloutTasks ε) : RolloutAction ε → Prop
  | .admitPrompt _ iid groupIndex sampleIndex _ suffix _ _ _ _ =>
    buildPromptId iid groupIndex sampleIndex suffix ∉ w.promptIds
  | _ => True

/-- The condition on a step: no cancellation reaches a task whose request is pending or admitted,
one that waits for the semaphore with a ticket, or one in `finish_prompt`. -/
def Guarded (w : RolloutTasks ε) : RolloutAction ε → Prop
  | .run i (.admission (.error .cancelled)) _ _ => ∀ t ∈ w.tasks[i]?, ∀ j ∈ t.call?,
      w.scheduler.calls[j]? ≠ some .waiting ∧ ∀ c ∈ w.scheduler.calls[j]?, c.admitted? = none
  | .run i (.acquire (.error .cancelled)) _ _ => ∀ t ∈ w.tasks[i]?,
      t.run.phase.isAcquiring = true → t.run.admissionTicket = none
  | .run _ (.finish (.error .cancelled)) _ _ => False
  | _ => True

/-- How far a task is, by the state of its call. -/
def TaskAt (w : RolloutTasks ε) (t : RolloutTask ε) (promptId : String) : AdmitCall → Prop
  | .requested _ | .waiting | .admitted _ => t.run.phase.isAdmitting = true
  | .returned _ => t.run.phase.isAdmitting = false ∧ t.run.admissionTicket = some promptId ∧
      (t.run.phase.isEnded = false → promptId ∈ w.scheduler.activePrompts)
  | .cancelled => t.run.phase.isEnded = true

/-- What is known of a task. -/
structure TaskOk (p : GenerateParams) (w : RolloutTasks ε) (t : RolloutTask ε) : Prop where
  scheduler : t.run.phase.isAdmitting = true ∨ t.run.admissionTicket ≠ none → p.hasScheduler = true
  ticket : ∀ promptId, t.run.admissionTicket = some promptId → ∃ j ticket, t.call? = some j ∧
    w.promptIds[j]? = some promptId ∧ w.scheduler.calls[j]? = some (.returned ticket)
  finishing : ∀ promptId isCancelled, t.run.phase = .finishing promptId isCancelled →
    t.run.admissionTicket = some promptId
  call : ∀ j, t.call? = some j → ∃ c promptId, w.scheduler.calls[j]? = some c ∧
    w.promptIds[j]? = some promptId ∧ w.TaskAt t promptId c

/-- No two tasks have the same call. -/
def OtherCall (t u : RolloutTask ε) : Prop := ∀ j, t.call? = some j → u.call? ≠ some j

structure Inv (p : GenerateParams) (w : RolloutTasks ε) : Prop where
  placed : w.scheduler.Placed w.promptIds
  tasks : ∀ t ∈ w.tasks, w.TaskOk p t
  apart : Apart OtherCall w.tasks

variable {lower : String → String} {w w' : RolloutTasks ε} {t t' u : RolloutTask ε} {i j : Nat}
  {promptId : String} {s : OnlineEnvDockerScheduler}

theorem OtherCall.symm (h : OtherCall t u) : OtherCall u t := by
  intro j hu ht
  exact h j ht hu

/-- The call of a task is as it was, and its prompt has not ended. -/
theorem TaskOk.frame (hok : w.TaskOk p u)
    (hids : ∀ (j : Nat) promptId, w.promptIds[j]? = some promptId → w'.promptIds[j]? = some promptId)
    (hcalls : ∀ j c, u.call? = some j → w.scheduler.calls[j]? = some c →
      w'.scheduler.calls[j]? = some c)
    (hactive : ∀ j promptId, u.call? = some j → w.promptIds[j]? = some promptId →
      promptId ∈ w.scheduler.activePrompts → promptId ∈ w'.scheduler.activePrompts) :
    w'.TaskOk p u := by
  refine ⟨hok.scheduler, ?_, hok.finishing, ?_⟩
  · intro q hq
    obtain ⟨j, ticket, hj, hid, hc⟩ := hok.ticket q hq
    exact ⟨j, ticket, hj, hids j q hid, hcalls j _ hj hc⟩
  · intro j hj
    obtain ⟨c, q, hc, hid, hat⟩ := hok.call j hj
    refine ⟨c, q, hcalls j c hj hc, hids j q hid, ?_⟩
    cases c with
    | returned ticket =>
      obtain ⟨hphase, hticket, hkept⟩ := hat
      exact ⟨hphase, hticket, fun hended => hactive j q hj hid (hkept hended)⟩
    | requested | waiting | admitted | cancelled => exact hat

/-- An admission, or nothing, has happened to the call of a task. -/
theorem TaskOk.advances (hok : w.TaskOk p u) (hs : w.scheduler.Advances s)
    (hlength : s.calls.length = w.scheduler.calls.length) :
    TaskOk p { w with scheduler := s } u := by
  have hcall : ∀ (j : Nat) (c : AdmitCall), w.scheduler.calls[j]? = some c →
      s.calls[j]? = some c ∨ c = .waiting ∧ ∃ r, s.calls[j]? = some (.admitted r) := by
    intro j c hc
    obtain ⟨hlt, -⟩ := List.getElem?_eq_some_iff.mp hc
    have hget : s.calls[j]? = some s.calls[j] := List.getElem?_eq_getElem (by omega)
    rcases hs.calls j _ hget with hsame | ⟨hwaiting, r, hr⟩
    · rw [hc] at hsame
      rw [hget, Option.some.inj hsame]
      exact .inl rfl
    · rw [hc] at hwaiting
      refine .inr ⟨Option.some.inj hwaiting, r, ?_⟩
      rw [hget, hr]
  refine ⟨hok.scheduler, ?_, hok.finishing, ?_⟩
  · intro q hq
    obtain ⟨j, ticket, hj, hid, hc⟩ := hok.ticket q hq
    rcases hcall j _ hc with hc | ⟨he, -⟩
    · exact ⟨j, ticket, hj, hid, hc⟩
    · cases he
  · intro j hj
    obtain ⟨c, q, hc, hid, hat⟩ := hok.call j hj
    rcases hcall j c hc with hc | ⟨rfl, r, hr⟩
    · refine ⟨c, q, hc, hid, ?_⟩
      cases c with
      | returned ticket =>
        obtain ⟨hphase, hticket, hkept⟩ := hat
        exact ⟨hphase, hticket, fun hended => hs.active q (hkept hended)⟩
      | requested | waiting | admitted | cancelled => exact hat
    · exact ⟨.admitted r, q, hr, hid, hat⟩

/-- A step of one task. -/
theorem Inv.set (hw : w.Inv p) (hi : w.tasks[i]? = some t) (htasks : w'.tasks = w.tasks.set i t')
    (hcall : t'.call? = t.call?) (hplaced : w'.scheduler.Placed w'.promptIds)
    (hok : w'.TaskOk p t')
    (hothers : ∀ u ∈ w.tasks, OtherCall t u → w.TaskOk p u → w'.TaskOk p u) : w'.Inv p := by
  refine ⟨hplaced, ?_, ?_⟩
  · intro u hu
    rw [htasks] at hu
    rcases mem_set_cases hu with rfl | ⟨k, hk, hu⟩
    · exact hok
    · have hmem := List.mem_of_getElem? hu
      exact hothers u hmem (hw.apart i k t u hk hi hu) (hw.tasks u hmem)
  · rw [htasks]
    apply hw.apart.set
    intro k u hk hu
    have hother : OtherCall t' u := by
      intro j hj
      rw [hcall] at hj
      exact hw.apart i k t u hk hi hu j hj
    exact ⟨hother, hother.symm⟩

/-- The prompts of the other tasks that have ended are as they were. -/
theorem Returned.set (hr : w.Returned) (hi : w.tasks[i]? = some t)
    (htasks : w'.tasks = w.tasks.set i t') (hw : w.Inv p)
    (hnew : t'.run.phase.isEnded = true → ∀ j promptId, t'.call? = some j →
      w'.promptIds[j]? = some promptId → ¬w'.scheduler.Holds promptId)
    (hothers : ∀ u ∈ w.tasks, OtherCall t u → ∀ j promptId, u.call? = some j →
      w'.promptIds[j]? = some promptId → w.promptIds[j]? = some promptId ∧
        (u.run.phase.isEnded = true → w'.scheduler.Holds promptId →
          w.scheduler.Holds promptId)) : w'.Returned := by
  intro u hu hended j q hj hq
  rw [htasks] at hu
  rcases mem_set_cases hu with rfl | ⟨k, hk, hu⟩
  · exact hnew hended j q hj hq
  · have hmem := List.mem_of_getElem? hu
    obtain ⟨hid, hholds⟩ := hothers u hmem (hw.apart i k t u hk hi hu) j q hj hq
    intro hq'
    exact hr u hmem hended j q hj hid (hholds hended hq')

/-- A step of the scheduler of its own. -/
theorem placed_background {s' : OnlineEnvDockerScheduler} {ids : List String} {a : SchedulerAction}
    (h : s.Placed ids) (hb : isBackground a = true) (hn : s.next lower a = some s') :
    s'.Placed ids ∧ s.Advances s' := by
  have htouched : ∀ {s' : OnlineEnvDockerScheduler}, s.Touched s' → s'.Mapped →
      s'.Placed ids ∧ s.Advances s' :=
    fun ht hm => ⟨h.touched ht hm, OnlineEnvDockerScheduler.advances_touched h ht hm⟩
  cases a with
  | admissionPass now fuel =>
    obtain ⟨⟨s₁, chosen⟩, hpass, rfl⟩ := Option.map_eq_some_iff.mp hn
    exact h.pass (OnlineEnvDockerScheduler.passed_of_admitNext hpass)
  | recordLeaseStatsPayload leaseId q payload =>
    cases hn
    exact htouched OnlineEnvDockerScheduler.touched_recordLeaseStatsPayload
      h.mapped.recordLeaseStatsPayload
  | recordLeaseStatsError leaseId q isUnknownLease =>
    cases hn
    exact htouched OnlineEnvDockerScheduler.touched_recordLeaseStatsError
      h.mapped.recordLeaseStatsError
  | refreshResourceProfiles aggregated =>
    cases hn
    apply htouched OnlineEnvDockerScheduler.touched_refreshResourceProfiles
    unfold OnlineEnvDockerScheduler.refreshResourceProfiles
    split_ifs <;> exact h.mapped
  | recordPromptSummary summary =>
    cases hn
    exact htouched ⟨rfl, rfl, rfl, rfl, .inl rfl⟩ h.mapped
  | refreshServer reported =>
    cases hn
    exact htouched ⟨rfl, rfl, rfl, rfl, .inl rfl⟩ h.mapped
  | resetAdmissionWindow =>
    cases hn
    exact htouched ⟨rfl, rfl, rfl, rfl, .inl rfl⟩ h.mapped
  | admitPrompt | enqueue | returnTicket | cancelAdmit | attachLease | detachLease | finishPrompt =>
    cases hb

/-- What a step does: it keeps the invariant, and exactly if it meets the condition nothing is left
of a prompt that has ended. -/
structure Steps (p : GenerateParams) (w w' : RolloutTasks ε) (guarded : Prop) : Prop where
  inv : w'.Inv p
  returned : w.Returned → (w'.Returned ↔ guarded)

theorem Steps.intro (hinv : w'.Inv p) (hr : w.Returned → w'.Returned) : Steps p w w' True :=
  ⟨hinv, fun h => ⟨fun _ => trivial, fun _ => hr h⟩⟩

theorem steps_advances (hw : w.Inv p) (hplaced : s.Placed w.promptIds)
    (hs : w.scheduler.Advances s) : Steps p w { w with scheduler := s } True := by
  have hlength : s.calls.length = w.scheduler.calls.length :=
    hplaced.length.trans hw.placed.length.symm
  apply Steps.intro
  · exact ⟨hplaced, fun u hu => (hw.tasks u hu).advances hs hlength, hw.apart⟩
  · intro hr u hu hended j q hj hq hholds
    exact hr u hu hended j q hj hq (hs.holds q hholds)

/-- A task begins. -/
theorem steps_start (hw : w.Inv p) :
    Steps p w { w with tasks := w.tasks ++ [⟨none, .begin p⟩] } True := by
  apply Steps.intro
  · refine ⟨hw.placed, ?_, ?_⟩
    · intro u hu
      rcases List.mem_append.mp hu with hu | hu
      · exact (hw.tasks u hu).frame (fun _ _ h => h) (fun _ _ _ h => h) (fun _ _ _ _ h => h)
      · obtain rfl := List.mem_singleton.mp hu
        refine ⟨?_, nofun, ?_, nofun⟩
        · intro h
          rcases h with h | h
          · cases hscheduler : p.hasScheduler with
            | true => rfl
            | false =>
              simp only [GenerateRun.begin, hscheduler] at h
              cases h
          · exact absurd rfl h
        · intro q c hphase
          simp only [GenerateRun.begin] at hphase
          split_ifs at hphase
    · apply hw.apart.concat
      intro u _
      exact ⟨nofun, fun j _ h => by cases h⟩
  · intro hr u hu hended
    rcases List.mem_append.mp hu with hu | hu
    · exact hr u hu hended
    · obtain rfl := List.mem_singleton.mp hu
      intro j q hj
      cases hj

/-- A call is made under a new prompt id. -/
theorem steps_admitPrompt {repo dataKey : String} {rolloutId : Option Int} {now : ℚ}
    {aggregated : List (String × RepoResourceProfile)} (hw : w.Inv p) (hi : w.tasks[i]? = some t)
    (hphase : t.run.phase.isAdmitting = true) (hnone : t.call? = none)
    (hfresh : promptId ∉ w.promptIds) :
    Steps p w ⟨w.scheduler.admitPrompt promptId repo dataKey rolloutId now aggregated,
      w.promptIds ++ [promptId],
      w.tasks.set i { t with call? := some w.scheduler.calls.length }⟩ True := by
  have hplaced : (w.scheduler.admitPrompt promptId repo dataKey rolloutId now aggregated).Placed
      (w.promptIds ++ [promptId]) := hw.placed.admitPrompt hfresh
  obtain ⟨⟨r, hcalls⟩, hpending, hactive, hleases⟩ := w.scheduler.admitPrompt_cases promptId repo
    dataKey rolloutId now aggregated
  have hlt : ∀ u ∈ w.tasks, ∀ j, u.call? = some j → j < w.scheduler.calls.length := by
    intro u hu j hj
    obtain ⟨c, q, hc, -⟩ := (hw.tasks u hu).call j hj
    exact (List.getElem?_eq_some_iff.mp hc).1
  have hids : ∀ (j : Nat) q, w.promptIds[j]? = some q →
      (w.promptIds ++ [promptId])[j]? = some q := by
    intro j q hq
    rw [List.getElem?_append_left (List.getElem?_eq_some_iff.mp hq).1]
    exact hq
  have hok := hw.tasks t (List.mem_of_getElem? hi)
  have hticket : t.run.admissionTicket = none := by
    cases hticket : t.run.admissionTicket with
    | none => rfl
    | some q =>
      obtain ⟨j, ticket, hj, -⟩ := hok.ticket q hticket
      rw [hnone] at hj
      cases hj
  apply Steps.intro
  · refine ⟨hplaced, ?_, ?_⟩
    · intro u hu
      rcases mem_set_cases hu with rfl | ⟨k, -, hu⟩
      · refine ⟨hok.scheduler, ?_, hok.finishing, ?_⟩
        · intro q hq
          change t.run.admissionTicket = some q at hq
          rw [hticket] at hq
          cases hq
        · intro j hj
          obtain rfl := Option.some.inj hj
          refine ⟨.requested r, promptId, ?_, ?_, hphase⟩
          · dsimp only
            rw [hcalls]
            exact List.getElem?_concat_length
          · dsimp only
            rw [hw.placed.length]
            exact List.getElem?_concat_length
      · have hmem := List.mem_of_getElem? hu
        refine (hw.tasks u hmem).frame hids ?_ ?_
        · intro j c hj hc
          dsimp only
          rw [hcalls, List.getElem?_append_left (hlt u hmem j hj)]
          exact hc
        · intro j q _ _ hq
          dsimp only
          rw [hactive]
          exact hq
    · apply hw.apart.set
      intro k u _ hu
      have hother : OtherCall { t with call? := some w.scheduler.calls.length } u := by
        intro j hj hsame
        obtain rfl := Option.some.inj hj
        exact Nat.lt_irrefl _ (hlt u (List.mem_of_getElem? hu) _ hsame)
      exact ⟨hother, hother.symm⟩
  · intro hr u hu hended j q hj hq hholds
    rcases mem_set_cases hu with rfl | ⟨k, -, hu⟩
    · have hnot := GeneratePhase.isEnded_of_isAdmitting hphase
      exact absurd hended (Bool.eq_false_iff.mp hnot)
    · have hmem := List.mem_of_getElem? hu
      have hbound : j < w.promptIds.length := by
        rw [← hw.placed.length]
        exact hlt u hmem j hj
      dsimp only at hq
      rw [List.getElem?_append_left hbound] at hq
      refine hr u hmem hended j q hj hq ?_
      unfold OnlineEnvDockerScheduler.Holds at hholds ⊢
      rw [hpending, hactive, hleases] at hholds
      exact hholds

/-- The request of a task joins the queue. -/
theorem steps_enqueue (hw : w.Inv p) (hn : w.scheduler.next lower (.enqueue j) = some s) :
    Steps p w { w with scheduler := s } True := by
  obtain ⟨hplaced, request, hc, rfl⟩ := hw.placed.enqueue hn
  obtain ⟨hlt, -⟩ := List.getElem?_eq_some_iff.mp hc
  apply Steps.intro
  · refine ⟨hplaced, ?_, hw.apart⟩
    intro u hu
    have hok := hw.tasks u hu
    refine ⟨hok.scheduler, ?_, hok.finishing, ?_⟩
    · intro q hq
      obtain ⟨k, ticket, hk, hid, hk'⟩ := hok.ticket q hq
      have hne : j ≠ k := by
        intro hsame
        rw [← hsame, hc] at hk'
        cases hk'
      refine ⟨k, ticket, hk, hid, ?_⟩
      dsimp only
      rw [List.getElem?_set_ne hne]
      exact hk'
    · intro k hk
      obtain ⟨c, q, hk', hid, hat⟩ := hok.call k hk
      by_cases hsame : j = k
      · rw [← hsame, hc] at hk'
        obtain rfl := Option.some.inj hk'
        refine ⟨.waiting, q, ?_, hid, hat⟩
        rw [← hsame]
        exact List.getElem?_set_self hlt
      · refine ⟨c, q, ?_, hid, hat⟩
        dsimp only
        rw [List.getElem?_set_ne hsame]
        exact hk'
  · intro hr u hu hended k q hk hq hholds
    obtain ⟨q', hq'⟩ := hw.placed.id_of_call hc
    obtain ⟨-, hid, -⟩ := hw.placed.calls j _ q' hc hq'
    rcases hplaced.mapped.holds_iff.mp hholds with ⟨r, hmem, hrid⟩ | hactive
    · rcases List.mem_append.mp hmem with hmem | hmem
      · exact hr u hu hended k q hk hq (.inl ⟨r, hmem, hrid⟩)
      · -- the request is that of a call whose task has not ended
        obtain rfl := List.mem_singleton.mp hmem
        rw [← hid, hrid] at hq'
        obtain rfl : k = j := hw.placed.eq_of_id hq hq'
        obtain ⟨c, _, hc', -, hat⟩ := (hw.tasks u hu).call k hk
        obtain rfl := Option.some.inj (hc.symm.trans hc')
        have hnot := GeneratePhase.isEnded_of_isAdmitting hat
        exact absurd hended (Bool.eq_false_iff.mp hnot)
    · exact hr u hu hended k q hk hq (.inr (.inl hactive))

/-- What only one call does to the calls: the others are as they were. -/
theorem TaskOk.set_call {c : AdmitCall} (hok : w.TaskOk p u) (hj : u.call? ≠ some j)
    (hids : w'.promptIds = w.promptIds) (hcalls : w'.scheduler.calls = w.scheduler.calls.set j c)
    (hactive : w'.scheduler.activePrompts = w.scheduler.activePrompts) : w'.TaskOk p u := by
  apply hok.frame
  · intro k q hq
    rw [hids]
    exact hq
  · intro k b hk hb
    have hne : j ≠ k := by
      intro hsame
      rw [hsame] at hj
      exact hj hk
    rw [hcalls, List.getElem?_set_ne hne]
    exact hb
  · intro k q _ _ hq
    rw [hactive]
    exact hq

/-- A call returns its ticket, and the task waits for the semaphore. -/
theorem steps_returnTicket {now : ℚ} {ticket : PromptAdmissionTicket} {run : GenerateRun ε}
    (hw : w.Inv p) (hi : w.tasks[i]? = some t) (hj : t.call? = some j)
    (hn : w.scheduler.next lower (.returnTicket j now) = some s)
    (hc : s.calls[j]? = some (.returned ticket))
    (hs : t.run.step p (.admission (.ok ticket.promptId)) = some run) :
    Steps p w { w with scheduler := s, tasks := w.tasks.set i { t with run := run } } True := by
  obtain ⟨hplaced, request, ticket', hbefore, rfl⟩ := hw.placed.returnTicket hn
  obtain ⟨hlt, -⟩ := List.getElem?_eq_some_iff.mp hbefore
  have hsame : some (AdmitCall.returned ticket') = some (.returned ticket) :=
    (List.getElem?_set_self hlt).symm.trans hc
  obtain rfl := AdmitCall.returned.inj (Option.some.inj hsame)
  obtain ⟨c, q, hc', hq, hat⟩ := (hw.tasks t (List.mem_of_getElem? hi)).call j hj
  obtain rfl := Option.some.inj (hbefore.symm.trans hc')
  have hid : ticket'.promptId = q := hplaced.calls j _ q hc hq
  obtain ⟨-, hactive⟩ := hw.placed.calls j _ q hbefore hq
  have hok := hw.tasks t (List.mem_of_getElem? hi)
  obtain ⟨-, hrun⟩ := GenerateRun.step_admit hs
  subst hrun
  have hinv : Inv p { w with
      scheduler := { w.scheduler with calls := w.scheduler.calls.set j (.returned ticket') }
      tasks := w.tasks.set i { t with run := { t.run with
        admissionTicket := some ticket'.promptId, phase := .acquiring } } } := by
    refine hw.set hi rfl rfl hplaced ?_ ?_
    · refine ⟨fun _ => hok.scheduler (.inl hat), ?_, nofun, ?_⟩
      · intro q' hq'
        obtain rfl := Option.some.inj hq'
        refine ⟨j, ticket', hj, ?_, hc⟩
        rw [hid]
        exact hq
      · intro k hk
        obtain rfl := Option.some.inj (hj.symm.trans hk)
        exact ⟨_, q, hc, hq, rfl, congrArg some hid, fun _ => hactive⟩
    · intro u _ hother hu
      exact hu.set_call (hother j hj) rfl rfl rfl
  apply Steps.intro hinv
  intro hr
  refine hr.set hi rfl hw nofun ?_
  intro u _ _ k q' _ hq'
  refine ⟨hq', ?_⟩
  intro _ hholds
  exact hholds

theorem TaskOk.ticket_eq_none (hok : w.TaskOk p t) (hphase : t.run.phase.isAdmitting = true) :
    t.run.admissionTicket = none := by
  cases hticket : t.run.admissionTicket with
  | none => rfl
  | some q =>
    obtain ⟨j, ticket, hj, -, hc⟩ := hok.ticket q hticket
    obtain ⟨c, q', hc', -, hat⟩ := hok.call j hj
    obtain rfl := Option.some.inj (hc.symm.trans hc')
    obtain ⟨hnot, -⟩ := hat
    rw [hphase] at hnot
    cases hnot

/-- The call of a task in `admit_prompt` is under way. -/
theorem TaskOk.call_of_admitting (hok : w.TaskOk p t) (hphase : t.run.phase.isAdmitting = true)
    (hj : t.call? = some j) : ∃ c promptId, w.scheduler.calls[j]? = some c ∧
      w.promptIds[j]? = some promptId ∧ c ≠ .cancelled ∧ ∀ ticket, c ≠ .returned ticket := by
  obtain ⟨c, q, hc, hq, hat⟩ := hok.call j hj
  refine ⟨c, q, hc, hq, ?_, ?_⟩
  · rintro rfl
    have hnot := GeneratePhase.isEnded_of_isAdmitting hphase
    exact absurd hat (Bool.eq_false_iff.mp hnot)
  · rintro ticket rfl
    obtain ⟨hnot, -⟩ := hat
    rw [hphase] at hnot
    cases hnot

/-- The steps that a task takes without the scheduler. -/
theorem inv_alone {run : GenerateRun ε} (hw : w.Inv p) (hi : w.tasks[i]? = some t)
    (hnone : t.call? = none) (hticket : run.admissionTicket = none)
    (hphase : run.phase.isAdmitting = false)
    (hfinishing : ∀ q c, run.phase ≠ .finishing q c) :
    Inv p { w with tasks := w.tasks.set i { t with run := run } } := by
  refine hw.set hi rfl rfl hw.placed ?_ ?_
  · refine ⟨?_, ?_, ?_, ?_⟩
    · intro h
      rcases h with h | h
      · change run.phase.isAdmitting = true at h
        rw [hphase] at h
        cases h
      · exact absurd hticket h
    · intro q hq
      change run.admissionTicket = some q at hq
      rw [hticket] at hq
      cases hq
    · intro q c h
      exact absurd h (hfinishing q c)
    · intro j hj
      change t.call? = some j at hj
      rw [hnone] at hj
      cases hj
  · intro u _ _ hu
    exact hu.frame (fun _ _ h => h) (fun _ _ _ h => h) (fun _ _ _ _ h => h)

theorem returned_alone {run : GenerateRun ε} (hw : w.Inv p) (hr : w.Returned)
    (hi : w.tasks[i]? = some t) (hnone : t.call? = none) :
    Returned { w with tasks := w.tasks.set i { t with run := run } } := by
  refine hr.set hi rfl hw ?_ ?_
  · intro _ j q hj
    change t.call? = some j at hj
    rw [hnone] at hj
    cases hj
  · intro u _ _ j q _ hq
    exact ⟨hq, fun _ hholds => hholds⟩

/-- A task with a call is cancelled in `admit_prompt`. -/
theorem steps_cancelAdmit (hw : w.Inv p) (hi : w.tasks[i]? = some t) (hj : t.call? = some j)
    (hphase : t.run.phase.isAdmitting = true)
    (hn : w.scheduler.next lower (.cancelAdmit j) = some s) :
    Steps p w { w with
      scheduler := s
      tasks := w.tasks.set i { t with run := { t.run with phase := .ended true } } }
        (w.scheduler.calls[j]? ≠ some .waiting ∧
          ∀ c ∈ w.scheduler.calls[j]?, c.admitted? = none) := by
  obtain ⟨hplaced, rfl⟩ := hw.placed.cancelAdmit hn
  have hok := hw.tasks t (List.mem_of_getElem? hi)
  obtain ⟨c, q, hc, hq, hcancelled, hreturned⟩ := hok.call_of_admitting hphase hj
  obtain ⟨hlt, -⟩ := List.getElem?_eq_some_iff.mp hc
  have hticket := hok.ticket_eq_none hphase
  refine ⟨?_, ?_⟩
  · refine hw.set hi rfl rfl hplaced ?_ ?_
    · refine ⟨?_, ?_, nofun, ?_⟩
      · intro h
        rcases h with h | h
        · cases h
        · exact absurd hticket h
      · intro q' hq'
        change t.run.admissionTicket = some q' at hq'
        rw [hticket] at hq'
        cases hq'
      · intro k hk
        obtain rfl := Option.some.inj (hj.symm.trans hk)
        exact ⟨.cancelled, q, List.getElem?_set_self hlt, hq, rfl⟩
    · intro u _ hother hu
      exact hu.set_call (hother j hj) rfl rfl rfl
  · intro hr
    have hmem : ({ t with run := { t.run with phase := .ended true } } : RolloutTask ε) ∈
        w.tasks.set i { t with run := { t.run with phase := .ended true } } :=
      List.mem_set (List.getElem?_eq_some_iff.mp hi).1 _
    have hat := hw.placed.calls j c q hc hq
    rw [hc]
    cases c with
    | requested r =>
      obtain ⟨-, -, hnot⟩ := hat
      refine iff_of_true ?_ ⟨nofun, ?_⟩
      · refine hr.set hi rfl hw ?_ ?_
        · intro _ k q' hk hq' hholds
          obtain rfl := Option.some.inj (hj.symm.trans hk)
          obtain rfl : q = q' := Option.some.inj (hq.symm.trans hq')
          rcases hplaced.mapped.holds_iff.mp hholds with hpending | hactive
          · rcases hw.placed.call_of_pending hq hpending with hcall | hcall
            · rw [hc] at hcall
              cases hcall
            · rw [hc] at hcall
              cases hcall
          · exact hnot hactive
        · intro u _ _ k q' _ hq'
          exact ⟨hq', fun _ hholds => hholds⟩
      · intro c' hc'
        cases hc'
        rfl
    | waiting =>
      refine iff_of_false ?_ ?_
      · intro hr'
        exact hr' _ hmem rfl j q hj hq (.inl hat.1)
      · intro hguard
        exact hguard.1 rfl
    | admitted r =>
      refine iff_of_false ?_ ?_
      · intro hr'
        exact hr' _ hmem rfl j q hj hq (.inr (.inl hat.2))
      · intro hguard
        have hnone := hguard.2 (.admitted r) rfl
        cases hnone
    | returned ticket => exact absurd rfl (hreturned ticket)
    | cancelled => exact absurd rfl hcancelled

/-- `admit_prompt` does not return. -/
theorem steps_admitRaised {raised : Raised} {now : ℚ}
    {aggregated : List (String × RepoResourceProfile)} (hw : w.Inv p) (hi : w.tasks[i]? = some t)
    (hs : w.admitRaised lower p i t raised = some w') :
    Steps p w w' (w.Guarded (.run i (.admission (.error raised)) now aggregated)) := by
  obtain ⟨run, hrun, hs⟩ := Option.bind_eq_some_iff.mp hs
  obtain ⟨hphase, rfl⟩ := GenerateRun.step_admit hrun
  have hadmitting : t.run.phase.isAdmitting = true := by
    rw [hphase]
    rfl
  have hticket := (hw.tasks t (List.mem_of_getElem? hi)).ticket_eq_none hadmitting
  obtain ⟨call?, run⟩ := t
  cases call? with
  | none =>
    have hset : w' = { w with
        tasks := w.tasks.set i ⟨none, run.afterAdmit (.error raised)⟩ } := by
      cases raised <;> exact (Option.some.inj hs).symm
    have hguarded : w.Guarded (.run i (.admission (.error raised)) now aggregated) := by
      cases raised with
      | cancelled =>
        intro u hu j hj
        obtain rfl := Option.some.inj (hi.symm.trans hu)
        cases hj
      | timeout | error => trivial
    rw [hset]
    refine ⟨?_, fun hr => iff_of_true (returned_alone hw hr hi rfl) hguarded⟩
    cases raised with
    | cancelled => exact inv_alone hw hi rfl hticket rfl nofun
    | timeout error => exact inv_alone hw hi rfl hticket rfl nofun
    | error error => exact inv_alone hw hi rfl hticket rfl nofun
  | some j =>
    cases raised with
    | cancelled =>
      obtain ⟨s, hn, rfl⟩ := Option.map_eq_some_iff.mp hs
      obtain ⟨hinv, hreturned⟩ := steps_cancelAdmit hw hi rfl hadmitting hn
      refine ⟨hinv, fun hr => (hreturned hr).trans ?_⟩
      constructor
      · intro hguard u hu k hk
        obtain rfl := Option.some.inj (hi.symm.trans hu)
        obtain rfl : j = k := Option.some.inj hk
        exact hguard
      · intro hguard
        exact hguard _ hi j rfl
    | timeout | error => cases hs

/-- What the scheduler does for a task that does not finish its prompt. -/
theorem perform_touched (lower : String → String) (run : GenerateRun ε) (now : ℚ)
    (aggregated : List (String × RepoResourceProfile)) {a : GenerateAction ε}
    (hf : ∀ result, a ≠ .finish result) (hm : s.Mapped) :
    s.Touched (perform lower s run now aggregated a) ∧
      (perform lower s run now aggregated a).Mapped := by
  have hsame : s.Touched s ∧ s.Mapped := ⟨⟨rfl, rfl, rfl, rfl, .inl rfl⟩, hm⟩
  have hattach : ∀ q leaseId, s.Touched (s.attachLease q leaseId) ∧ (s.attachLease q leaseId).Mapped :=
    fun q leaseId => ⟨OnlineEnvDockerScheduler.touched_attachLease, hm.attachLease⟩
  have hdetach : ∀ leaseId? : Option String,
      s.Touched (leaseId?.elim s s.detachLease) ∧ (leaseId?.elim s s.detachLease).Mapped := by
    intro leaseId?
    cases leaseId? with
    | none => exact hsame
    | some leaseId => exact ⟨OnlineEnvDockerScheduler.touched_detachLease, hm.detachLease⟩
  cases a with
  | finish result => exact absurd rfl (hf result)
  | attach result =>
    match result with
    | .error .cancelled => exact hsame
    | .ok _ | .error (.timeout _) | .error (.error _) =>
      simp only [perform]
      split
      · exact hattach _ _
      · exact hattach _ _
      · exact hsame
  | detach result =>
    match result with
    | .error .cancelled => exact hsame
    | .ok _ | .error (.timeout _) | .error (.error _) =>
      simp only [perform]
      split
      · exact hdetach _
      · exact hdetach _
      · exact hdetach _
      · exact hdetach _
      · exact hsame
  | _ => exact hsame

/-- A task without a ticket has no call any more, unless `admit_prompt` or the task has ended it. -/
theorem TaskOk.call_eq_none (hok : w.TaskOk p t) (hphase : t.run.phase.isAdmitting = false)
    (hended : t.run.phase.isEnded = false) (hticket : t.run.admissionTicket = none) :
    t.call? = none := by
  cases hj : t.call? with
  | none => rfl
  | some j =>
    obtain ⟨c, q, -, -, hat⟩ := hok.call j hj
    cases c with
    | requested | waiting | admitted =>
      change t.run.phase.isAdmitting = true at hat
      rw [hphase] at hat
      cases hat
    | returned ticket =>
      obtain ⟨-, hsome, -⟩ := hat
      rw [hticket] at hsome
      cases hsome
    | cancelled =>
      change t.run.phase.isEnded = true at hat
      rw [hended] at hat
      cases hat

/-- A step of a task that keeps its ticket. -/
theorem TaskOk.keep {run : GenerateRun ε} (hok : w.TaskOk p t)
    (hphase : t.run.phase.isAdmitting = false) (hended : t.run.phase.isEnded = false)
    (hticket : run.admissionTicket = t.run.admissionTicket)
    (hadmitting : run.phase.isAdmitting = false)
    (hfinishing : ∀ q c, run.phase = .finishing q c → t.run.admissionTicket = some q)
    (hids : w'.promptIds = w.promptIds) (hcalls : w'.scheduler.calls = w.scheduler.calls)
    (hactive : ∀ j q, t.call? = some j → w.promptIds[j]? = some q → run.phase.isEnded = false →
      q ∈ w.scheduler.activePrompts → q ∈ w'.scheduler.activePrompts) :
    w'.TaskOk p { t with run := run } := by
  refine ⟨?_, ?_, ?_, ?_⟩
  · intro h
    rcases h with h | h
    · change run.phase.isAdmitting = true at h
      rw [hadmitting] at h
      cases h
    · change run.admissionTicket ≠ none at h
      rw [hticket] at h
      exact hok.scheduler (.inr h)
  · intro q hq
    change run.admissionTicket = some q at hq
    rw [hticket] at hq
    rw [hids, hcalls]
    exact hok.ticket q hq
  · intro q c hq
    exact hticket.trans (hfinishing q c hq)
  · intro j hj
    obtain ⟨c, q, hc, hid, hat⟩ := hok.call j hj
    rw [hids, hcalls]
    refine ⟨c, q, hc, hid, ?_⟩
    cases c with
    | requested | waiting | admitted =>
      change t.run.phase.isAdmitting = true at hat
      rw [hphase] at hat
      cases hat
    | returned ticket =>
      obtain ⟨-, hsome, hkept⟩ := hat
      exact ⟨hadmitting, hticket.trans hsome,
        fun hrunning => hactive j q hj hid hrunning (hkept hended)⟩
    | cancelled =>
      change t.run.phase.isEnded = true at hat
      rw [hended] at hat
      cases hat

theorem TaskOk.ticket_of_keeps {run : GenerateRun ε} (hok : w.TaskOk p t)
    (hkeeps : t.run.Keeps p run) (hended : run.phase.isEnded = true) :
    t.run.admissionTicket = none := by
  rcases hkeeps.ended hended with hticket | hscheduler
  · exact hticket
  · by_contra hsome
    have htrue := hok.scheduler (.inr hsome)
    rw [hscheduler] at htrue
    cases htrue

/-- A step of a task between `admit_prompt` and `finish_prompt`. -/
theorem steps_keeps {run : GenerateRun ε} (hw : w.Inv p) (hi : w.tasks[i]? = some t)
    (hphase : t.run.phase.isAdmitting = false) (hended : t.run.phase.isEnded = false)
    (hkeeps : t.run.Keeps p run) (hplaced : s.Placed w.promptIds)
    (ht : w.scheduler.Touched s) :
    Steps p w { w with scheduler := s, tasks := w.tasks.set i { t with run := run } } True := by
  have hok := hw.tasks t (List.mem_of_getElem? hi)
  have hadvances := OnlineEnvDockerScheduler.advances_touched hw.placed ht hplaced.mapped
  have hcalls : s.calls = w.scheduler.calls := ht.2.2.1
  apply Steps.intro
  · refine hw.set hi rfl rfl hplaced ?_ ?_
    · exact hok.keep hphase hended hkeeps.ticket hkeeps.phase hkeeps.finishing rfl hcalls
        fun j q _ _ _ hq => hadvances.active q hq
    · intro u _ _ hu
      refine hu.frame (fun _ _ h => h) ?_ ?_
      · intro j c _ hc
        rw [hcalls]
        exact hc
      · intro j q _ _ hq
        exact hadvances.active q hq
  · intro hr
    refine hr.set hi rfl hw ?_ ?_
    · intro hrun j q hj
      change t.call? = some j at hj
      rw [hok.call_eq_none hphase hended (hok.ticket_of_keeps hkeeps hrun)] at hj
      cases hj
    · intro u _ _ j q _ hq
      exact ⟨hq, fun _ hholds => hadvances.holds q hholds⟩

/-- A task is cancelled after `admit_prompt`, and its prompt is not finished. -/
theorem steps_drop (isCancelled : Bool) (hw : w.Inv p) (hi : w.tasks[i]? = some t)
    (hphase : t.run.phase.isAdmitting = false) (hended : t.run.phase.isEnded = false) :
    Steps p w { w with
      tasks := w.tasks.set i { t with run := { t.run with phase := .ended isCancelled } } }
        (t.run.admissionTicket = none) := by
  have hok := hw.tasks t (List.mem_of_getElem? hi)
  refine ⟨?_, ?_⟩
  · refine hw.set hi rfl rfl hw.placed ?_ ?_
    · exact hok.keep hphase hended rfl rfl nofun rfl rfl fun _ _ _ _ _ hq => hq
    · intro u _ _ hu
      exact hu.frame (fun _ _ h => h) (fun _ _ _ h => h) (fun _ _ _ _ h => h)
  · intro hr
    constructor
    · intro hr'
      by_contra hsome
      obtain ⟨q, hq⟩ := Option.ne_none_iff_exists'.mp hsome
      obtain ⟨j, ticket, hj, hid, hc⟩ := hok.ticket q hq
      obtain ⟨c, q', hc', hid', hat⟩ := hok.call j hj
      obtain rfl := Option.some.inj (hc.symm.trans hc')
      obtain rfl := Option.some.inj (hid.symm.trans hid')
      have hmem := List.mem_set (List.getElem?_eq_some_iff.mp hi).1
        ({ t with run := { t.run with phase := .ended isCancelled } } : RolloutTask ε)
      exact hr' _ hmem rfl j q hj hid (.inr (.inl (hat.2.2 hended)))
    · intro hticket
      exact returned_alone hw hr hi (hok.call_eq_none hphase hended hticket)

theorem running_of_finishing {isCancelled : Bool}
    (hphase : t.run.phase = .finishing promptId isCancelled) :
    t.run.phase.isAdmitting = false ∧ t.run.phase.isEnded = false := by
  rw [hphase]
  exact ⟨rfl, rfl⟩

/-- The prompt of a task is finished. -/
theorem steps_frees {isCancelled isCancelled' : Bool} (hw : w.Inv p) (hi : w.tasks[i]? = some t)
    (hphase : t.run.phase = .finishing promptId isCancelled) (hplaced : s.Placed w.promptIds)
    (hf : w.scheduler.Frees s promptId) :
    Steps p w { w with
      scheduler := s
      tasks := w.tasks.set i { t with run := { t.run with phase := .ended isCancelled' } } } True := by
  have hok := hw.tasks t (List.mem_of_getElem? hi)
  obtain ⟨hadmitting, hended⟩ := running_of_finishing hphase
  obtain ⟨j, ticket, hj, hid, hc⟩ := hok.ticket promptId (hok.finishing promptId _ hphase)
  have hcalls : s.calls[j]? = some (.returned ticket) := by
    rw [hf.calls]
    exact hc
  have hnot : ¬∃ r ∈ w.scheduler.pending, r.promptId = promptId := by
    intro hpending
    rcases hw.placed.call_of_pending hid hpending with hcall | hcall
    · rw [hc] at hcall
      cases hcall
    · rw [hc] at hcall
      cases hcall
  have hholds : ∀ q, s.Holds q → q ≠ promptId ∧ w.scheduler.Holds q := by
    intro q hq
    rcases hf.holds hplaced hq with hother | hpending
    · exact hother
    · refine ⟨?_, .inl hpending⟩
      rintro rfl
      exact hnot hpending
  apply Steps.intro
  · refine hw.set hi rfl rfl hplaced ?_ ?_
    · exact hok.keep hadmitting hended rfl rfl nofun rfl hf.calls nofun
    · intro u _ hother hu
      refine hu.frame (fun _ _ h => h) ?_ ?_
      · intro k c _ hk
        rw [hf.calls]
        exact hk
      · intro k q hk hq hmem
        refine (hf.active q).mpr ⟨?_, hmem⟩
        rintro rfl
        rw [hw.placed.eq_of_id hq hid] at hk
        exact hother j hj hk
  · intro hr
    refine hr.set hi rfl hw ?_ ?_
    · intro _ k q hk hq hq'
      obtain rfl := Option.some.inj (hj.symm.trans hk)
      obtain rfl := Option.some.inj (hid.symm.trans hq)
      exact (hholds promptId hq').1 rfl
    · intro u _ _ k q _ hq
      exact ⟨hq, fun _ hq' => (hholds q hq').2⟩

theorem steps_finish {result : Except Raised Unit} {run : GenerateRun ε} {now : ℚ}
    {aggregated : List (String × RepoResourceProfile)} (hw : w.Inv p) (hi : w.tasks[i]? = some t)
    (hs : t.run.step p (.finish result) = some run) :
    Steps p w { w with
      scheduler := perform lower w.scheduler t.run now aggregated (.finish result)
      tasks := w.tasks.set i { t with run := run } }
        (w.Guarded (.run i (.finish result) now aggregated)) := by
  obtain ⟨q, c, c', hphase, rfl⟩ := GenerateRun.step_finish hs
  have hok := hw.tasks t (List.mem_of_getElem? hi)
  have hticket := hok.finishing q c hphase
  obtain ⟨j, ticket, hj, hid, hc⟩ := hok.ticket q hticket
  have hreleased : ∀ raised : Raised, raised ≠ .cancelled → Steps p w { w with
      scheduler := perform lower w.scheduler t.run now aggregated (.finish (.error raised))
      tasks := w.tasks.set i { t with run := { t.run with phase := .ended c' } } } True := by
    intro raised hraised
    have hperform : perform lower w.scheduler t.run now aggregated (.finish (.error raised)) =
        (w.scheduler.activePrompts.lookup q).elim w.scheduler (w.scheduler.release q) := by
      cases raised with
      | cancelled => exact absurd rfl hraised
      | timeout | error => simp only [perform, hphase]
    rw [hperform]
    cases hl : w.scheduler.activePrompts.lookup q with
    | none =>
      exact steps_frees hw hi hphase hw.placed (OnlineEnvDockerScheduler.frees_of_lookup_none hl)
    | some active =>
      exact steps_frees hw hi hphase (hw.placed.release hid hc hl)
        OnlineEnvDockerScheduler.frees_release
  match result with
  | .ok _ =>
    have hperform : perform lower w.scheduler t.run now aggregated (.finish (.ok ())) =
        w.scheduler.finishPrompt lower q now aggregated := by
      simp only [perform, hphase]
    rw [hperform]
    exact steps_frees hw hi hphase (hw.placed.finishPrompt hid hc)
      OnlineEnvDockerScheduler.frees_finishPrompt
  | .error .cancelled =>
    obtain ⟨hadmitting, hended⟩ := running_of_finishing hphase
    obtain ⟨hinv, hreturned⟩ := steps_drop c' hw hi hadmitting hended
    refine ⟨hinv, fun hr => (hreturned hr).trans (iff_of_false ?_ id)⟩
    rw [hticket]
    exact nofun
  | .error (.timeout error) => exact hreleased (.timeout error) nofun
  | .error (.error error) => exact hreleased (.error error) nofun

/-- A task that is cancelled while it waits for the semaphore ends; it keeps its admission only when
it has none. -/
theorem guarded_of_keeps {a : GenerateAction ε} {run : GenerateRun ε} {now : ℚ}
    {aggregated : List (String × RepoResourceProfile)} (hok : w.TaskOk p t)
    (hi : w.tasks[i]? = some t) (ha : ∀ result, a ≠ .admission result)
    (hf : ∀ result, a ≠ .finish result) (hkeeps : t.run.Keeps p run)
    (hs : t.run.step p a = some run) : w.Guarded (.run i a now aggregated) := by
  cases a with
  | admission result => exact absurd rfl (ha result)
  | finish result => exact absurd rfl (hf result)
  | acquire result =>
    match result with
    | .error .cancelled =>
      intro u hu hacquiring
      obtain rfl := Option.some.inj (hi.symm.trans hu)
      apply hok.ticket_of_keeps hkeeps
      cases hphase : t.run.phase with
      | acquiring =>
        simp only [GenerateRun.step, hphase] at hs
        rw [← Option.some.inj hs]
        rfl
      | _ =>
        rw [hphase] at hacquiring
        cases hacquiring
    | .ok _ | .error (.timeout _) | .error (.error _) => trivial
  | allocate | attach | agent | agentTimeout | close | detach | evaluate => trivial

/-- A step of a task after `admit_prompt` and before `finish_prompt`. -/
theorem steps_run {a : GenerateAction ε} {run : GenerateRun ε} {now : ℚ}
    {aggregated : List (String × RepoResourceProfile)} (hw : w.Inv p) (hi : w.tasks[i]? = some t)
    (ha : ∀ result, a ≠ .admission result) (hf : ∀ result, a ≠ .finish result)
    (hs : t.run.step p a = some run) :
    Steps p w { w with
      scheduler := perform lower w.scheduler t.run now aggregated a
      tasks := w.tasks.set i { t with run := run } } (w.Guarded (.run i a now aggregated)) := by
  obtain ⟨hended, hadmit⟩ := GenerateRun.phase_of_step hs
  have hphase : t.run.phase.isAdmitting = false := by
    apply Bool.eq_false_iff.mpr
    intro h
    obtain ⟨result, he⟩ := hadmit h
    exact ha result he
  rcases GenerateRun.keeps_or_ends ha hf hs with hkeeps | ⟨hacquiring, rfl, rfl⟩
  · obtain ⟨ht, hm⟩ := perform_touched lower t.run now aggregated hf hw.placed.mapped
    obtain ⟨hinv, hreturned⟩ := steps_keeps hw hi hphase hended hkeeps (hw.placed.touched ht hm) ht
    refine ⟨hinv, fun hr => (hreturned hr).trans (iff_of_true trivial ?_)⟩
    exact guarded_of_keeps (hw.tasks t (List.mem_of_getElem? hi)) hi ha hf hkeeps hs
  · obtain ⟨hinv, hreturned⟩ := steps_drop true hw hi hphase hended
    refine ⟨hinv, fun hr => (hreturned hr).trans ?_⟩
    constructor
    · intro hticket u hu _
      obtain rfl := Option.some.inj (hi.symm.trans hu)
      exact hticket
    · intro hguard
      apply hguard t hi
      rw [hacquiring]
      rfl

theorem steps_next {a : RolloutAction ε} (hw : w.Inv p) (hfresh : w.Fresh a)
    (hn : w.next lower p a = some w') : Steps p w w' (w.Guarded a) := by
  cases a with
  | start =>
    cases hn
    exact steps_start hw
  | admitPrompt i iid groupIndex sampleIndex rolloutId suffix repo dataKey now aggregated =>
    obtain ⟨t, hi, hn⟩ := Option.bind_eq_some_iff.mp hn
    obtain ⟨⟨hphase, hnone⟩, hn⟩ := Option.ite_none_right_eq_some.mp hn
    obtain ⟨s, hs, rfl⟩ := Option.map_eq_some_iff.mp hn
    cases hs
    exact steps_admitPrompt hw hi hphase hnone hfresh
  | enqueue i =>
    obtain ⟨t, -, hn⟩ := Option.bind_eq_some_iff.mp hn
    obtain ⟨j, -, hn⟩ := Option.bind_eq_some_iff.mp hn
    obtain ⟨s, hs, rfl⟩ := Option.map_eq_some_iff.mp hn
    exact steps_enqueue hw hs
  | returnTicket i now =>
    obtain ⟨t, hi, hn⟩ := Option.bind_eq_some_iff.mp hn
    obtain ⟨j, hj, hn⟩ := Option.bind_eq_some_iff.mp hn
    obtain ⟨s, hs, hn⟩ := Option.bind_eq_some_iff.mp hn
    split at hn
    · rename_i ticket hc
      obtain ⟨run, hrun, rfl⟩ := Option.map_eq_some_iff.mp hn
      exact steps_returnTicket hw hi hj hs hc hrun
    · cases hn
  | run i action now aggregated =>
    obtain ⟨t, hi, hn⟩ := Option.bind_eq_some_iff.mp hn
    cases action with
    | admission result =>
      cases result with
      | ok promptId => cases hn
      | error raised => exact steps_admitRaised hw hi hn
    | finish result =>
      obtain ⟨run, hrun, rfl⟩ := Option.map_eq_some_iff.mp hn
      exact steps_finish hw hi hrun
    | _ =>
      obtain ⟨run, hrun, rfl⟩ := Option.map_eq_some_iff.mp hn
      exact steps_run hw hi nofun nofun hrun
  | scheduler action =>
    obtain ⟨hb, hn⟩ := Option.ite_none_right_eq_some.mp hn
    obtain ⟨s, hs, rfl⟩ := Option.map_eq_some_iff.mp hn
    obtain ⟨hplaced, hadvances⟩ := placed_background hw.placed hb hs
    exact steps_advances hw hplaced hadvances

theorem init_inv (p : GenerateParams) (config : SchedulerConfig)
    (repoResourceStats : Dict String RepoResourceProfile) (schedulerStartTs : ℚ) :
    (init config repoResourceStats schedulerStartTs : RolloutTasks ε).Inv p := by
  refine ⟨OnlineEnvDockerScheduler.init_placed config repoResourceStats schedulerStartTs, ?_,
    apart_nil⟩
  intro t ht
  exact absurd ht List.not_mem_nil

/-- In a run with distinct prompt ids the scheduler has nothing left of a prompt whose task has
ended exactly if no cancellation reaches a task where its admission is not guarded. -/
theorem returned_iff_guarded (lower : String → String) (p : GenerateParams)
    (config : SchedulerConfig) (repoResourceStats : Dict String RepoResourceProfile)
    (schedulerStartTs : ℚ) (run : List (RolloutAction ε))
    (h : Meets (next lower p) Fresh (init config repoResourceStats schedulerStartTs) run) :
    Along (next lower p) Returned (init config repoResourceStats schedulerStartTs) run ↔
      Meets (next lower p) Guarded (init config repoResourceStats schedulerStartTs) run := by
  apply along_iff_meets (I := Inv p) _ _ (init_inv p config repoResourceStats schedulerStartTs) _ h
  · intro w a w' hw hfresh hn
    exact (steps_next hw hfresh hn).inv
  · intro w a w' hw hr hfresh hn
    exact (steps_next hw hfresh hn).returned hr
  · intro t ht
    exact absurd ht List.not_mem_nil

instance (w : RolloutTasks ε) : ∀ a, Decidable (w.Fresh a)
  | .admitPrompt _ iid groupIndex sampleIndex _ suffix _ _ _ _ => inferInstanceAs (Decidable
      (buildPromptId iid groupIndex sampleIndex suffix ∉ w.promptIds))
  | .start | .enqueue _ | .returnTicket _ _ | .run _ _ _ _ | .scheduler _ => .isTrue trivial

instance (w : RolloutTasks ε) : ∀ a, Decidable (w.Guarded a)
  | .run i (.admission (.error .cancelled)) _ _ => inferInstanceAs (Decidable
      (∀ t ∈ w.tasks[i]?, ∀ j ∈ t.call?, w.scheduler.calls[j]? ≠ some .waiting ∧
        ∀ c ∈ w.scheduler.calls[j]?, c.admitted? = none))
  | .run i (.acquire (.error .cancelled)) _ _ => inferInstanceAs (Decidable
      (∀ t ∈ w.tasks[i]?, t.run.phase.isAcquiring = true → t.run.admissionTicket = none))
  | .run _ (.finish (.error .cancelled)) _ _ => .isFalse id
  | .run _ (.admission (.ok _)) _ _ | .run _ (.admission (.error (.timeout _))) _ _
  | .run _ (.admission (.error (.error _))) _ _ | .run _ (.acquire (.ok _)) _ _
  | .run _ (.acquire (.error (.timeout _))) _ _ | .run _ (.acquire (.error (.error _))) _ _
  | .run _ (.finish (.ok _)) _ _ | .run _ (.finish (.error (.timeout _))) _ _
  | .run _ (.finish (.error (.error _))) _ _ | .run _ (.allocate _) _ _ | .run _ (.attach _) _ _
  | .run _ (.agent _) _ _ | .run _ .agentTimeout _ _ | .run _ (.close _) _ _
  | .run _ (.detach _) _ _ | .run _ (.evaluate _) _ _ | .start | .enqueue _ | .returnTicket _ _
  | .admitPrompt _ _ _ _ _ _ _ _ _ _ | .scheduler _ => .isTrue trivial

instance (w : RolloutTasks ε) : Decidable w.Returned :=
  decidable_of_iff (∀ t ∈ w.tasks, t.run.phase.isEnded = true → ∀ j ∈ t.call?,
    ∀ promptId ∈ w.promptIds[j]?, ¬w.scheduler.Holds promptId) (by
      constructor
      · intro h t ht hended j q hj hq
        exact h t ht hended j hj q hq
      · intro h t ht hended j hj q hq
        exact h t ht hended j q hj hq)

def scheduledParams : GenerateParams := { GenerateRun.plainParams with hasScheduler := true }

/-- A scheduler with room for everybody, before the first task. -/
def openTasks : RolloutTasks String := init (OnlineEnvDockerScheduler.openConfig 1) ∅ 0

def requestedRun : List (RolloutAction String) :=
  [.start, .admitPrompt 0 (some "a__b-1") (some 0) (some 0) none "x" "a/b" "a__b-1" 0 [],
    .enqueue 0]

def admittedRun : List (RolloutAction String) :=
  requestedRun ++ [.scheduler (.admissionPass 0 1), .returnTicket 0 0]

/-- A task is cancelled while its lease is attached. -/
def attachedRun : List (RolloutAction String) :=
  admittedRun ++ [.run 0 (.acquire (.ok ())) 0 [], .run 0 (.allocate (.ok "l")) 0 [],
    .run 0 (.attach (.error .cancelled)) 0 [], .run 0 (.close (.ok ())) 0 [],
    .run 0 (.detach (.ok ())) 0 [], .run 0 (.finish (.ok ())) 1 []]

theorem returned_iff_guarded_attachedRun :
    Along (next String.toLower scheduledParams) Returned openTasks attachedRun :=
  (returned_iff_guarded String.toLower scheduledParams (OnlineEnvDockerScheduler.openConfig 1) ∅ 0
    attachedRun (by decide +kernel)).mpr (by decide +kernel)

/-- A task is cancelled while its request is pending, between the grant and the wake-up, while it
waits for the semaphore, and in the last wait of its cleanup. -/
theorem returned_fails : [
      requestedRun ++ [.run 0 (.admission (.error .cancelled)) 0 []],
      requestedRun ++ [.scheduler (.admissionPass 0 1), .run 0 (.admission (.error .cancelled)) 0 []],
      admittedRun ++ [.run 0 (.acquire (.error .cancelled)) 0 []],
      admittedRun ++ [.run 0 (.acquire (.ok ())) 0 [], .run 0 (.allocate (.error .cancelled)) 0 [],
        .run 0 (.finish (.error .cancelled)) 0 []]].Forall fun run =>
    Meets (next String.toLower scheduledParams) Fresh openTasks run ∧
      ¬Along (next String.toLower scheduledParams) Returned openTasks run := by
  decide +kernel

end RolloutTasks

end Belayer.Agent
