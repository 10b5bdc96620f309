import Belayer.Agent.GenerateImpl
import Belayer.Scheduler.Prompts

namespace Belayer.Agent

open Belayer.Framework Belayer.Scheduler

variable {ε : Type*}

/-- A task of a rollout, with its call of `admit_prompt`. -/
structure RolloutTask (ε : Type*) where
  call? : Option Nat
  run : GenerateRun ε

/-- The tasks with the scheduler that they share, and the prompt ids of its calls in order. -/
structure RolloutTasks (ε : Type*) where
  scheduler : OnlineEnvDockerScheduler
  promptIds : List String
  tasks : List (RolloutTask ε)

inductive RolloutAction (ε : Type*) where
  | start
  | admitPrompt (i : Nat) (iid : Option String) (groupIndex sampleIndex rolloutId : Option Int)
      (suffix repo dataKey : String) (now : ℚ) (aggregated : List (String × RepoResourceProfile))
  | enqueue (i : Nat)
  | returnTicket (i : Nat) (now : ℚ)
  | run (i : Nat) (action : GenerateAction ε) (now : ℚ)
      (aggregated : List (String × RepoResourceProfile))
  | scheduler (action : SchedulerAction)

/-- What the scheduler does of its own, and the admission pass that any waiting call makes. -/
def isBackground : SchedulerAction → Bool
  | .admissionPass _ _ | .recordLeaseStatsPayload _ _ _ | .recordLeaseStatsError _ _ _
  | .refreshResourceProfiles _ | .recordPromptSummary _ | .refreshServer _
  | .resetAdmissionWindow => true
  | .admitPrompt _ _ _ _ _ _ _ _ _ | .enqueue _ | .returnTicket _ _ | .cancelAdmit _
  | .attachLease _ _ | .detachLease _ | .finishPrompt _ _ _ => false

namespace GeneratePhase

def isAdmitting : GeneratePhase ε → Bool
  | .admitting => true
  | _ => false

def isEnded : GeneratePhase ε → Bool
  | .ended _ => true
  | _ => false

end GeneratePhase

namespace RolloutTasks

section Lower

-- `lower` is `str.lower`
variable (lower : String → String) (p : GenerateParams)

/-- The call of the scheduler that an awaited call has been. A task that is cancelled there has
waited for the lock and has done nothing; an error of `finish_prompt` comes after its first part. -/
def perform (s : OnlineEnvDockerScheduler) (run : GenerateRun ε) (now : ℚ)
    (aggregated : List (String × RepoResourceProfile)) :
    GenerateAction ε → OnlineEnvDockerScheduler
  | .attach (.error .cancelled) | .detach (.error .cancelled) | .finish (.error .cancelled) => s
  | .attach _ =>
    match run.phase, run.admissionTicket, run.evalLeaseId with
    | .attaching leaseId, some promptId, _ => s.attachLease promptId leaseId
    | .attachingEval, some promptId, some evalLeaseId => s.attachLease promptId evalLeaseId
    | _, _, _ => s
  | .detach _ =>
    match run.phase with
    | .detachingAgent | .cleaningDetach _ => run.leaseId.elim s s.detachLease
    | .detachingEval _ | .cleaningEvalDetach _ => run.evalLeaseId.elim s s.detachLease
    | _ => s
  | .finish (.ok _) =>
    match run.phase with
    | .finishing promptId _ => s.finishPrompt lower promptId now aggregated
    | _ => s
  | .finish (.error _) =>
    match run.phase with
    | .finishing promptId _ => (s.activePrompts.lookup promptId).elim s (s.release promptId)
    | _ => s
  | _ => s

/-- `admit_prompt` does not return: it is cancelled, or it fails before it has a request. -/
def admitRaised (w : RolloutTasks ε) (i : Nat) (t : RolloutTask ε) (raised : Raised) :
    Option (RolloutTasks ε) :=
  (t.run.step p (.admission (.error raised))).bind fun run =>
    let tasks := w.tasks.set i { t with run := run }
    match t.call?, raised with
    | none, _ => some { w with tasks := tasks }
    | some j, .cancelled =>
      (w.scheduler.next lower (.cancelAdmit j)).map fun s =>
        { w with scheduler := s, tasks := tasks }
    | some _, _ => none

def next (w : RolloutTasks ε) : RolloutAction ε → Option (RolloutTasks ε)
  | .start => some { w with tasks := w.tasks ++ [⟨none, .begin p⟩] }
  | .admitPrompt i iid groupIndex sampleIndex rolloutId suffix repo dataKey now aggregated =>
    (w.tasks[i]?).bind fun t =>
      if t.run.phase.isAdmitting ∧ t.call? = none then
        (w.scheduler.next lower (.admitPrompt iid groupIndex sampleIndex rolloutId suffix repo dataKey
          now aggregated)).map fun s =>
            ⟨s, w.promptIds ++ [buildPromptId iid groupIndex sampleIndex suffix],
              w.tasks.set i { t with call? := some w.scheduler.calls.length }⟩
      else none
  | .enqueue i =>
    (w.tasks[i]?).bind fun t => t.call?.bind fun j =>
      (w.scheduler.next lower (.enqueue j)).map fun s => { w with scheduler := s }
  | .returnTicket i now =>
    (w.tasks[i]?).bind fun t => t.call?.bind fun j =>
      (w.scheduler.next lower (.returnTicket j now)).bind fun s =>
        match s.calls[j]? with
        | some (.returned ticket) =>
          (t.run.step p (.admission (.ok ticket.promptId))).map fun run =>
            { w with scheduler := s, tasks := w.tasks.set i { t with run := run } }
        | _ => none
  | .run i action now aggregated =>
    (w.tasks[i]?).bind fun t =>
      match action with
      | .admission (.ok _) => none
      | .admission (.error raised) => w.admitRaised lower p i t raised
      | _ =>
        (t.run.step p action).map fun run =>
          { w with
            scheduler := perform lower w.scheduler t.run now aggregated action
            tasks := w.tasks.set i { t with run := run } }
  | .scheduler action =>
    if isBackground action then
      (w.scheduler.next lower action).map fun s => { w with scheduler := s }
    else none

end Lower

def init (config : SchedulerConfig) (repoResourceStats : Dict String RepoResourceProfile)
    (schedulerStartTs : ℚ) : RolloutTasks ε :=
  ⟨.init config repoResourceStats schedulerStartTs, [], []⟩

end RolloutTasks

end Belayer.Agent
