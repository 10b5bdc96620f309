import Belayer.Framework.Batching
import Belayer.Framework.Run
import Mathlib.Data.List.Sort
import Mathlib.Data.Rat.Floor

namespace Belayer.Rollout

open Belayer.Framework

/-- What the loop reads of a sample, its metadata among it. -/
structure Sample where
  groupIndex : Nat
  index : Nat
  response : String
  startRolloutId : Option Nat
  deriving DecidableEq

/-- What a task of `generate_and_rm` returns. -/
inductive GenerateResult where
  | one (sample : Sample)
  | many (samples : List Sample)
  deriving DecidableEq

/-- `completed_samples`. -/
def GenerateResult.completedSamples : GenerateResult → List Sample
  | .one sample => [sample]
  | .many samples => samples

/-- What generation returns for a sample: the sample, or a list of copies of it. -/
def IsResult (task : Sample) (result : GenerateResult) : Prop :=
  result.completedSamples ≠ [] ∧ ∀ sample ∈ result.completedSamples,
    sample.groupIndex = task.groupIndex ∧ sample.index = task.index

instance (task : Sample) (result : GenerateResult) : Decidable (IsResult task result) :=
  inferInstanceAs (Decidable (_ ∧ _))

/-- A prompt group as the data source makes it. -/
def IsGroup (nSamplesPerPrompt : Nat) (group : List Sample) : Prop :=
  group.length = nSamplesPerPrompt ∧ (group.map Sample.index).Nodup ∧
    ∀ a ∈ group, ∀ b ∈ group, a.groupIndex = b.groupIndex

instance (nSamplesPerPrompt : Nat) (group : List Sample) :
    Decidable (IsGroup nSamplesPerPrompt group) :=
  inferInstanceAs (Decidable (_ ∧ _ ∧ _))

/-- Groups that have no group index in common. -/
def Distinct (groups : List (List Sample)) : Prop :=
  groups.Pairwise fun g h => ∀ a ∈ g, ∀ b ∈ h, a.groupIndex ≠ b.groupIndex

instance (groups : List (List Sample)) : Decidable (Distinct groups) :=
  inferInstanceAs (Decidable (List.Pairwise _ _))

/-- The arguments and settings of a rollout, with the check of the over-sampling size. -/
structure RolloutArgs where
  rolloutBatchSize : Nat
  overSamplingBatchSize : Nat
  nSamplesPerPrompt : Nat
  partialRollout : Bool
  rollingRefill : Bool
  onlineScheduler : Bool
  pendingGroupWindowMultiplier : Rat
  pendingGroupWindowExtra : Int
  pendingGroupWindowCap : Int
  rolloutBatchSize_pos : 0 < rolloutBatchSize
  nSamplesPerPrompt_pos : 0 < nSamplesPerPrompt
  le_overSamplingBatchSize : rolloutBatchSize ≤ overSamplingBatchSize

namespace RolloutArgs

/-- `_online_scheduler_pending_group_target`. -/
def onlineSchedulerPendingGroupTarget (args : RolloutArgs) : Int :=
  let target : Int := max 1 args.rolloutBatchSize
  if !args.onlineScheduler then target
  else
    let multiplier := max 1 args.pendingGroupWindowMultiplier
    let extra := max 0 args.pendingGroupWindowExtra
    let cap := args.pendingGroupWindowCap
    let pendingTarget := max target (Rat.ceil (target * multiplier))
    let pendingTarget := max pendingTarget (target + extra)
    let pendingTarget := if cap > 0 then min pendingTarget cap else pendingTarget
    max target pendingTarget

/-- `_effective_pending_group_target`. -/
def pendingGroupTarget (args : RolloutArgs) : Int :=
  let requestedGroupWindow : Int := max 1 args.overSamplingBatchSize
  if args.rollingRefill then max args.onlineSchedulerPendingGroupTarget requestedGroupWindow
  else if requestedGroupWindow ≤ args.rolloutBatchSize then args.rolloutBatchSize
  else args.onlineSchedulerPendingGroupTarget

/-- How many groups are asked for. -/
def refillSize (args : RolloutArgs) (remainingBatchSize : Int) : Int :=
  if args.rollingRefill then
    min (args.pendingGroupTarget - remainingBatchSize) args.overSamplingBatchSize
  else args.overSamplingBatchSize

end RolloutArgs

/-- The state of `generate_rollout_async`. A task stands in `pendings` with its sample. The last
two fields record what was submitted and what the finished tasks returned. -/
structure RolloutState where
  remainingBatchSize : Int
  pendings : List Sample
  pendingGroupSamples : Dict Nat (List Sample)
  data : List (List Sample)
  allData : List (List Sample)
  submitted : List (List Sample)
  finished : List (Sample × GenerateResult)

namespace RolloutState

def init : RolloutState := ⟨0, [], ∅, [], [], [], []⟩

/-- The samples in the order in which `submit_generate_tasks_bfs` makes their tasks. -/
def bfs (groups : List (List Sample)) : List Sample :=
  let maxGroupSize := (groups.map List.length).foldl max 0
  (List.range maxGroupSize).flatMap fun sampleOffset =>
    groups.filterMap fun group => group[sampleOffset]?

/-- `submit_generate_tasks_bfs`. -/
def submitGenerateTasksBfs (s : RolloutState) (groups : List (List Sample)) : RolloutState :=
  { s with
    remainingBatchSize := s.remainingBatchSize + groups.length
    pendings := s.pendings ++ bfs groups
    submitted := s.submitted ++ groups }

/-- A group has ended; only with rolling refill this makes room for another one. -/
def release (args : RolloutArgs) (s : RolloutState) : RolloutState :=
  if args.rollingRefill then { s with remainingBatchSize := s.remainingBatchSize - 1 } else s

/-- What is done with a complete group; `keep` has the verdict of each call of the filter. -/
def complete (args : RolloutArgs) (keep : Nat → Bool) (s : RolloutState) (group : List Sample) :
    RolloutState :=
  let kept := keep s.allData.length
  let s := release args { s with allData := s.allData ++ [group] }
  if kept && s.data.length < args.rolloutBatchSize then { s with data := s.data ++ [group] } else s

/-- One sample of a finished task. -/
def arrive (args : RolloutArgs) (keep : Nat → Bool) (s : RolloutState) (sample : Sample) :
    RolloutState :=
  let group := s.pendingGroupSamples.getD sample.groupIndex [] ++ [sample]
  let pendingGroupSamples := s.pendingGroupSamples.set sample.groupIndex group
  if group.length = args.nSamplesPerPrompt then
    complete args keep
      { s with pendingGroupSamples := AList.erase sample.groupIndex pendingGroupSamples }
      (group.insertionSort fun a b => a.index ≤ b.index)
  else { s with pendingGroupSamples }

/-- One of the tasks in `done`. -/
def finish (args : RolloutArgs) (keep : Nat → Bool) (s : RolloutState)
    (task : Sample × GenerateResult) : RolloutState :=
  task.2.completedSamples.foldl (arrive args keep) s

end RolloutState

/-- What the loop awaits: groups of the data source, and tasks that have finished. -/
inductive RolloutAction where
  | refill (samples : List (List Sample))
  | wait (done : List (Sample × GenerateResult))

namespace RolloutState

/-- The loop goes on. -/
def isCollecting (args : RolloutArgs) (s : RolloutState) : Bool :=
  s.data.length < args.rolloutBatchSize

/-- `refill_pending_groups` asks the data source. -/
def isRefilling (args : RolloutArgs) (s : RolloutState) : Bool :=
  s.isCollecting args && s.remainingBatchSize < args.pendingGroupTarget

/-- The loop waits for tasks to finish. -/
def isWaiting (args : RolloutArgs) (s : RolloutState) : Bool :=
  s.isCollecting args && args.pendingGroupTarget ≤ s.remainingBatchSize

/-- One turn of the refill loop, or one of the wait with all that is done for the tasks that it
returns. -/
def step (args : RolloutArgs) (keep : Nat → Bool) (s : RolloutState) :
    RolloutAction → Option RolloutState
  | .refill samples =>
    if s.isRefilling args ∧ (∀ group ∈ samples, IsGroup args.nSamplesPerPrompt group) ∧
        Distinct (s.submitted ++ samples) then
      some (s.submitGenerateTasksBfs samples)
    else none
  | .wait done =>
    if s.isWaiting args ∧ done ≠ [] ∧ (done.map Prod.fst).Subperm s.pendings ∧
        ∀ task ∈ done, IsResult task.1 task.2 then
      some (done.foldl (finish args keep) { s with
        pendings := s.pendings.diff (done.map Prod.fst)
        finished := s.finished ++ done })
    else none

end RolloutState

end Belayer.Rollout
