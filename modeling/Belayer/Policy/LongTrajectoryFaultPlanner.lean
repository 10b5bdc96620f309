import Belayer.Framework.SortedDict
import Mathlib.Algebra.Order.Ring.Rat
import Mathlib.Data.Prod.Lex
import Mathlib.Data.String.Basic

namespace Belayer.Policy

open Belayer.Framework

inductive SelectionMode where
  | longest
  | random
  deriving DecidableEq

/-- What is recorded of a registered sample. -/
structure Registration where
  instanceId : String
  stepLimit : Int
  referenceStepCount : Nat
  deriving DecidableEq

structure FaultInjectionTarget (κ : Type*) where
  sampleKey : κ
  injectBeforeStepIdx : Int
  deriving DecidableEq

/-- `_load_reference_trajectory_lengths`: the longest recorded trajectories. -/
structure ReferenceLengths (κ : Type*) where
  sampleKeys : Dict κ Nat
  instanceIds : Dict String Nat

/-- The arguments of the planner, as the constructor keeps them. -/
structure LongTrajectoryFaultPlanner (κ : Type*) where
  referenceLengths : ReferenceLengths κ
  expectedSampleCount : Nat
  injectionCount : Nat
  seed : Int
  selectionMode : SelectionMode
  offsetFromEndSteps : Nat
  maxInjectBeforeStepIdx : Nat
  one_le_offset : 1 ≤ offsetFromEndSteps
  one_le_max : 1 ≤ maxInjectBeforeStepIdx

/-- The plan file. -/
structure FaultPlan (κ : Type*) where
  registered : Dict κ Registration
  selected : Dict κ (FaultInjectionTarget κ)
  finalized : Bool

/-- An eligible sample with its draw. -/
structure Decorated (κ R : Type*) where
  sampleKey : κ
  referenceStepCount : Nat
  stepLimit : Int
  draw : R

/-- What a process does with the plan file while it has the lock. -/
inductive PlanAction (κ : Type*) where
  | register (sampleKey : κ) (instanceId : String) (stepLimit : Int)
  | poll (forceFinalize : Bool)

variable {κ R : Type*}

namespace PlanAction

/-- The sample that an action registers. -/
def sampleKey : PlanAction κ → Option κ
  | .register sampleKey _ _ => some sampleKey
  | .poll _ => none

/-- A poll that is to finalize the plan whether or not all samples are there. -/
def forces : PlanAction κ → Bool
  | .register .. => false
  | .poll forceFinalize => forceFinalize

end PlanAction

variable [LinearOrder κ] [LinearOrder R]

/-- The order in which the samples are chosen. -/
def Decorated.Precedes (mode : SelectionMode) (a b : Decorated κ R) : Prop :=
  match mode with
  | .random => toLex (a.draw, a.sampleKey) ≤ toLex (b.draw, b.sampleKey)
  | .longest =>
    toLex (-(a.referenceStepCount : Int), toLex (-a.stepLimit, toLex (a.draw, a.sampleKey))) ≤
      toLex (-(b.referenceStepCount : Int), toLex (-b.stepLimit, toLex (b.draw, b.sampleKey)))

instance (mode : SelectionMode) : DecidableRel (Decorated.Precedes (κ := κ) (R := R) mode) := by
  intro a b
  cases mode <;> exact inferInstanceAs (Decidable (_ ≤ _))

def Registration.isEligible (r : Registration) : Bool := 2 ≤ r.stepLimit

namespace FaultPlan

/-- What `_load_state_unlocked` makes of a file that is not there. -/
def empty : FaultPlan κ := ⟨∅, ∅, false⟩

/-- What is read after `_write_state_unlocked`: the keys are sorted. -/
def written (s : FaultPlan κ) : FaultPlan κ :=
  { s with registered := s.registered.sortKeys, selected := s.selected.sortKeys }

end FaultPlan

namespace LongTrajectoryFaultPlanner

-- `random seed i` is the number that `random.Random(seed)` draws after `i` others
variable (random : Int → Nat → R) (planner : LongTrajectoryFaultPlanner κ)

/-- The eligible samples in the order of the dict, each with the next draw. -/
def decorate (registered : List (κ × Registration)) : List (Decorated κ R) :=
  (registered.filter fun e => e.2.isEligible).zipIdx.map fun e =>
    ⟨e.1.1, e.1.2.referenceStepCount, e.1.2.stepLimit, random planner.seed e.2⟩

/-- The first ones in the order of the mode. -/
def chosen (registered : List (κ × Registration)) : List (Decorated κ R) :=
  let decorated := planner.decorate random registered
  (decorated.insertionSort (Decorated.Precedes planner.selectionMode)).take
    (min planner.injectionCount decorated.length)

/-- The step before which a fault is injected. -/
def injectBeforeStepIdx (referenceStepCount : Nat) (stepLimit : Int) : Int :=
  let referenceStepCount : Int :=
    max 2 (if referenceStepCount = 0 then stepLimit else referenceStepCount)
  max 1 (min (stepLimit - 1)
    (min (referenceStepCount - planner.offsetFromEndSteps) planner.maxInjectBeforeStepIdx))

def target (d : Decorated κ R) : FaultInjectionTarget κ :=
  ⟨d.sampleKey, planner.injectBeforeStepIdx d.referenceStepCount d.stepLimit⟩

/-- `_select_targets`. -/
def selectTargets (registered : List (κ × Registration)) : Dict κ (FaultInjectionTarget κ) :=
  if (registered.filter fun e => e.2.isEligible).isEmpty ∨ planner.injectionCount = 0 then ∅
  else
    Dict.setAll ∅ ((planner.chosen random registered).map fun d =>
      (d.sampleKey, planner.target d))

def registration (sampleKey : κ) (instanceId : String) (stepLimit : Int) : Registration :=
  ⟨instanceId, stepLimit,
    planner.referenceLengths.sampleKeys.getD sampleKey
      (planner.referenceLengths.instanceIds.getD instanceId 0)⟩

def shouldFinalize (forceFinalize : Bool) (s : FaultPlan κ) : Bool :=
  !s.finalized &&
    ((0 < planner.expectedSampleCount &&
        planner.expectedSampleCount ≤ s.registered.entries.length) ||
      (forceFinalize && planner.injectionCount ≤ s.registered.entries.length))

def finalize (s : FaultPlan κ) : FaultPlan κ :=
  { s with selected := planner.selectTargets random s.registered.items, finalized := true }

/-- `register`: it writes the file in any case. -/
def register (s : FaultPlan κ) (sampleKey : κ) (instanceId : String) (stepLimit : Int) :
    FaultPlan κ :=
  let s := { s with
    registered := s.registered.set sampleKey (planner.registration sampleKey instanceId stepLimit) }
  (if planner.shouldFinalize false s then planner.finalize random s else s).written

/-- `_poll_state_and_maybe_finalize`: it writes the file when it finalizes the plan. -/
def pollState (s : FaultPlan κ) (forceFinalize : Bool) : FaultPlan κ :=
  if planner.shouldFinalize forceFinalize s then (planner.finalize random s).written else s

/-- `poll_target`: whether the plan is final, and the target of the sample. -/
def pollTarget (s : FaultPlan κ) (sampleKey : κ) (forceFinalize : Bool) :
    Bool × Option (FaultInjectionTarget κ) :=
  let s := planner.pollState random s forceFinalize
  if s.finalized then (true, s.selected.lookup sampleKey) else (false, none)

/-- What a process leaves in the plan file. -/
def step (s : FaultPlan κ) : PlanAction κ → FaultPlan κ
  | .register sampleKey instanceId stepLimit =>
    planner.register random s sampleKey instanceId stepLimit
  | .poll forceFinalize => planner.pollState random s forceFinalize

/-- The plan after the actions of any number of processes, in the order in which they had the lock. -/
def after (actions : List (PlanAction κ)) : FaultPlan κ :=
  actions.foldl (planner.step random) .empty

/-- The first numbers that `random.Random(0)` draws. -/
def seedZeroDraws (_ : Int) (i : Nat) : ℚ :=
  [0.8444218515250481, 0.7579544029403025, 0.420571580830845].getD i 0

def twoInjections : LongTrajectoryFaultPlanner String :=
  ⟨⟨∅, ∅⟩, 3, 2, 0, .longest, 3, 8, by decide, by decide⟩

end LongTrajectoryFaultPlanner

end Belayer.Policy
