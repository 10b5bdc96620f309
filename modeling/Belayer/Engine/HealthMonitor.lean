import Belayer.Framework.Run
import Mathlib.Data.Finset.Basic
import Mathlib.Data.List.Sort

namespace Belayer.Engine

open Belayer.Framework

/-- Where the monitor's thread is: in a round it has the engines of the groups that are left, the
group that comes next and the groups to recover; then it kills these groups and recovers them. -/
inductive MonitorPhase where
  | idle
  | scanning (engines : List Bool) (rolloutEngineId : Nat) (idsToRecover : List Nat)
  | checking (engines : List Bool) (rolloutEngineId : Nat) (idsToRecover : List Nat)
  | handover (engines : List Bool) (rolloutEngineId : Nat) (idsToRecover : List Nat)
  | killing (left : List Nat) (ids : List Nat)
  | recovering (ids : List Nat)
  deriving DecidableEq

/-- `RolloutHealthMonitor`, with the engines of its manager: whether each of them is there. -/
structure HealthMonitor where
  nodesPerEngine : Nat
  failureThreshold : Nat
  phase : MonitorPhase
  consecutiveFailures : Nat → Nat
  suppressedRolloutEngines : Finset Nat
  allRolloutEngines : List Bool
  isPaused : Bool
  isStopped : Bool

/-- What happens: steps of the monitor's thread with the answers of the engines, an engine that is
started by `recover_rollout_engines` (the monitor's call or another one), and calls from outside. -/
inductive MonitorAction where
  | startRound
  | next
  | checked (healthy : Bool)
  | promoted (succeeded : Bool)
  | kill
  | recovered
  | restart (index : Nat)
  | suppress (rolloutEngineId : Nat)
  | unsuppress (rolloutEngineId : Nat)
  | pause
  | resume
  | stop

namespace HealthMonitor

def init (nodesPerEngine failureThreshold : Nat) (allRolloutEngines : List Bool) : HealthMonitor where
  nodesPerEngine := max 1 nodesPerEngine
  failureThreshold := max 1 failureThreshold
  phase := .idle
  consecutiveFailures := fun _ => 0
  suppressedRolloutEngines := ∅
  allRolloutEngines := allRolloutEngines
  isPaused := true
  isStopped := false

/-- `rollout_engines`: the first engine of each group. -/
def rolloutEngines (m : HealthMonitor) : List Bool :=
  (List.range ((m.allRolloutEngines.length + m.nodesPerEngine - 1) / m.nodesPerEngine)).map
    fun rolloutEngineId => m.allRolloutEngines.getD (rolloutEngineId * m.nodesPerEngine) false

def setFailures (m : HealthMonitor) (rolloutEngineId failures : Nat) : HealthMonitor :=
  { m with
    consecutiveFailures := Function.update m.consecutiveFailures rolloutEngineId failures }

def suppressRolloutEngine (m : HealthMonitor) (rolloutEngineId : Nat) : HealthMonitor :=
  { m with
    suppressedRolloutEngines := insert rolloutEngineId m.suppressedRolloutEngines }.setFailures
      rolloutEngineId 0

def unsuppressRolloutEngine (m : HealthMonitor) (rolloutEngineId : Nat) : HealthMonitor :=
  { m with
    suppressedRolloutEngines := m.suppressedRolloutEngines.erase rolloutEngineId }.setFailures
      rolloutEngineId 0

/-- The end of a round: the groups to recover are suppressed, in order. -/
def endRound (m : HealthMonitor) (idsToRecover : List Nat) : HealthMonitor :=
  if idsToRecover = [] then { m with phase := .idle }
  else
    let uniqueRolloutEngineIds := idsToRecover.dedup.insertionSort (· ≤ ·)
    { uniqueRolloutEngineIds.foldl suppressRolloutEngine m with
      phase := .killing uniqueRolloutEngineIds uniqueRolloutEngineIds }

/-- A failed check: the group is to be recovered from the threshold on. -/
def missing (m : HealthMonitor) (engines : List Bool) (rolloutEngineId : Nat)
    (idsToRecover : List Nat) : HealthMonitor :=
  let failures := m.consecutiveFailures rolloutEngineId + 1
  { m.setFailures rolloutEngineId failures with
    phase := .scanning engines (rolloutEngineId + 1)
      (if failures < m.failureThreshold then idsToRecover else idsToRecover ++ [rolloutEngineId]) }

/-- The next group of a round. -/
def scan (m : HealthMonitor) (engines : List Bool) (rolloutEngineId : Nat)
    (idsToRecover : List Nat) : HealthMonitor :=
  match engines with
  | [] => m.endRound idsToRecover
  | engine :: engines =>
    if m.isStopped ∨ m.isPaused then m.endRound idsToRecover
    else if rolloutEngineId ∈ m.suppressedRolloutEngines then
      { m.setFailures rolloutEngineId 0 with
        phase := .scanning engines (rolloutEngineId + 1) idsToRecover }
    else if engine then { m with phase := .checking engines rolloutEngineId idsToRecover }
    else m.missing engines rolloutEngineId idsToRecover

/-- The engines of a group, all of which a handover needs. -/
def isComplete (m : HealthMonitor) (rolloutEngineId : Nat) : Bool :=
  let group := (m.allRolloutEngines.drop (rolloutEngineId * m.nodesPerEngine)).take m.nodesPerEngine
  group ≠ [] && group.all id

/-- A failed check of an engine: from the threshold on a handover is tried, if there can be one. -/
def unhealthy (m : HealthMonitor) (engines : List Bool) (rolloutEngineId : Nat)
    (idsToRecover : List Nat) : HealthMonitor :=
  if m.consecutiveFailures rolloutEngineId + 1 < m.failureThreshold ∨
      m.isComplete rolloutEngineId = false then
    m.missing engines rolloutEngineId idsToRecover
  else
    { m.setFailures rolloutEngineId (m.consecutiveFailures rolloutEngineId + 1) with
      phase := .handover engines rolloutEngineId idsToRecover }

/-- The engines of a group are gone. -/
def killGroup (m : HealthMonitor) (rolloutEngineId : Nat) : List Bool :=
  (List.range m.nodesPerEngine).foldl
    (fun engines i => engines.set (rolloutEngineId * m.nodesPerEngine + i) false)
    m.allRolloutEngines

/-- One step; an action that is not possible has no result. -/
def next (m : HealthMonitor) : MonitorAction → Option HealthMonitor
  | .startRound =>
    match m.phase with
    | .idle =>
      if m.isStopped ∨ m.isPaused then none
      else some { m with phase := .scanning m.rolloutEngines 0 [] }
    | _ => none
  | .next =>
    match m.phase with
    | .scanning engines rolloutEngineId idsToRecover =>
      some (m.scan engines rolloutEngineId idsToRecover)
    | _ => none
  | .checked healthy =>
    match m.phase with
    | .checking engines rolloutEngineId idsToRecover =>
      if healthy then
        some { m.setFailures rolloutEngineId 0 with
          phase := .scanning engines (rolloutEngineId + 1) idsToRecover }
      else some (m.unhealthy engines rolloutEngineId idsToRecover)
    | _ => none
  | .promoted succeeded =>
    match m.phase with
    | .handover engines rolloutEngineId idsToRecover =>
      if succeeded then
        some { m.setFailures rolloutEngineId 0 with
          phase := .scanning engines (rolloutEngineId + 1) idsToRecover }
      else
        some { m with
          phase := .scanning engines (rolloutEngineId + 1) (idsToRecover ++ [rolloutEngineId]) }
    | _ => none
  | .kill =>
    match m.phase with
    | .killing (rolloutEngineId :: left) ids =>
      some { m with
        allRolloutEngines := m.killGroup rolloutEngineId
        phase := .killing left ids }
    | .killing [] ids => some { m with phase := .recovering ids }
    | _ => none
  | .recovered =>
    match m.phase with
    | .recovering ids => some { ids.foldl unsuppressRolloutEngine m with phase := .idle }
    | _ => none
  | .restart index =>
    if m.allRolloutEngines[index]? = some false then
      some { m with allRolloutEngines := m.allRolloutEngines.set index true }
    else none
  | .suppress rolloutEngineId => some (m.suppressRolloutEngine rolloutEngineId)
  | .unsuppress rolloutEngineId => some (m.unsuppressRolloutEngine rolloutEngineId)
  | .pause => some { m with isPaused := true }
  | .resume => some { m with isPaused := false }
  | .stop => some { m with isStopped := true, isPaused := false }

end HealthMonitor

end Belayer.Engine
