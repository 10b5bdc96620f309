import Belayer.Exec.Gc
import Belayer.Framework.Dict
import Mathlib.Data.List.MinMax

namespace Belayer.Pool

open Belayer.Framework Belayer.Exec

structure ExecNode where
  url : String
  activeContainers : Int
  maxContainers : Int
  healthy : Bool
  deriving DecidableEq

structure Lease where
  nodeUrl : String
  containerId : String
  image : String
  generation : Int
  latestReadyCheckpointId : Option String
  latestCheckpointStepIdx : Int
  rerunCount : Int
  deriving DecidableEq

/-- `SweEnvPool`; the leases are keyed by their ids. -/
structure SweEnvPool where
  nodes : List ExecNode
  leases : Dict String Lease
  maxTotalLeases : Int
  maxConcurrentAllocates : Nat
  pendingAllocations : Int

-- the order of the integers as a computable instance
local instance preorderInt : Preorder ℤ := Int.instLinearOrder.toPreorder

namespace Lease

/-- A lease as `allocate` makes it. -/
def start (nodeUrl containerId image : String) : Lease :=
  ⟨nodeUrl, containerId, image, 0, none, -1, 0⟩

/-- A rerun that went well. -/
def rerun (lease : Lease) (containerId : String) : Lease :=
  { lease with
    containerId := containerId
    generation := lease.generation + 1
    rerunCount := lease.rerunCount + 1 }

/-- A create that has come out ready; `int(step or -1)` makes -1 of step 0. -/
def advance (lease : Lease) (checkpointId : String) (stepIdx : Int) : Lease :=
  { lease with
    latestReadyCheckpointId := some checkpointId
    latestCheckpointStepIdx := if stepIdx = 0 then -1 else stepIdx }

/-- The latest ready checkpoint of a listing, the first of them. -/
def latestReady (checkpoints : List CheckpointRecord) : Option CheckpointRecord :=
  (checkpoints.filter (·.status = .ready)).argmax (·.sortKey)

/-- `_refresh_latest_ready_checkpoint` with the listing it gets. -/
def refresh (lease : Lease) (checkpoints : List CheckpointRecord) : Lease :=
  { lease with
    latestReadyCheckpointId := (latestReady checkpoints).map (·.checkpointId)
    latestCheckpointStepIdx := ((latestReady checkpoints).map (·.stepIdx)).getD (-1) }

end Lease

namespace ExecNode

/-- The node is healthy and, unless its limit is off, below it. -/
def isCandidate (n : ExecNode) : Bool :=
  n.healthy && (n.maxContainers ≤ 0 || n.activeContainers < n.maxContainers)

def start (url : String) (maxContainers : Int) : ExecNode := ⟨url, 0, maxContainers, true⟩

end ExecNode

namespace SweEnvPool

/-- A pool without leases; a limit of at most zero is off. -/
def init (urls : List String) (maxContainersPerNode maxTotalLeases maxConcurrentAllocates : Int) :
    SweEnvPool :=
  ⟨urls.map (ExecNode.start · maxContainersPerNode), ∅, max 0 maxTotalLeases,
    (max 1 maxConcurrentAllocates).toNat, 0⟩

def active (p : SweEnvPool) (k : Nat) : Int := (p.nodes[k]?.map (·.activeContainers)).getD 0

def setActive (p : SweEnvPool) (k : Nat) (count : Int) : SweEnvPool :=
  { p with nodes := p.nodes.modify k fun n => { n with activeContainers := count } }

/-- The candidate with the fewest containers, the first of them. -/
def pickNode (p : SweEnvPool) : Option Nat :=
  ((List.range p.nodes.length).filter fun k => p.nodes[k]?.any (·.isCandidate)).argmin p.active

/-- `_pick_and_reserve_node`. -/
def pickAndReserveNode (p : SweEnvPool) : Option (Nat × SweEnvPool) :=
  p.pickNode.map fun k => (k, p.setActive k (p.active k + 1))

/-- `_unreserve_node`. -/
def unreserveNode (p : SweEnvPool) (k : Nat) : SweEnvPool :=
  p.setActive k (max 0 (p.active k - 1))

/-- `_find_node`. -/
def findNode (p : SweEnvPool) (url : String) : Option Nat :=
  p.nodes.findIdx? (·.url = url)

/-- The leases on a node. -/
def leasesOn (p : SweEnvPool) (url : String) : Nat :=
  Dict.count p.leases fun lease => lease.nodeUrl = url

def totalLeases (p : SweEnvPool) : Nat := Dict.count p.leases fun _ => true

/-- `_reserve_total_slot`; `none` when the limit is reached. -/
def reserveTotalSlot (p : SweEnvPool) : Option SweEnvPool :=
  if p.maxTotalLeases ≤ 0 then some p
  else if p.maxTotalLeases ≤ p.totalLeases + p.pendingAllocations then none
  else some { p with pendingAllocations := p.pendingAllocations + 1 }

/-- `_release_total_slot`. -/
def releaseTotalSlot (p : SweEnvPool) : SweEnvPool :=
  if p.maxTotalLeases ≤ 0 then p
  else { p with pendingAllocations := max 0 (p.pendingAllocations - 1) }

/-- A health check marks a node. -/
def setHealthy (p : SweEnvPool) (k : Nat) (healthy : Bool) : SweEnvPool :=
  { p with nodes := p.nodes.modify k fun n => { n with healthy := healthy } }

end SweEnvPool

end Belayer.Pool
