import Mathlib.Data.List.Infix

namespace Belayer.Rollout

/-- The part of the manager that tracks its engines and the weight-update
connections to rebuild. An engine slot holds the handle of its actor, or `none`
once the engine has been killed. -/
structure RolloutManager where
  rolloutId : Int
  nodesPerEngine : Nat
  allRolloutEngines : List (Option Nat)
  allPrmEngines : List (Option Nat)
  numNewEngines : Nat
  numNewPrmEngines : Nat
  pendingShadowHandoverReconnects : Nat
  pendingShadowHandoverReconnectReasons : List String

/-- The test `"handover" in reason.lower()`. -/
def isHandover (reason : String) : Bool :=
  decide ("handover".toList <:+: (reason.toList.map Char.toLower))

/-- `init_rollout_engines`: a new actor for every empty slot, and their number. -/
def initRolloutEngines (spawn : Nat → Nat) (allRolloutEngines : List (Option Nat)) :
    List (Option Nat) × Nat :=
  (allRolloutEngines.mapIdx fun i engine => engine <|> some (spawn i),
    allRolloutEngines.countP (·.isNone))

namespace RolloutManager

/-- The manager after `__init__`, with its counter at the number of new engines. -/
def init (nodesPerEngine numEngines : Nat) : RolloutManager :=
  let (engines, numNew) := initRolloutEngines id (List.replicate numEngines none)
  ⟨-1, nodesPerEngine, engines, [], numNew, 0, 0, []⟩

/-- The node-0 engine of every group. -/
def rolloutEngines (m : RolloutManager) : List (Option Nat) :=
  (m.allRolloutEngines.zipIdx.filter fun p => p.2 % m.nodesPerEngine = 0).map Prod.fst

def deadIndices (m : RolloutManager) : List Nat :=
  (m.allRolloutEngines.zipIdx.filter fun p => p.1.isNone).map Prod.snd

def markRolloutEnginesNeedWeightUpdateReconnect (m : RolloutManager) (count : Int)
    (reason : String) : RolloutManager × Nat :=
  if count ≤ 0 then (m, m.numNewEngines)
  else
    let pending := m.numNewEngines + count.toNat
    let m := { m with numNewEngines := pending }
    if isHandover reason then
      ({ m with
          pendingShadowHandoverReconnects := m.pendingShadowHandoverReconnects + count.toNat
          pendingShadowHandoverReconnectReasons :=
            m.pendingShadowHandoverReconnectReasons ++ [reason] }, pending)
    else (m, pending)

/-- The last part of `get_rollout_engines_and_lock`, after the collection. -/
def getRolloutEngines (m : RolloutManager) (includePrm : Bool) : List (Option Nat) × Nat :=
  if includePrm then
    (m.rolloutEngines ++ m.allPrmEngines.filter (·.isSome), m.numNewEngines + m.numNewPrmEngines)
  else (m.rolloutEngines, m.numNewEngines)

/-- The counter goes down by what the caller has consumed, not below zero. -/
def clearNumNewEngines (m : RolloutManager) (consumed : Option Int) : RolloutManager :=
  let consumed := max 0 (consumed.getD m.numNewEngines)
  { m with numNewEngines := m.numNewEngines - consumed.toNat, numNewPrmEngines := 0 }

def ackShadowHandoverWeightUpdateReconnect (m : RolloutManager) : RolloutManager :=
  { m with pendingShadowHandoverReconnects := 0, pendingShadowHandoverReconnectReasons := [] }

/-- The dead engines that a call of `recover_rollout_engines` finds; `none` when
it returns without restarting anything. -/
def recoveryTargets (m : RolloutManager) : Option (List Nat) :=
  if m.rolloutId = -1 then none
  else if m.deadIndices = [] then none
  else some m.deadIndices

/-- The restart inside `recover_rollout_engines`, and the number of new engines. -/
def restartEngines (m : RolloutManager) (spawn : Nat → Nat) : RolloutManager × Nat :=
  let (engines, recoveredNumNew) := initRolloutEngines spawn m.allRolloutEngines
  ({ m with allRolloutEngines := engines }, recoveredNumNew)

/-- The update of the counter in `recover_rollout_engines`. -/
def publishRecovered (m : RolloutManager) (recoveredNumNew : Nat) : RolloutManager :=
  { m with numNewEngines := recoveredNumNew }

/-- What `recover_rollout_engines` answers after its update of the counter. -/
def recoveryReply (deadIndices : List Nat) (recoveredNumNew : Nat) : Except String Nat :=
  if recoveredNumNew = deadIndices.length then .ok recoveredNumNew
  else .error "num_new_engines does not match dead_indices length"

def killEngine (m : RolloutManager) (index : Nat) : RolloutManager :=
  { m with allRolloutEngines := m.allRolloutEngines.set index none }

@[simp] theorem numNewEngines_mark (m : RolloutManager) (count : Int) (reason : String) :
    (m.markRolloutEnginesNeedWeightUpdateReconnect count reason).1.numNewEngines =
      m.numNewEngines + count.toNat := by
  unfold markRolloutEnginesNeedWeightUpdateReconnect
  split_ifs with hc hh
  · simp [Int.toNat_of_nonpos hc]
  · rfl
  · rfl

@[simp] theorem numNewEngines_clear (m : RolloutManager) (consumed : Nat) :
    (m.clearNumNewEngines (some consumed)).numNewEngines = m.numNewEngines - consumed := by
  simp [clearNumNewEngines]

end RolloutManager

end Belayer.Rollout
