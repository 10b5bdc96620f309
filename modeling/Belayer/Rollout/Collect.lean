import Belayer.Engine.SGLangEngine
import Belayer.Rollout.RolloutManager
import Mathlib.Data.List.Dedup

namespace Belayer.Rollout

open Belayer.Engine Belayer.Framework

/-- How one consume call ends. A call that raises may have reached its engine. -/
inductive ConsumeOutcome where
  | answered
  | raised (reached : Bool)
  deriving DecidableEq

namespace ConsumeOutcome

def isRaised : ConsumeOutcome → Bool
  | .answered => false
  | .raised _ => true

def isReached : ConsumeOutcome → Bool
  | .answered => true
  | .raised reached => reached

end ConsumeOutcome

def holdsEvent (engine : Option SGLangEngine) : Bool :=
  engine.any (·.pendingShadowHandoverReconnect)

section Engines

variable (engines : List (Option SGLangEngine)) (outcome : Nat → ConsumeOutcome)

def indexedEngines : List (Nat × SGLangEngine) :=
  engines.zipIdx.filterMap fun p => p.1.map fun e => (p.2, e)

/-- An engine after its call: if it was reached, it has no event left. -/
def afterCall (p : Option SGLangEngine × Nat) : Option SGLangEngine :=
  p.1.map fun e =>
    if (outcome p.2).isReached then e.consumeShadowHandoverReconnectEvent.1 else e

def consumeEvents : List (Option SGLangEngine) := engines.zipIdx.map (afterCall outcome)

/-- The number of engines that hold an event. -/
def pendingEvents : Nat := engines.countP holdsEvent

def isCleared (p : Nat × SGLangEngine) : Bool :=
  p.2.pendingShadowHandoverReconnect && (outcome p.1).isReached

/-- The indices of the engines whose event was read and cleared. -/
def clearedEvents : List Nat := ((indexedEngines engines).filter (isCleared outcome)).map Prod.fst

def anyRaised : Bool := (indexedEngines engines).any fun p => (outcome p.1).isRaised

end Engines

/-- `setdefault(group, []).append(reason)`. -/
def addReason (groups : Dict Nat (List String)) (p : Nat × String) : Dict Nat (List String) :=
  groups.insert p.1 (Dict.getD groups p.1 [] ++ [p.2])

/-- A list of reasons as Python prints it; no reason holds quotes or escapes. -/
def reasonsText (reasons : List String) : String :=
  "[" ++ ", ".intercalate (reasons.map fun s => "'" ++ s ++ "'") ++ "]"

namespace RolloutManager

def rolloutEngineId (m : RolloutManager) (index : Nat) : Nat := index / max 1 m.nodesPerEngine

/-- The rollout engine and the reason of every event among the results. -/
def reconnectReasons (m : RolloutManager) (results : List (Nat × Bool × Option String)) :
    List (Nat × String) :=
  (results.filter (·.2.1)).map fun p =>
    (m.rolloutEngineId p.1, (Router.truthy p.2.2).getD ("engine index " ++ toString p.1))

/-- `_collect_engine_side_shadow_handover_reconnects`: the manager, the engines and
the number that is returned. One call that raises fails the whole batch. -/
def collectEngineSideShadowHandoverReconnects (m : RolloutManager)
    (engines : List (Option SGLangEngine)) (outcome : Nat → ConsumeOutcome) :
    RolloutManager × List (Option SGLangEngine) × Nat :=
  let indexed := indexedEngines engines
  if indexed = [] then (m, engines, 0)
  else if anyRaised engines outcome then (m, consumeEvents engines outcome, 0)
  else
    let results := indexed.map fun p => (p.1, p.2.consumeShadowHandoverReconnectEvent.2)
    let groupsToReconnect := (m.reconnectReasons results).foldl addReason ∅
    if groupsToReconnect.keys = [] then (m, consumeEvents engines outcome, 0)
    else
      let groupIds := groupsToReconnect.keys.insertionSort (· ≤ ·)
      let reasonParts := groupIds.map fun id =>
        "rollout_engine=" ++ toString id ++ " reasons=" ++
          reasonsText (Dict.getD groupsToReconnect id [])
      let (m', _) := m.markRolloutEnginesNeedWeightUpdateReconnect groupIds.length
        ("engine-side shadow handover: " ++ "; ".intercalate reasonParts)
      (m', consumeEvents engines outcome, groupIds.length)

end RolloutManager

/-! ### What is counted -/

theorem mem_keys_addReason (groups : Dict Nat (List String)) (p : Nat × String) (g : Nat) :
    g ∈ (addReason groups p).keys ↔ g = p.1 ∨ g ∈ groups.keys := by
  rw [← AList.mem_keys, ← AList.mem_keys]
  exact AList.mem_insert _

theorem mem_keys_foldl_addReason (l : List (Nat × String)) (groups : Dict Nat (List String))
    (g : Nat) : g ∈ (l.foldl addReason groups).keys ↔ g ∈ groups.keys ∨ g ∈ l.map Prod.fst := by
  induction l generalizing groups with
  | nil => simp
  | cons p l ih =>
    rw [List.foldl_cons, ih, mem_keys_addReason, List.map_cons, List.mem_cons]
    tauto

/-- There is one entry for every rollout engine among the events. -/
theorem keys_foldl_addReason_perm (l : List (Nat × String)) :
    (l.foldl addReason ∅).keys.Perm (l.map Prod.fst).dedup := by
  rw [List.perm_ext_iff_of_nodup (AList.keys_nodup _) (List.nodup_dedup _)]
  intro g
  rw [mem_keys_foldl_addReason, List.mem_dedup]
  simp

theorem pendingEvents_afterCall (outcome : Nat → ConsumeOutcome)
    (l : List (Option SGLangEngine × Nat)) :
    (l.map Prod.fst).countP holdsEvent =
      (l.map (afterCall outcome)).countP holdsEvent +
        ((l.filterMap fun p => p.1.map fun e => (p.2, e)).filter (isCleared outcome)).length := by
  induction l with
  | nil => rfl
  | cons p l ih =>
    obtain ⟨engine, i⟩ := p
    cases engine with
    | none => simpa [afterCall, holdsEvent] using ih
    | some e =>
      simp only [List.map_cons, List.countP_cons, List.filterMap_cons, Option.map_some,
        List.filter_cons, ih]
      by_cases hp : e.pendingShadowHandoverReconnect
      · by_cases hr : (outcome i).isReached
        · simp [holdsEvent, afterCall, isCleared, hp, hr,
            SGLangEngine.consumeShadowHandoverReconnectEvent]
          omega
        · simp [holdsEvent, afterCall, isCleared, hp, hr]
          omega
      · by_cases hr : (outcome i).isReached
        · simp [holdsEvent, afterCall, isCleared, hp, hr,
            SGLangEngine.consumeShadowHandoverReconnectEvent]
        · simp [holdsEvent, afterCall, isCleared, hp, hr]

/-- Every event is left with its engine or was cleared. -/
theorem pendingEvents_consumeEvents (engines : List (Option SGLangEngine))
    (outcome : Nat → ConsumeOutcome) :
    pendingEvents engines =
      pendingEvents (consumeEvents engines outcome) + (clearedEvents engines outcome).length := by
  have h := pendingEvents_afterCall outcome engines.zipIdx
  rw [List.zipIdx_map_fst] at h
  simpa [pendingEvents, consumeEvents, clearedEvents, indexedEngines] using h

private theorem length_dedup_eq_iff (l : List Nat) : l.dedup.length = l.length ↔ l.Nodup := by
  rw [← List.dedup_eq_self]
  constructor
  · exact (List.dedup_sublist l).eq_of_length
  · intro h
    rw [h]

namespace RolloutManager

variable (m : RolloutManager) (engines : List (Option SGLangEngine))
  (outcome : Nat → ConsumeOutcome)

/-- The rollout engines that had an event cleared. -/
def clearedGroups : List Nat := ((clearedEvents engines outcome).map m.rolloutEngineId).dedup

variable {engines outcome} in
/-- When every call is answered, the results name exactly the cleared events. -/
theorem reconnectReasons_fst (h : anyRaised engines outcome = false) :
    (m.reconnectReasons ((indexedEngines engines).map fun p =>
      (p.1, p.2.consumeShadowHandoverReconnectEvent.2))).map Prod.fst =
      (clearedEvents engines outcome).map m.rolloutEngineId := by
  have hreached : ∀ p ∈ indexedEngines engines, (outcome p.1).isReached = true := by
    intro p hp
    have hr : ¬(outcome p.1).isRaised = true := List.any_eq_false.mp h p hp
    cases ho : outcome p.1 with
    | answered => rfl
    | raised reached => simp [ho, ConsumeOutcome.isRaised] at hr
  have hfilter : (indexedEngines engines).filter (isCleared outcome) =
      (indexedEngines engines).filter (·.2.pendingShadowHandoverReconnect) := by
    refine List.filter_congr fun p hp => ?_
    rw [isCleared, hreached p hp, Bool.and_true]
  unfold reconnectReasons clearedEvents
  rw [hfilter, List.filter_map, List.map_map, List.map_map, List.map_map]
  rfl

/-- A batch in which a call raises counts nothing; otherwise one event is counted
for every rollout engine that had one cleared. -/
theorem collect_returns :
    (m.collectEngineSideShadowHandoverReconnects engines outcome).2.2 =
      if anyRaised engines outcome then 0 else (m.clearedGroups engines outcome).length := by
  unfold collectEngineSideShadowHandoverReconnects
  dsimp only
  by_cases hi : indexedEngines engines = []
  · rw [if_pos hi]
    simp [clearedGroups, clearedEvents, anyRaised, hi]
  · rw [if_neg hi]
    by_cases hr : anyRaised engines outcome
    · rw [if_pos hr, if_pos hr]
    · rw [if_neg hr, if_neg hr]
      have hperm := keys_foldl_addReason_perm (m.reconnectReasons ((indexedEngines engines).map
        fun p => (p.1, p.2.consumeShadowHandoverReconnectEvent.2)))
      rw [m.reconnectReasons_fst (Bool.not_eq_true _ ▸ hr)] at hperm
      have hlen := hperm.length_eq
      unfold clearedGroups
      split_ifs with hk
      · rw [← hlen, hk]
        rfl
      · rw [← hlen]
        exact List.length_insertionSort _ _

/-- What the collection returns is what it adds to the counter. -/
theorem collect_numNewEngines :
    (m.collectEngineSideShadowHandoverReconnects engines outcome).1.numNewEngines =
      m.numNewEngines + (m.collectEngineSideShadowHandoverReconnects engines outcome).2.2 := by
  unfold collectEngineSideShadowHandoverReconnects
  dsimp only
  split_ifs
  · rfl
  · rfl
  · rfl
  · simp

/-- A collection that returns zero leaves the manager as it is. -/
theorem collect_marks :
    (m.collectEngineSideShadowHandoverReconnects engines outcome).1 = m ∨
      ((m.collectEngineSideShadowHandoverReconnects engines outcome).2.2 ≠ 0 ∧
        ∃ count reason, (m.collectEngineSideShadowHandoverReconnects engines outcome).1 =
          (m.markRolloutEnginesNeedWeightUpdateReconnect count reason).1) := by
  unfold collectEngineSideShadowHandoverReconnects
  dsimp only
  split_ifs with hi hr hk
  · exact .inl rfl
  · exact .inl rfl
  · exact .inl rfl
  · refine .inr ⟨?_, _, _, rfl⟩
    rw [List.length_insertionSort]
    exact fun hl => hk (List.length_eq_zero_iff.mp hl)

theorem pendingEvents_collect :
    pendingEvents engines =
      pendingEvents (m.collectEngineSideShadowHandoverReconnects engines outcome).2.1 +
        (clearedEvents engines outcome).length := by
  have hc := pendingEvents_consumeEvents engines outcome
  unfold collectEngineSideShadowHandoverReconnects
  dsimp only
  split_ifs with hi
  · simp [clearedEvents, hi]
  · exact hc
  · exact hc
  · exact hc

/-- Every event that leaves its engine is added to the counter exactly when no
call raised or nothing was cleared, and no rollout engine had two events. -/
theorem collect_counts_iff :
    (m.collectEngineSideShadowHandoverReconnects engines outcome).1.numNewEngines +
          pendingEvents (m.collectEngineSideShadowHandoverReconnects engines outcome).2.1 =
        m.numNewEngines + pendingEvents engines ↔
      (anyRaised engines outcome = false ∨ clearedEvents engines outcome = []) ∧
        ((clearedEvents engines outcome).map m.rolloutEngineId).Nodup := by
  have hkept := pendingEvents_collect m engines outcome
  have hcount : (m.collectEngineSideShadowHandoverReconnects engines outcome).1.numNewEngines +
          pendingEvents (m.collectEngineSideShadowHandoverReconnects engines outcome).2.1 =
        m.numNewEngines + pendingEvents engines ↔
      (m.collectEngineSideShadowHandoverReconnects engines outcome).2.2 =
        (clearedEvents engines outcome).length := by
    rw [collect_numNewEngines]
    omega
  rw [hcount, collect_returns]
  by_cases hr : anyRaised engines outcome
  · rw [if_pos hr, eq_comm, List.length_eq_zero_iff]
    constructor
    · intro h
      simp [h]
    · intro hx
      rcases hx with ⟨hf | h, -⟩
      · simp [hr] at hf
      · exact h
  · rw [if_neg hr]
    have hdedup := length_dedup_eq_iff ((clearedEvents engines outcome).map m.rolloutEngineId)
    rw [List.length_map] at hdedup
    simp [clearedGroups, hdedup, hr]

/-- The manager of single-node engines of which two hold an event. -/
def twoHandovers : List (Option SGLangEngine) :=
  let engine (rank : Nat) : SGLangEngine :=
    ⟨rank, 0, "regular", none, none, false, some ⟨rank, true⟩, none, none, none, "h", 31000 + rank,
      false, false, true, some "explicit promote_shadow_worker call"⟩
  [some (engine 0), some (engine 1)]

/-- The call of the second engine raises. -/
def secondRaises (i : Nat) : ConsumeOutcome := if i = 1 then .raised false else .answered

/-- The event of the first engine is gone, and nothing is counted. -/
theorem twoHandovers_uncounted :
    ((init 1 2).collectEngineSideShadowHandoverReconnects twoHandovers
          secondRaises).1.numNewEngines +
        pendingEvents ((init 1 2).collectEngineSideShadowHandoverReconnects twoHandovers
          secondRaises).2.1 ≠
      (init 1 2).numNewEngines + pendingEvents twoHandovers := by
  decide

end RolloutManager

end Belayer.Rollout
