import Belayer.Engine.HealthMonitor

namespace Belayer.Engine

open Belayer.Framework

/-- What happens to an engine group. -/
inductive GroupEvent where
  | failed
  | passed
  | suppressed
  | recovered
  deriving DecidableEq

/-- The groups that are to be handed over or killed, now that their checks have failed. -/
def MonitorPhase.pending : MonitorPhase → List Nat
  | .scanning _ _ idsToRecover | .checking _ _ idsToRecover => idsToRecover
  | .handover _ rolloutEngineId idsToRecover => rolloutEngineId :: idsToRecover
  | .killing left _ => left
  | .idle | .recovering _ => []

/-- A round has not yet come to a group beyond its place. -/
def MonitorPhase.InOrder : MonitorPhase → Prop
  | .scanning _ rolloutEngineId idsToRecover | .checking _ rolloutEngineId idsToRecover
  | .handover _ rolloutEngineId idsToRecover => ∀ g ∈ idsToRecover, g < rolloutEngineId
  | .idle | .killing _ _ | .recovering _ => True

namespace HealthMonitor

/-- The events of a step, the latest first. A killed group is suppressed until its recovery is
over. -/
def events (m : HealthMonitor) : MonitorAction → List (Nat × GroupEvent)
  | .next =>
    match m.phase with
    | .scanning (engine :: _) rolloutEngineId _ =>
      if m.isStopped ∨ m.isPaused then []
      else if rolloutEngineId ∈ m.suppressedRolloutEngines then [(rolloutEngineId, .suppressed)]
      else if engine then [] else [(rolloutEngineId, .failed)]
    | _ => []
  | .checked healthy =>
    match m.phase with
    | .checking _ rolloutEngineId _ => [(rolloutEngineId, if healthy then .passed else .failed)]
    | _ => []
  | .promoted succeeded =>
    match m.phase with
    | .handover _ rolloutEngineId _ => if succeeded then [(rolloutEngineId, .recovered)] else []
    | _ => []
  | .recovered =>
    match m.phase with
    | .recovering ids => ids.map fun rolloutEngineId => (rolloutEngineId, .suppressed)
    | _ => []
  | .restart index => [(index / m.nodesPerEngine, .recovered)]
  | .suppress rolloutEngineId | .unsuppress rolloutEngineId => [(rolloutEngineId, .suppressed)]
  | .startRound | .kill | .pause | .resume | .stop => []

/-- The group that a step asks to hand over, or kills. -/
def takesDown (m : HealthMonitor) : MonitorAction → Option Nat
  | .checked false =>
    match m.phase with
    | .checking _ rolloutEngineId _ =>
      if m.consecutiveFailures rolloutEngineId + 1 < m.failureThreshold ∨
          m.isComplete rolloutEngineId = false then none
      else some rolloutEngineId
    | _ => none
  | .kill =>
    match m.phase with
    | .killing (rolloutEngineId :: _) _ => some rolloutEngineId
    | _ => none
  | _ => none

end HealthMonitor

/-- The monitor and the events so far, the latest first. -/
structure MonitorHistory where
  monitor : HealthMonitor
  log : List (Nat × GroupEvent)

/-- The events of a group. -/
def eventsOf (rolloutEngineId : Nat) (log : List (Nat × GroupEvent)) : List GroupEvent :=
  (log.filter (·.1 = rolloutEngineId)).map Prod.snd

/-- The latest `n` events of a group are failed checks. -/
def HasFailed (n rolloutEngineId : Nat) (log : List (Nat × GroupEvent)) : Prop :=
  List.replicate n GroupEvent.failed <+: eventsOf rolloutEngineId log

namespace MonitorHistory

def init (nodesPerEngine failureThreshold : Nat) (allRolloutEngines : List Bool) :
    MonitorHistory :=
  ⟨.init nodesPerEngine failureThreshold allRolloutEngines, []⟩

def next (h : MonitorHistory) (a : MonitorAction) : Option MonitorHistory :=
  (h.monitor.next a).map fun m => ⟨m, h.monitor.events a ++ h.log⟩

/-- A group is handed over or killed only when its last events are as many failed checks as the
threshold. -/
def TakesDownFailed (h : MonitorHistory) (a : MonitorAction) : Prop :=
  ∀ rolloutEngineId ∈ h.monitor.takesDown a,
    HasFailed h.monitor.failureThreshold rolloutEngineId (h.monitor.events a ++ h.log)

/-- The condition on a step: an engine is restarted only when its group's failures are not counted,
and nothing from outside happens to a group that is about to be taken down. -/
def Undisturbed (h : MonitorHistory) : MonitorAction → Prop
  | .restart index =>
    h.monitor.consecutiveFailures (index / h.monitor.nodesPerEngine) = 0 ∧
      index / h.monitor.nodesPerEngine ∉ h.monitor.phase.pending
  | .suppress rolloutEngineId | .unsuppress rolloutEngineId =>
    rolloutEngineId ∉ h.monitor.phase.pending
  | _ => True

instance (h : MonitorHistory) : ∀ a, Decidable (h.Undisturbed a)
  | .restart index => inferInstanceAs (Decidable
      (h.monitor.consecutiveFailures (index / h.monitor.nodesPerEngine) = 0 ∧
        index / h.monitor.nodesPerEngine ∉ h.monitor.phase.pending))
  | .suppress rolloutEngineId | .unsuppress rolloutEngineId =>
    inferInstanceAs (Decidable (rolloutEngineId ∉ h.monitor.phase.pending))
  | .startRound | .next | .checked _ | .promoted _ | .kill | .recovered | .pause | .resume | .stop =>
    inferInstanceAs (Decidable True)

end MonitorHistory

/-! Events of a group -/

section Events

variable {n id g : Nat} {e : GroupEvent} {log : List (Nat × GroupEvent)} {failures : Nat → Nat}

theorem hasFailed_zero (g : Nat) (log : List (Nat × GroupEvent)) : HasFailed 0 g log :=
  List.nil_prefix

theorem HasFailed.other (h : HasFailed n g log) (hne : g ≠ id) (e : GroupEvent) :
    HasFailed n g ((id, e) :: log) := by
  have hsame : eventsOf g ((id, e) :: log) = eventsOf g log := by
    simp [eventsOf, hne.symm]
  rw [HasFailed, hsame]
  exact h

theorem HasFailed.more (h : HasFailed n g log) : HasFailed (n + 1) g ((g, .failed) :: log) := by
  have hcons : eventsOf g ((g, .failed) :: log) = .failed :: eventsOf g log := by
    simp [eventsOf]
  rw [HasFailed, hcons, List.replicate_succ]
  exact (List.prefix_cons_inj _).mpr h

theorem HasFailed.mono {k : Nat} (h : HasFailed n g log) (hle : k ≤ n) : HasFailed k g log := by
  refine List.IsPrefix.trans ?_ h
  obtain ⟨d, rfl⟩ := Nat.exists_eq_add_of_le hle
  rw [List.replicate_add]
  exact List.prefix_append _ _

/-- A failed check does not make the failed checks fewer. -/
theorem HasFailed.failed (h : HasFailed n g log) (id : Nat) :
    HasFailed n g ((id, .failed) :: log) := by
  by_cases hid : g = id
  · subst hid
    exact h.more.mono (Nat.le_succ n)
  · exact h.other hid .failed

/-- Events of other groups do not count. -/
theorem HasFailed.others {ids : List Nat} (h : HasFailed n g log) (hnot : g ∉ ids)
    (e : GroupEvent) : HasFailed n g (ids.map (fun id => (id, e)) ++ log) := by
  induction ids with
  | nil => exact h
  | cons id ids ih =>
    rw [List.mem_cons, not_or] at hnot
    exact (ih hnot.2).other hnot.1 e

/-- The counts when one of them is reset. -/
theorem hasFailed_reset (h : ∀ g, HasFailed (failures g) g log) (id : Nat) (e : GroupEvent) :
    ∀ g, HasFailed (Function.update failures id 0 g) g ((id, e) :: log) := by
  intro g
  by_cases hid : g = id
  · subst hid
    rw [Function.update_self]
    exact hasFailed_zero g _
  · rw [Function.update_of_ne hid]
    exact (h g).other hid e

/-- The counts when a check has failed. -/
theorem hasFailed_count (h : ∀ g, HasFailed (failures g) g log) (id : Nat) :
    ∀ g, HasFailed (Function.update failures id (failures id + 1) g) g ((id, .failed) :: log) := by
  intro g
  by_cases hid : g = id
  · subst hid
    rw [Function.update_self]
    exact (h g).more
  · rw [Function.update_of_ne hid]
    exact (h g).other hid .failed

/-- The counts when something happens to a group whose failures are not counted. -/
theorem hasFailed_uncounted (h : ∀ g, HasFailed (failures g) g log) (hid : failures id = 0)
    (e : GroupEvent) : ∀ g, HasFailed (failures g) g ((id, e) :: log) := by
  intro g
  by_cases hg : g = id
  · rw [hg, hid]
    exact hasFailed_zero id _
  · exact (h g).other hg e

end Events

/-! Steps -/

/-- No group's count is more than its failed checks, and the groups that are about to be taken down
have failed as often as the threshold. -/
structure Counted (m : HealthMonitor) (log : List (Nat × GroupEvent)) : Prop where
  count : ∀ g, HasFailed (m.consecutiveFailures g) g log
  pending : ∀ g ∈ m.phase.pending, HasFailed m.failureThreshold g log
  inOrder : m.phase.InOrder

section Steps

variable {m m' : HealthMonitor} {log : List (Nat × GroupEvent)} {engines : List Bool} {id : Nat}
  {ids : List Nat} {a : MonitorAction}

/-- Groups are suppressed, or no longer suppressed, one by one. -/
theorem foldl_reset {f : HealthMonitor → Nat → HealthMonitor}
    (hf : ∀ m id, (f m id).consecutiveFailures = Function.update m.consecutiveFailures id 0 ∧
      (f m id).failureThreshold = m.failureThreshold) (m : HealthMonitor) (ids : List Nat) :
    (ids.foldl f m).failureThreshold = m.failureThreshold ∧
      ∀ g, (ids.foldl f m).consecutiveFailures g ≤ m.consecutiveFailures g ∧
        (g ∈ ids → (ids.foldl f m).consecutiveFailures g = 0) := by
  induction ids generalizing m with
  | nil => exact ⟨rfl, fun g => ⟨le_rfl, fun hg => absurd hg List.not_mem_nil⟩⟩
  | cons id ids ih =>
    obtain ⟨hreset, hthreshold⟩ := hf m id
    obtain ⟨hrest, hcounts⟩ := ih (f m id)
    have hle : ∀ g, (f m id).consecutiveFailures g ≤ m.consecutiveFailures g := by
      intro g
      rw [hreset, Function.update_apply]
      split_ifs
      · exact Nat.zero_le _
      · exact le_rfl
    refine ⟨hrest.trans hthreshold, ?_⟩
    intro g
    refine ⟨(hcounts g).1.trans (hle g), ?_⟩
    intro hg
    rcases List.mem_cons.mp hg with rfl | hg
    · have hzero : (f m g).consecutiveFailures g = 0 := by
        rw [hreset, Function.update_self]
      exact Nat.le_zero.mp (hzero ▸ (hcounts g).1)
    · exact (hcounts g).2 hg

/-- The groups that are to be recovered are suppressed at the end of a round. -/
theorem Counted.endRound (h : Counted m log)
    (hids : ∀ g ∈ ids, HasFailed m.failureThreshold g log) : Counted (m.endRound ids) log := by
  unfold HealthMonitor.endRound
  split_ifs
  · exact ⟨h.count, fun _ hg => absurd hg List.not_mem_nil, trivial⟩
  · obtain ⟨hthreshold, hcounts⟩ :=
      foldl_reset (f := HealthMonitor.suppressRolloutEngine) (fun _ _ => ⟨rfl, rfl⟩) m
        (ids.dedup.insertionSort (· ≤ ·))
    refine ⟨fun g => (h.count g).mono (hcounts g).1, ?_, trivial⟩
    intro g hg
    dsimp only [MonitorPhase.pending] at hg ⊢
    rw [hthreshold]
    rw [List.mem_insertionSort, List.mem_dedup] at hg
    exact hids g hg

/-- A group is passed over, and its count is reset. -/
theorem Counted.passOver (h : Counted m log)
    (hids : ∀ g ∈ ids, HasFailed m.failureThreshold g log) (hbefore : ∀ g ∈ ids, g < id)
    (e : GroupEvent) (engines : List Bool) :
    Counted { m.setFailures id 0 with phase := .scanning engines (id + 1) ids }
      ((id, e) :: log) := by
  refine ⟨hasFailed_reset h.count id e, ?_, ?_⟩
  · intro g hg
    exact (hids g hg).other (hbefore g hg).ne e
  · intro g hg
    exact Nat.lt_succ_of_lt (hbefore g hg)

theorem Counted.missing (h : Counted m log)
    (hids : ∀ g ∈ ids, HasFailed m.failureThreshold g log) (hbefore : ∀ g ∈ ids, g < id)
    (engines : List Bool) : Counted (m.missing engines id ids) ((id, .failed) :: log) := by
  have hcount := hasFailed_count h.count id
  have hself := hcount id
  rw [Function.update_self] at hself
  refine ⟨hcount, ?_, ?_⟩
  · intro g hg
    dsimp only [HealthMonitor.missing, MonitorPhase.pending] at hg
    split_ifs at hg with hless
    · exact (hids g hg).failed id
    · rcases List.mem_append.mp hg with hg | hg
      · exact (hids g hg).failed id
      · rw [List.mem_singleton.mp hg]
        exact hself.mono (not_lt.mp hless)
  · intro g hg
    split_ifs at hg
    · exact Nat.lt_succ_of_lt (hbefore g hg)
    · rcases List.mem_append.mp hg with hg | hg
      · exact Nat.lt_succ_of_lt (hbefore g hg)
      · rw [List.mem_singleton.mp hg]
        exact Nat.lt_succ_self id

theorem Counted.unhealthy (h : Counted m log)
    (hids : ∀ g ∈ ids, HasFailed m.failureThreshold g log) (hbefore : ∀ g ∈ ids, g < id)
    (engines : List Bool) : Counted (m.unhealthy engines id ids) ((id, .failed) :: log) := by
  unfold HealthMonitor.unhealthy
  split_ifs with hstays
  · exact h.missing hids hbefore engines
  · have hcount := hasFailed_count h.count id
    have hself := hcount id
    rw [Function.update_self] at hself
    refine ⟨hcount, ?_, hbefore⟩
    intro g hg
    rcases List.mem_cons.mp hg with rfl | hg
    · exact hself.mono (not_lt.mp fun hless => hstays (.inl hless))
    · exact (hids g hg).failed id

theorem Counted.scan (h : Counted m log) (hphase : m.phase = .scanning engines id ids) :
    Counted (m.scan engines id ids) (m.events .next ++ log) := by
  have hids : ∀ g ∈ ids, HasFailed m.failureThreshold g log := by
    have hpending := h.pending
    rw [hphase] at hpending
    exact hpending
  have hbefore : ∀ g ∈ ids, g < id := by
    have hplace := h.inOrder
    rw [hphase] at hplace
    exact hplace
  unfold HealthMonitor.scan HealthMonitor.events
  rw [hphase]
  cases engines with
  | nil => exact h.endRound hids
  | cons engine engines =>
    dsimp only
    split_ifs
    · exact h.endRound hids
    · exact h.passOver hids hbefore .suppressed engines
    · exact ⟨h.count, hids, hbefore⟩
    · exact h.missing hids hbefore engines

theorem Counted.checked (h : Counted m log) (hphase : m.phase = .checking engines id ids)
    (healthy : Bool) (hn : m.next (.checked healthy) = some m') :
    Counted m' (m.events (.checked healthy) ++ log) := by
  have hids := h.pending
  have hbefore := h.inOrder
  rw [hphase] at hids hbefore
  have hevents : m.events (.checked healthy) = [(id, if healthy then .passed else .failed)] := by
    simp only [HealthMonitor.events, hphase]
  simp only [HealthMonitor.next, hphase] at hn
  rw [hevents]
  cases healthy with
  | true =>
    cases hn
    exact h.passOver hids hbefore .passed engines
  | false =>
    cases hn
    exact h.unhealthy hids hbefore engines

theorem Counted.promoted (h : Counted m log) (hphase : m.phase = .handover engines id ids)
    (succeeded : Bool) (hn : m.next (.promoted succeeded) = some m') :
    Counted m' (m.events (.promoted succeeded) ++ log) := by
  have hpending := h.pending
  have hbefore := h.inOrder
  rw [hphase] at hpending hbefore
  obtain ⟨hself, hids⟩ := List.forall_mem_cons.mp hpending
  have hevents : m.events (.promoted succeeded) = if succeeded then [(id, .recovered)] else [] := by
    simp only [HealthMonitor.events, hphase]
  simp only [HealthMonitor.next, hphase] at hn
  rw [hevents]
  cases succeeded with
  | true =>
    cases hn
    exact h.passOver hids hbefore .recovered engines
  | false =>
    cases hn
    refine ⟨h.count, ?_, ?_⟩
    · intro g hg
      rcases List.mem_append.mp hg with hg | hg
      · exact hids g hg
      · rw [List.mem_singleton.mp hg]
        exact hself
    · intro g hg
      rcases List.mem_append.mp hg with hg | hg
      · exact Nat.lt_succ_of_lt (hbefore g hg)
      · rw [List.mem_singleton.mp hg]
        exact Nat.lt_succ_self id

theorem Counted.kill (h : Counted m log) {left : List Nat} (hphase : m.phase = .killing left ids)
    (hn : m.next .kill = some m') : Counted m' log := by
  have hpending := h.pending
  rw [hphase] at hpending
  cases left with
  | nil =>
    simp only [HealthMonitor.next, hphase, Option.some.injEq] at hn
    subst hn
    exact ⟨h.count, fun _ hg => absurd hg List.not_mem_nil, trivial⟩
  | cons id left =>
    simp only [HealthMonitor.next, hphase, Option.some.injEq] at hn
    subst hn
    exact ⟨h.count, fun g hg => hpending g (List.mem_cons_of_mem id hg), trivial⟩

/-- The groups are no longer suppressed when their recovery is over. -/
theorem Counted.recovered (h : Counted m log) (hphase : m.phase = .recovering ids)
    (hn : m.next .recovered = some m') : Counted m' (m.events .recovered ++ log) := by
  have hevents : m.events .recovered = ids.map fun id => (id, .suppressed) := by
    simp only [HealthMonitor.events, hphase]
  simp only [HealthMonitor.next, hphase, Option.some.injEq] at hn
  subst hn
  obtain ⟨-, hcounts⟩ := foldl_reset (f := HealthMonitor.unsuppressRolloutEngine)
    (fun _ _ => ⟨rfl, rfl⟩) m ids
  refine ⟨?_, fun _ hg => absurd hg List.not_mem_nil, trivial⟩
  intro g
  rw [hevents]
  dsimp only
  by_cases hg : g ∈ ids
  · rw [(hcounts g).2 hg]
    exact hasFailed_zero g _
  · exact ((h.count g).mono (hcounts g).1).others hg .suppressed

/-- What happens to a group that is not about to be taken down leaves the others' checks. -/
theorem Counted.pending_other (h : Counted m log) (hid : id ∉ m.phase.pending) (e : GroupEvent) :
    ∀ g ∈ m.phase.pending, HasFailed m.failureThreshold g ((id, e) :: log) := by
  intro g hg
  refine (h.pending g hg).other ?_ e
  rintro rfl
  exact hid hg

/-- What a step keeps. -/
theorem Counted.next (h : Counted m log) (hn : m.next a = some m')
    (hundisturbed : (MonitorHistory.mk m log).Undisturbed a) : Counted m' (m.events a ++ log) := by
  cases a with
  | startRound =>
    cases hphase : m.phase with
    | idle =>
      simp only [HealthMonitor.next, hphase] at hn
      split_ifs at hn
      cases hn
      exact ⟨h.count, fun _ hg => absurd hg List.not_mem_nil, fun _ hg => absurd hg List.not_mem_nil⟩
    | _ => simp [HealthMonitor.next, hphase] at hn
  | next =>
    cases hphase : m.phase with
    | scanning engines id ids =>
      simp only [HealthMonitor.next, hphase, Option.some.injEq] at hn
      subst hn
      exact h.scan hphase
    | _ => simp [HealthMonitor.next, hphase] at hn
  | checked healthy =>
    cases hphase : m.phase with
    | checking engines id ids => exact h.checked hphase healthy hn
    | _ => simp [HealthMonitor.next, hphase] at hn
  | promoted succeeded =>
    cases hphase : m.phase with
    | handover engines id ids => exact h.promoted hphase succeeded hn
    | _ => simp [HealthMonitor.next, hphase] at hn
  | kill =>
    cases hphase : m.phase with
    | killing left ids => exact h.kill hphase hn
    | _ => simp [HealthMonitor.next, hphase] at hn
  | recovered =>
    cases hphase : m.phase with
    | recovering ids => exact h.recovered hphase hn
    | _ => simp [HealthMonitor.next, hphase] at hn
  | restart index =>
    obtain ⟨hzero, hnot⟩ := hundisturbed
    simp only [HealthMonitor.next] at hn
    split_ifs at hn
    cases hn
    exact ⟨hasFailed_uncounted h.count hzero .recovered, h.pending_other hnot .recovered, h.inOrder⟩
  | suppress id =>
    cases hn
    exact ⟨hasFailed_reset h.count id .suppressed, h.pending_other hundisturbed .suppressed,
      h.inOrder⟩
  | unsuppress id =>
    cases hn
    exact ⟨hasFailed_reset h.count id .suppressed, h.pending_other hundisturbed .suppressed,
      h.inOrder⟩
  | pause =>
    cases hn
    exact ⟨h.count, h.pending, h.inOrder⟩
  | resume =>
    cases hn
    exact ⟨h.count, h.pending, h.inOrder⟩
  | stop =>
    cases hn
    exact ⟨h.count, h.pending, h.inOrder⟩

/-- A group is handed over when its count comes to the threshold, and killed while it is pending. -/
theorem Counted.takesDownFailed (h : Counted m log) (a : MonitorAction) :
    (MonitorHistory.mk m log).TakesDownFailed a := by
  intro id hid
  cases a with
  | checked healthy =>
    cases healthy with
    | true => cases hid
    | false =>
      cases hphase : m.phase with
      | checking engines checked ids =>
        simp only [HealthMonitor.takesDown, hphase] at hid
        split_ifs at hid with hstays
        · cases hid
        · cases hid
          have hcount := hasFailed_count h.count id id
          rw [Function.update_self] at hcount
          simp only [HealthMonitor.events, hphase]
          exact hcount.mono (not_lt.mp fun hless => hstays (.inl hless))
      | _ => simp [HealthMonitor.takesDown, hphase] at hid
  | kill =>
    cases hphase : m.phase with
    | killing left ids =>
      have hpending := h.pending
      rw [hphase] at hpending
      cases left with
      | nil => simp [HealthMonitor.takesDown, hphase] at hid
      | cons first left =>
        simp only [HealthMonitor.takesDown, hphase, Option.mem_def, Option.some.injEq] at hid
        subst hid
        exact hpending first List.mem_cons_self
    | _ => simp [HealthMonitor.takesDown, hphase] at hid
  | _ => cases hid

end Steps

namespace MonitorHistory

/-- A group is taken down only after as many failed checks as the threshold, with nothing in
between, in every run that does not disturb the counts. -/
theorem takesDownFailed_of_undisturbed (nodesPerEngine failureThreshold : Nat)
    (allRolloutEngines : List Bool) (run : List MonitorAction)
    (h : Meets next Undisturbed (init nodesPerEngine failureThreshold allRolloutEngines) run) :
    Meets next TakesDownFailed (init nodesPerEngine failureThreshold allRolloutEngines) run := by
  refine Meets.of_invariant (I := fun h => Counted h.monitor h.log) ?_ ?_ ?_ h
  · intro h a h' hcounted hundisturbed hn
    obtain ⟨m, hm, rfl⟩ := Option.map_eq_some_iff.mp hn
    exact hcounted.next hm hundisturbed
  · intro h a hcounted _
    exact hcounted.takesDownFailed a
  · exact ⟨fun g => hasFailed_zero g [], fun _ hg => absurd hg List.not_mem_nil, trivial⟩

/-- A group fails two checks, is not handed over, and is killed and started again. -/
def killedRun : List MonitorAction :=
  [.resume, .startRound, .next, .checked false, .next, .startRound, .next, .checked false,
    .promoted false, .next, .kill, .kill, .restart 0, .recovered]

/-- The group is taken down after the second failed check. -/
theorem takesDownFailed_of_undisturbed_killed :
    Meets next TakesDownFailed (init 1 2 [true]) killedRun := by
  have hundisturbed : Meets next Undisturbed (init 1 2 [true]) killedRun := by
    decide +kernel
  exact takesDownFailed_of_undisturbed 1 2 [true] killedRun hundisturbed

/-- The recovery of the first group fails, and the second one's recovery starts it again; its next
check fails. -/
def restartedRun : List MonitorAction :=
  [.resume, .startRound, .next, .checked false, .next, .checked true, .next,
    .startRound, .next, .checked false, .promoted false, .next, .checked false, .next,
    .kill, .kill, .recovered,
    .startRound, .next, .next, .checked false, .promoted false, .next,
    .kill, .kill, .restart 0, .restart 1, .recovered,
    .startRound, .next]

/-- The first group is handed over after one failed check since it was started again. -/
theorem takesDownFailed_fails :
    ¬Meets next TakesDownFailed (init 1 2 [true, true]) (restartedRun ++ [.checked false]) := by
  intro h
  have hrun : ∃ s ∈ exec next (init 1 2 [true, true]) restartedRun,
      (next s (.checked false)).isSome ∧ s.monitor.takesDown (.checked false) = some 0 ∧
        s.monitor.failureThreshold = 2 ∧
        (eventsOf 0 (s.monitor.events (.checked false) ++ s.log)).take 2 =
          [.failed, .recovered] := by
    decide +kernel
  obtain ⟨s, hs, hnext, hdown, hthreshold, hevents⟩ := hrun
  obtain ⟨s', hn⟩ := Option.isSome_iff_exists.mp hnext
  have hfailed := h.mid hs hn 0 hdown
  rw [HasFailed, hthreshold] at hfailed
  have hfirst := List.prefix_iff_eq_take.mp hfailed
  rw [List.length_replicate, hevents] at hfirst
  cases hfirst

end MonitorHistory

end Belayer.Engine
