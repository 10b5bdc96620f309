import Belayer.Rollout.Collect
import Belayer.Rollout.Reconnect

namespace Belayer.Rollout

open Belayer.Engine Belayer.Framework

/-- The connections a trainer rank pushes its weights over: the old ones, or new
ones to the given engines. -/
inductive Branch where
  | keep
  | reconnect (rolloutEngines : List (Option Nat))
  deriving DecidableEq

/-- Where a trainer rank stands in `update_weights`. `n` is the counter it has read
in its first call, `pending` the number of handovers it has read in its second. -/
inductive RankPhase where
  | idle
  | started
  | observed (rolloutEngines : List (Option Nat)) (n : Nat)
  | reconnecting (rolloutEngines : List (Option Nat)) (n pending : Nat)
  | connected (rolloutEngines : List (Option Nat)) (n pending : Nat)
  | cleared (rolloutEngines : List (Option Nat)) (pending : Nat)
  | pushing (branch : Branch)
  | raised (error : String)
  deriving DecidableEq

namespace RankPhase

def branchOf (rolloutEngines : List (Option Nat)) (n : Nat) : Branch :=
  if 0 < n then .reconnect rolloutEngines else .keep

/-- The branch a rank takes, once its first call is answered. -/
def branch? : RankPhase → Option Branch
  | .idle | .started | .raised _ => none
  | .observed engines n => some (branchOf engines n)
  | .reconnecting engines _ _ | .connected engines _ _ | .cleared engines _ =>
    some (.reconnect engines)
  | .pushing branch => some branch

def isRaised : RankPhase → Bool
  | .raised _ => true
  | _ => false

/-- The rank has read zero and has its second call before it. -/
def isZeroRead : RankPhase → Bool
  | .observed _ n => n == 0
  | _ => false

/-- The rank will acknowledge the handovers it has read. -/
def ackDue : RankPhase → Bool
  | .connected _ _ pending | .cleared _ pending => decide (0 < pending)
  | _ => false

/-- The barrier after the connections are built. Rank 0 clears the counter, the
others go on to push their weights. -/
def afterConnect (rank : Nat) : RankPhase → RankPhase
  | .reconnecting engines n pending =>
    if rank = 0 then .connected engines n pending else .pushing (.reconnect engines)
  | r => r

/-- The rank has passed the barrier that only rank 0 does something after. -/
def isPastBarrier : RankPhase → Bool
  | .connected _ _ _ | .cleared _ _ => true
  | _ => false

def isReconnecting : RankPhase → Bool
  | .reconnecting _ _ _ => true
  | _ => false

def isPushing : RankPhase → Bool
  | .pushing _ => true
  | _ => false

end RankPhase

/-- The manager with the actors of its engines, the recoveries in progress and the
trainer's ranks. Recoveries, the trainer's own among them, come at any time. -/
structure WeightUpdateState where
  manager : RolloutManager
  engines : List (Option SGLangEngine)
  recoveries : List Recovery
  ranks : List RankPhase

inductive WeightUpdateAction where
  | mark (count : Int) (reason : String)
  | handover (index : Nat) (args : ServerArgs) (reason : String)
  | kill (index : Nat)
  | generate (rolloutId : Int)
  | scan
  | restart (i : Nat) (spawn : Nat → Nat) (engine : Nat → SGLangEngine)
  | publish (i : Nat)
  | start
  | read (rank : Nat) (outcome : Nat → ConsumeOutcome)
  | debugState (rank : Nat) (outcome : Nat → ConsumeOutcome)
  | connect
  | clear
  | ack
  | push

namespace WeightUpdateState

def init (nodesPerEngine : Nat) (engines : List SGLangEngine) (numRanks : Nat) :
    WeightUpdateState :=
  ⟨.init nodesPerEngine engines.length, engines.map some, [], List.replicate numRanks .idle⟩

def setRank (s : WeightUpdateState) (rank : Nat) (r : RankPhase) : WeightUpdateState :=
  { s with ranks := s.ranks.set rank r }

/-- Both calls begin with the collection of the engine-side events. -/
def collect (s : WeightUpdateState) (outcome : Nat → ConsumeOutcome) : WeightUpdateState :=
  let (m, engines, _) := s.manager.collectEngineSideShadowHandoverReconnects s.engines outcome
  { s with manager := m, engines := engines }

/-- `get_rollout_engines_and_lock` as a rank calls it. -/
def readRank (s : WeightUpdateState) (rank : Nat) (outcome : Nat → ConsumeOutcome) :
    WeightUpdateState :=
  let s' := s.collect outcome
  let (engines, n) := s'.manager.getRolloutEngines false
  s'.setRank rank (.observed engines n)

/-- `get_weight_update_reconnect_debug_state` as a rank calls it, and what the rank
makes of the answer. -/
def debugRank (s : WeightUpdateState) (rank : Nat) (outcome : Nat → ConsumeOutcome)
    (engines : List (Option Nat)) (n : Nat) : WeightUpdateState :=
  let s' := s.collect outcome
  let pending := s'.manager.pendingShadowHandoverReconnects
  if 0 < pending ∧ n = 0 then s'.setRank rank (.raised reconnectRequired)
  else if 0 < n then s'.setRank rank (.reconnecting engines n pending)
  else s'.setRank rank (.pushing .keep)

def next (s : WeightUpdateState) : WeightUpdateAction → Option WeightUpdateState
  | .mark count reason =>
    some { s with
      manager := (s.manager.markRolloutEnginesNeedWeightUpdateReconnect count reason).1 }
  | .handover index args reason =>
    match s.engines[index]? with
    | some (some e) =>
      some { s with engines := s.engines.set index (some (e.adoptShadow args reason)) }
    | _ => none
  | .kill index =>
    some { s with manager := s.manager.killEngine index, engines := s.engines.set index none }
  | .generate rolloutId => some { s with manager := { s.manager with rolloutId := rolloutId } }
  | .scan =>
    match s.manager.recoveryTargets with
    | none => some s
    | some dead => some { s with recoveries := s.recoveries ++ [.scanned dead] }
  | .restart i spawn engine =>
    match s.recoveries[i]? with
    | some (.scanned dead) =>
      let (m, recovered) := s.manager.restartEngines spawn
      some { s with
        manager := m
        engines := s.engines.mapIdx fun i e => e <|> some (engine i)
        recoveries := s.recoveries.set i (.restarted dead recovered recovered) }
    | _ => none
  | .publish i =>
    match s.recoveries[i]? with
    | some (.restarted dead recovered _) =>
      some { s with
        manager := s.manager.publishRecovered recovered
        recoveries := s.recoveries.set i (.done (RolloutManager.recoveryReply dead recovered)) }
    | _ => none
  | .start =>
    if s.ranks.all (· == .idle) then some { s with ranks := s.ranks.mapIdx fun _ _ => .started }
    else none
  | .read rank outcome =>
    match s.ranks[rank]? with
    | some .started => some (s.readRank rank outcome)
    | _ => none
  | .debugState rank outcome =>
    match s.ranks[rank]? with
    | some (.observed engines n) => some (s.debugRank rank outcome engines n)
    | _ => none
  | .connect =>
    if s.ranks.all (·.isReconnecting) then
      some { s with ranks := s.ranks.mapIdx RankPhase.afterConnect }
    else none
  | .clear =>
    match s.ranks with
    | .connected engines n pending :: others =>
      some { s with
        manager := s.manager.clearNumNewEngines (some n)
        ranks := .cleared engines pending :: others }
    | _ => none
  | .ack =>
    match s.ranks with
    | .cleared engines pending :: others =>
      some { s with
        manager :=
          if 0 < pending then s.manager.ackShadowHandoverWeightUpdateReconnect else s.manager
        ranks := .pushing (.reconnect engines) :: others }
    | _ => none
  | .push =>
    if s.ranks.all (·.isPushing) then some { s with ranks := s.ranks.mapIdx fun _ _ => .idle }
    else none

/-- No rank has raised, and all ranks that know their branch take the same one. -/
def Agree (s : WeightUpdateState) : Prop :=
  (∀ r ∈ s.ranks, r.isRaised = false) ∧
    ∀ p ∈ s.ranks, ∀ q ∈ s.ranks, ∀ b ∈ p.branch?, ∀ b' ∈ q.branch?, b = b'

instance (s : WeightUpdateState) : Decidable s.Agree := inferInstanceAs (Decidable (_ ∧ _))

/-- Some rank has made its first call of the round, some other has not. -/
def Deciding (s : WeightUpdateState) : Prop :=
  (∃ r ∈ s.ranks, r.branch?.isSome) ∧ ∃ r ∈ s.ranks, r = .started

instance (s : WeightUpdateState) : Decidable s.Deciding := inferInstanceAs (Decidable (_ ∧ _))

/-- Some rank has read zero and has its second call before it. -/
def ZeroRead (s : WeightUpdateState) : Prop := ∃ r ∈ s.ranks, r.isZeroRead

instance (s : WeightUpdateState) : Decidable s.ZeroRead := inferInstanceAs (Decidable (∃ _, _))

/-- Rank 0 will acknowledge the pending handovers. -/
def AckDue (s : WeightUpdateState) : Prop := ∃ r ∈ s.ranks.head?, r.ackDue

instance (s : WeightUpdateState) : Decidable s.AckDue := inferInstanceAs (Decidable (∃ _, _))

/-- The collection of a call finds an event, and no engine fails it. -/
def CountsEvents (s : WeightUpdateState) (outcome : Nat → ConsumeOutcome) : Prop :=
  anyRaised s.engines outcome = false ∧ clearedEvents s.engines outcome ≠ []

instance (s : WeightUpdateState) (outcome : Nat → ConsumeOutcome) :
    Decidable (s.CountsEvents outcome) :=
  inferInstanceAs (Decidable (_ ∧ _))

/-- An event may be counted: it does not make a zero counter positive between the
first calls of two ranks and, if it is a handover, no rank that has read zero has
its second call before it. -/
def MayCount (s : WeightUpdateState) (handover : Bool) : Prop :=
  (s.manager.numNewEngines = 0 → ¬s.Deciding) ∧ (handover → ¬s.ZeroRead)

instance (s : WeightUpdateState) (handover : Bool) : Decidable (s.MayCount handover) :=
  inferInstanceAs (Decidable ((_ → _) ∧ (_ → _)))

/-- A recovery may assign `recovered` to the counter: not zero over a pending
handover that rank 0 is not about to acknowledge and, between the first calls of
two ranks, zero only if it was zero. -/
def MayPublish (s : WeightUpdateState) (recovered : Nat) : Prop :=
  (recovered = 0 → 0 < s.manager.pendingShadowHandoverReconnects → s.AckDue) ∧
    (s.Deciding → (0 < recovered ↔ 0 < s.manager.numNewEngines))

instance (s : WeightUpdateState) (recovered : Nat) : Decidable (s.MayPublish recovered) :=
  inferInstanceAs (Decidable ((_ → _ → _) ∧ (_ → _)))

/-- What rank 0 consumes leaves a pending handover counted, unless it acknowledges
the handover. -/
def MayClear (m : RolloutManager) : RankPhase → Prop
  | .connected _ n pending =>
    0 < m.pendingShadowHandoverReconnects → 0 < pending ∨ n < m.numNewEngines
  | _ => True

instance (m : RolloutManager) : ∀ r, Decidable (MayClear m r)
  | .connected _ _ _ => inferInstanceAs (Decidable (_ → _))
  | .idle | .started | .observed _ _ | .reconnecting _ _ _ | .cleared _ _ | .pushing _
  | .raised _ => .isTrue trivial

/-- The step does not disturb a round of the trainer. -/
def Undisturbed (s : WeightUpdateState) : WeightUpdateAction → Prop
  | .mark count reason => 0 < count → s.MayCount (isHandover reason)
  | .read _ outcome | .debugState _ outcome => s.CountsEvents outcome → s.MayCount true
  | .kill index =>
    s.Deciding → 0 < s.manager.numNewEngines →
      (s.manager.killEngine index).rolloutEngines = s.manager.rolloutEngines
  | .restart _ spawn _ =>
    s.Deciding → 0 < s.manager.numNewEngines →
      (s.manager.restartEngines spawn).1.rolloutEngines = s.manager.rolloutEngines
  | .publish i =>
    match s.recoveries[i]? with
    | some (.restarted _ recovered _) => s.MayPublish recovered
    | _ => True
  | .clear => ∀ r ∈ s.ranks.head?, MayClear s.manager r
  | _ => True

instance decidablePublish (s : WeightUpdateState) : ∀ recovery : Option Recovery, Decidable
    (match recovery with
      | some (.restarted _ recovered _) => s.MayPublish recovered
      | _ => True)
  | some (.restarted _ recovered _) => inferInstanceAs (Decidable (s.MayPublish recovered))
  | none | some (.scanned _) | some (.done _) => .isTrue trivial

instance (s : WeightUpdateState) : ∀ a, Decidable (s.Undisturbed a)
  | .mark _ _ | .read _ _ | .debugState _ _ => inferInstanceAs (Decidable (_ → _))
  | .kill _ | .restart _ _ _ => inferInstanceAs (Decidable (_ → _ → _))
  | .publish i => s.decidablePublish s.recoveries[i]?
  | .clear => inferInstanceAs (Decidable (∀ r ∈ s.ranks.head?, MayClear s.manager r))
  | .handover _ _ _ | .generate _ | .scan | .start | .connect | .ack | .push => .isTrue trivial

/-! ### What a call collects -/

theorem collect_ranks (s : WeightUpdateState) (outcome : Nat → ConsumeOutcome) :
    (s.collect outcome).ranks = s.ranks := rfl

/-- A collection leaves the manager as it is, or it marks engines because it has
found events. -/
theorem collect_cases (s : WeightUpdateState) (outcome : Nat → ConsumeOutcome) :
    (s.collect outcome).manager = s.manager ∨
      (s.CountsEvents outcome ∧ ∃ count reason, (s.collect outcome).manager =
        (s.manager.markRolloutEnginesNeedWeightUpdateReconnect count reason).1) := by
  rcases s.manager.collect_marks s.engines outcome with hm | ⟨hn, hm⟩
  · exact .inl hm
  · refine .inr ⟨?_, hm⟩
    rw [RolloutManager.collect_returns] at hn
    split_ifs at hn with hr
    · exact absurd rfl hn
    · refine ⟨by simpa using hr, fun hc => hn ?_⟩
      simp [RolloutManager.clearedGroups, hc]

/-! ### Rounds of the trainer -/

/-- The branch a rank takes whose first call comes now. -/
def branch (s : WeightUpdateState) : Branch :=
  RankPhase.branchOf s.manager.rolloutEngines s.manager.numNewEngines

structure Inv (s : WeightUpdateState) : Prop where
  notRaised : ∀ r ∈ s.ranks, r.isRaised = false
  agreed : ∀ p ∈ s.ranks, ∀ q ∈ s.ranks, ∀ b ∈ p.branch?, ∀ b' ∈ q.branch?, b = b'
  current : s.Deciding → ∀ r ∈ s.ranks, ∀ b ∈ r.branch?, b = s.branch
  unread : s.ZeroRead → s.manager.pendingShadowHandoverReconnects = 0
  counted : s.AckDue ∨
    (0 < s.manager.pendingShadowHandoverReconnects → 0 < s.manager.numNewEngines)
  past : ∀ r ∈ s.ranks.head?, r.isPastBarrier →
    ∀ q ∈ s.ranks, q ≠ .started ∧ q.isZeroRead = false

variable {s s' : WeightUpdateState}

theorem init_inv (nodesPerEngine : Nat) (engines : List SGLangEngine) (numRanks : Nat) :
    Inv (init nodesPerEngine engines numRanks) := by
  have hidle : ∀ r ∈ (init nodesPerEngine engines numRanks).ranks, r = .idle :=
    fun r hr => List.eq_of_mem_replicate hr
  refine ⟨?_, ?_, ?_, ?_, .inr ?_, ?_⟩
  · intro r hr
    rw [hidle r hr]
    rfl
  · intro p hp q hq b hb
    rw [hidle p hp] at hb
    cases hb
  · intro hd r hr b hb
    rw [hidle r hr] at hb
    cases hb
  · intro hz
    obtain ⟨r, hr, hz⟩ := hz
    rw [hidle r hr] at hz
    cases hz
  · intro hp
    cases hp
  · intro r hr hpast
    rw [hidle r (List.mem_of_mem_head? hr)] at hpast
    cases hpast

/-- A rank that has not made its first call keeps rank 0 before the barrier. -/
theorem Inv.not_ackDue (h : Inv s) {q : RankPhase} (hq : q ∈ s.ranks)
    (hs : q = .started ∨ q.isZeroRead) : ¬s.AckDue := by
  intro ha
  obtain ⟨r, hr, hd⟩ := ha
  have hpast : r.isPastBarrier = true := by
    cases r <;> simp [RankPhase.ackDue] at hd ⊢ <;> rfl
  obtain ⟨hn, hz⟩ := h.past r hr hpast q hq
  rcases hs with hs | hs
  · exact hn hs
  · simp [hz] at hs

/-- Steps of the manager that disturb no round. -/
theorem Inv.manager (h : Inv s) {m : RolloutManager} {engines : List (Option SGLangEngine)}
    {recoveries : List Recovery}
    (hbranch : s.Deciding → RankPhase.branchOf m.rolloutEngines m.numNewEngines = s.branch)
    (hunread : s.ZeroRead → m.pendingShadowHandoverReconnects = 0)
    (hcounted : s.AckDue ∨ (0 < m.pendingShadowHandoverReconnects → 0 < m.numNewEngines)) :
    Inv { s with manager := m, engines := engines, recoveries := recoveries } where
  notRaised := h.notRaised
  agreed := h.agreed
  current hd r hr b hb := (h.current hd r hr b hb).trans (hbranch hd).symm
  unread := hunread
  counted := hcounted
  past := h.past

theorem pending_mark (m : RolloutManager) (count : Int) (reason : String) :
    (m.markRolloutEnginesNeedWeightUpdateReconnect count reason).1.pendingShadowHandoverReconnects =
      m.pendingShadowHandoverReconnects + if isHandover reason then count.toNat else 0 := by
  unfold RolloutManager.markRolloutEnginesNeedWeightUpdateReconnect
  split_ifs with hc hh
  · simp [Int.toNat_of_nonpos hc]
  · simp
  · rfl
  · rfl

@[simp] theorem rolloutEngines_mark (m : RolloutManager) (count : Int) (reason : String) :
    (m.markRolloutEnginesNeedWeightUpdateReconnect count reason).1.rolloutEngines =
      m.rolloutEngines := by
  unfold RolloutManager.markRolloutEnginesNeedWeightUpdateReconnect
  split_ifs <;> rfl

/-- Marking keeps the branch unless it makes a zero counter positive. -/
theorem Inv.mark (h : Inv s) {count : Int} {reason : String} {handover : Bool}
    {engines : List (Option SGLangEngine)} (hc : 0 < count → s.MayCount handover)
    (hh : isHandover reason → handover) :
    Inv { s with
      manager := (s.manager.markRolloutEnginesNeedWeightUpdateReconnect count reason).1
      engines := engines } := by
  refine h.manager ?_ ?_ ?_
  · intro hd
    rw [rolloutEngines_mark, RolloutManager.numNewEngines_mark]
    by_cases hp : 0 < count
    · have hn : 0 < s.manager.numNewEngines :=
        Nat.pos_of_ne_zero fun hz => (hc hp).1 hz hd
      simp [branch, RankPhase.branchOf, hn]
    · simp [branch, Int.toNat_of_nonpos (not_lt.mp hp)]
  · intro hz
    rw [pending_mark, h.unread hz]
    by_cases hp : 0 < count
    · have hn : isHandover reason = false := by
        by_contra hr
        exact (hc hp).2 (hh (by simpa using hr)) hz
      simp [hn]
    · simp [Int.toNat_of_nonpos (not_lt.mp hp)]
  · refine h.counted.imp_right fun hcount => ?_
    rw [pending_mark, RolloutManager.numNewEngines_mark]
    split_ifs <;> omega

theorem Inv.collect (h : Inv s) {outcome : Nat → ConsumeOutcome}
    (hc : s.CountsEvents outcome → s.MayCount true) : Inv (s.collect outcome) := by
  have hs : s.collect outcome = { s with
      manager := (s.collect outcome).manager, engines := (s.collect outcome).engines } := rfl
  rw [hs]
  rcases s.collect_cases outcome with hm | ⟨hcount, count, reason, hm⟩
  · rw [hm]
    exact h.manager (fun _ => rfl) h.unread h.counted
  · rw [hm]
    exact h.mark (fun _ => hc hcount) (fun _ => rfl)

theorem mem_head?_set {l : List RankPhase} {rank : Nat} {a r : RankPhase}
    (h : r ∈ (l.set rank a).head?) : r = a ∨ r ∈ l.head? := by
  cases l with
  | nil => exact .inr h
  | cons b l =>
    cases rank with
    | zero => exact .inl (Option.some.inj h).symm
    | succ rank => exact .inr h

/-- The first call of a rank: it takes the branch that the others have taken. -/
theorem Inv.observes (h : Inv s) {rank : Nat} (hr : s.ranks[rank]? = some .started) :
    Inv (s.setRank rank
      (.observed s.manager.rolloutEngines s.manager.numNewEngines)) := by
  have hstarted : RankPhase.started ∈ s.ranks := List.mem_of_getElem? hr
  have hdue : ¬s.AckDue := h.not_ackDue hstarted (.inl rfl)
  have hbranch : ∀ r ∈ (s.setRank rank
      (.observed s.manager.rolloutEngines s.manager.numNewEngines)).ranks,
      ∀ b ∈ r.branch?, b = s.branch := by
    intro r hm b hb
    rcases List.mem_or_eq_of_mem_set hm with hm | rfl
    · have hsome : r.branch?.isSome := by simp [Option.mem_def.mp hb]
      exact h.current ⟨⟨r, hm, hsome⟩, _, hstarted, rfl⟩ r hm b hb
    · exact (Option.some.inj hb).symm
  refine ⟨?_, ?_, fun _ => hbranch, ?_, .inr ?_, ?_⟩
  · intro r hm
    rcases List.mem_or_eq_of_mem_set hm with hm | rfl
    · exact h.notRaised r hm
    · rfl
  · intro p hp q hq b hb b' hb'
    rw [hbranch p hp b hb, hbranch q hq b' hb']
  · intro hz
    obtain ⟨r, hm, hz⟩ := hz
    rcases List.mem_or_eq_of_mem_set hm with hm | rfl
    · exact h.unread ⟨r, hm, hz⟩
    · have hn : s.manager.numNewEngines = 0 := by simpa [RankPhase.isZeroRead] using hz
      have hcount := h.counted.resolve_left hdue
      simp only [setRank]
      omega
  · exact h.counted.resolve_left hdue
  · intro r hm hpast
    rcases mem_head?_set hm with rfl | hm
    · cases hpast
    · exact absurd rfl (h.past r hm hpast _ hstarted).1

/-- A rank moves on within its branch. -/
theorem Inv.proceeds (h : Inv s) {rank : Nat} {p p' : RankPhase} (hp : s.ranks[rank]? = some p)
    (hbranch : p'.branch? = p.branch?) (hsome : p.branch?.isSome) (hdue : p.ackDue = false)
    (hdue' : p'.isPastBarrier = false) (hzero : p'.isZeroRead = false)
    (hraised : p'.isRaised = false) : Inv (s.setRank rank p') := by
  have hmem : p ∈ s.ranks := List.mem_of_getElem? hp
  have hstarted : p' ≠ .started := by
    intro he
    rw [← hbranch, he] at hsome
    cases hsome
  have hold : ∀ r ∈ (s.setRank rank p').ranks, ∃ q ∈ s.ranks, q.branch? = r.branch? := by
    intro r hm
    rcases List.mem_or_eq_of_mem_set hm with hm | rfl
    · exact ⟨r, hm, rfl⟩
    · exact ⟨p, hmem, hbranch.symm⟩
  have hdeciding : (s.setRank rank p').Deciding → s.Deciding := by
    intro hd
    obtain ⟨-, q, hq, hs⟩ := hd
    rcases List.mem_or_eq_of_mem_set hq with hq | hq
    · exact ⟨⟨p, hmem, hsome⟩, q, hq, hs⟩
    · exact absurd (hq.symm.trans hs) hstarted
  refine ⟨?_, ?_, ?_, ?_, ?_, ?_⟩
  · intro r hm
    rcases List.mem_or_eq_of_mem_set hm with hm | rfl
    · exact h.notRaised r hm
    · exact hraised
  · intro a ha b hb c hc c' hc'
    obtain ⟨a₀, ha₀, hae⟩ := hold a ha
    obtain ⟨b₀, hb₀, hbe⟩ := hold b hb
    exact h.agreed a₀ ha₀ b₀ hb₀ c (hae ▸ hc) c' (hbe ▸ hc')
  · intro hd r hr b hb
    obtain ⟨q, hq, he⟩ := hold r hr
    exact h.current (hdeciding hd) q hq b (he ▸ hb)
  · intro hz
    obtain ⟨r, hm, hz⟩ := hz
    rcases List.mem_or_eq_of_mem_set hm with hm | rfl
    · exact h.unread ⟨r, hm, hz⟩
    · simp [hzero] at hz
  · refine h.counted.imp_left fun ha => ?_
    obtain ⟨r, hr, ha⟩ := ha
    refine ⟨r, ?_, ha⟩
    cases rank with
    | zero =>
      have he : r = p := by
        rw [← List.head?_eq_getElem?, Option.mem_def.mp hr] at hp
        exact Option.some.inj hp
      simp [he, hdue] at ha
    | succ rank =>
      cases hl : s.ranks with
      | nil => simp [hl] at hr
      | cons a l => simpa [setRank, hl] using hr
  · intro r hm hpast q hq
    rcases mem_head?_set hm with rfl | hm
    · simp [hdue'] at hpast
    · rcases List.mem_or_eq_of_mem_set hq with hq | rfl
      · exact h.past r hm hpast q hq
      · exact ⟨hstarted, hzero⟩

theorem Inv.read (h : Inv s) {rank : Nat} {outcome : Nat → ConsumeOutcome}
    (hr : s.ranks[rank]? = some .started) (hc : s.CountsEvents outcome → s.MayCount true) :
    Inv (s.readRank rank outcome) :=
  (h.collect hc).observes (by rw [collect_ranks, hr])

/-- A rank that has read zero finds no pending handover in its second call. -/
theorem Inv.debug (h : Inv s) {rank n : Nat} {outcome : Nat → ConsumeOutcome}
    {engines : List (Option Nat)} (hr : s.ranks[rank]? = some (.observed engines n))
    (hc : s.CountsEvents outcome → s.MayCount true) :
    Inv (s.debugRank rank outcome engines n) := by
  have hcollect : Inv (s.collect outcome) := h.collect hc
  have hrank : (s.collect outcome).ranks[rank]? = some (.observed engines n) := by
    rw [collect_ranks, hr]
  unfold debugRank
  dsimp only
  split_ifs with hraise hn
  · obtain ⟨hpending, rfl⟩ := hraise
    have hzero : (s.collect outcome).ZeroRead := ⟨_, List.mem_of_getElem? hrank, rfl⟩
    rw [hcollect.unread hzero] at hpending
    cases hpending
  · exact hcollect.proceeds hrank (by simp [RankPhase.branch?, RankPhase.branchOf, hn])
      rfl rfl rfl rfl rfl
  · exact hcollect.proceeds hrank (by simp [RankPhase.branch?, RankPhase.branchOf, hn])
      rfl rfl rfl rfl rfl

/-- The barriers of a round: `f` lets every rank go on in its branch, to a phase in
which it has no call before it. -/
theorem Inv.barrier (h : Inv s) {f : Nat → RankPhase → RankPhase}
    (hbranch : ∀ i r, r ∈ s.ranks → ∀ b ∈ (f i r).branch?, b ∈ r.branch?)
    (hraised : ∀ i r, r ∈ s.ranks → (f i r).isRaised = false)
    (hzero : ∀ i r, r ∈ s.ranks → (f i r).isZeroRead = false)
    (hdue : ¬s.AckDue)
    (hstarted : (∀ i r, r ∈ s.ranks → f i r ≠ .started) ∨
      ∀ i r, r ∈ s.ranks → f i r = .started) :
    Inv { s with ranks := s.ranks.mapIdx f } := by
  have hold : ∀ r ∈ s.ranks.mapIdx f, ∃ i, ∃ q ∈ s.ranks, r = f i q := by
    intro r hr
    obtain ⟨i, hi, rfl⟩ := List.mem_mapIdx.mp hr
    exact ⟨i, s.ranks[i], List.getElem_mem hi, rfl⟩
  have hfresh : ∀ r ∈ s.ranks.mapIdx f, r.isZeroRead = false := by
    intro r hr
    obtain ⟨i, q, hq, rfl⟩ := hold r hr
    exact hzero i q hq
  refine ⟨?_, ?_, ?_, ?_, .inr (h.counted.resolve_left hdue), ?_⟩
  · intro r hr
    obtain ⟨i, q, hq, rfl⟩ := hold r hr
    exact hraised i q hq
  · intro a ha b hb c hc c' hc'
    obtain ⟨i, a₀, ha₀, rfl⟩ := hold a ha
    obtain ⟨j, b₀, hb₀, rfl⟩ := hold b hb
    exact h.agreed a₀ ha₀ b₀ hb₀ c (hbranch i a₀ ha₀ c hc) c' (hbranch j b₀ hb₀ c' hc')
  · intro hd
    obtain ⟨⟨r, hr, hsome⟩, q, hq, hs⟩ := hd
    obtain ⟨i, q₀, hq₀, rfl⟩ := hold q hq
    obtain ⟨j, r₀, hr₀, rfl⟩ := hold r hr
    rcases hstarted with hn | ha
    · exact absurd hs (hn i q₀ hq₀)
    · rw [ha j r₀ hr₀] at hsome
      cases hsome
  · intro hz
    obtain ⟨r, hr, hz⟩ := hz
    simp [hfresh r hr] at hz
  · intro r hr hpast q hq
    obtain ⟨j, r₀, hr₀, rfl⟩ := hold r (List.mem_of_mem_head? hr)
    obtain ⟨i, q₀, hq₀, rfl⟩ := hold q hq
    rcases hstarted with hn | ha
    · exact ⟨hn i q₀ hq₀, hzero i q₀ hq₀⟩
    · rw [ha j r₀ hr₀] at hpast
      cases hpast

theorem not_ackDue_of_forall (h : ∀ r ∈ s.ranks, r.ackDue = false) : ¬s.AckDue := by
  intro ha
  obtain ⟨r, hr, ha⟩ := ha
  simp [h r (List.mem_of_mem_head? hr)] at ha

theorem Inv.starts (h : Inv s) (hi : ∀ r ∈ s.ranks, r = .idle) :
    Inv { s with ranks := s.ranks.mapIdx fun _ _ => .started } := by
  refine h.barrier ?_ (fun _ _ _ => rfl) (fun _ _ _ => rfl) ?_ (.inr fun _ _ _ => rfl)
  · intro i r hr b hb
    cases hb
  · refine not_ackDue_of_forall fun r hr => ?_
    rw [hi r hr]
    rfl

theorem Inv.connects (h : Inv s) (hi : ∀ r ∈ s.ranks, r.isReconnecting) :
    Inv { s with ranks := s.ranks.mapIdx RankPhase.afterConnect } := by
  have hshape : ∀ r ∈ s.ranks, ∃ engines n pending, r = .reconnecting engines n pending := by
    intro r hr
    have hr := hi r hr
    cases r <;> first | exact ⟨_, _, _, rfl⟩ | cases hr
  refine h.barrier ?_ ?_ ?_ ?_ (.inl ?_)
  · intro i r hr b hb
    obtain ⟨engines, n, pending, rfl⟩ := hshape r hr
    simp only [RankPhase.afterConnect] at hb
    split_ifs at hb <;> exact hb
  · intro i r hr
    obtain ⟨engines, n, pending, rfl⟩ := hshape r hr
    simp only [RankPhase.afterConnect]
    split_ifs <;> rfl
  · intro i r hr
    obtain ⟨engines, n, pending, rfl⟩ := hshape r hr
    simp only [RankPhase.afterConnect]
    split_ifs <;> rfl
  · refine not_ackDue_of_forall fun r hr => ?_
    obtain ⟨engines, n, pending, rfl⟩ := hshape r hr
    rfl
  · intro i r hr
    obtain ⟨engines, n, pending, rfl⟩ := hshape r hr
    simp only [RankPhase.afterConnect]
    split_ifs <;> simp

theorem Inv.pushes (h : Inv s) (hi : ∀ r ∈ s.ranks, r.isPushing) :
    Inv { s with ranks := s.ranks.mapIdx fun _ _ => .idle } := by
  refine h.barrier ?_ (fun _ _ _ => rfl) (fun _ _ _ => rfl) ?_ (.inl fun _ _ _ => by simp)
  · intro i r hr b hb
    cases hb
  · refine not_ackDue_of_forall fun r hr => ?_
    have hr := hi r hr
    cases r <;> first | rfl | cases hr

/-- Rank 0 clears and acknowledges after the barrier, when no rank has a call before
it: only the obligation of a pending handover is at stake. -/
theorem Inv.manages (h : Inv s) {p p' : RankPhase} {others : List RankPhase} {m : RolloutManager}
    (hl : s.ranks = p :: others) (hp : p.isPastBarrier) (hbranch : p'.branch? = p.branch?)
    (hstarted : p' ≠ .started) (hzero : p'.isZeroRead = false) (hraised : p'.isRaised = false)
    (hcounted : p'.ackDue ∨ (0 < m.pendingShadowHandoverReconnects → 0 < m.numNewEngines)) :
    Inv { s with manager := m, ranks := p' :: others } := by
  have hpast : ∀ q ∈ p' :: others, q ≠ .started ∧ q.isZeroRead = false := by
    intro q hq
    rcases List.mem_cons.mp hq with rfl | hq
    · exact ⟨hstarted, hzero⟩
    · exact h.past p (by rw [hl]; rfl) hp q (by rw [hl]; exact List.mem_cons_of_mem _ hq)
  have hold : ∀ r ∈ p' :: others, ∃ q ∈ s.ranks, q.branch? = r.branch? := by
    intro r hr
    rw [hl]
    rcases List.mem_cons.mp hr with rfl | hr
    · exact ⟨p, List.mem_cons_self .., hbranch.symm⟩
    · exact ⟨r, List.mem_cons_of_mem _ hr, rfl⟩
  refine ⟨?_, ?_, ?_, ?_, ?_, fun _ _ _ => hpast⟩
  · intro r hr
    rcases List.mem_cons.mp hr with rfl | hr
    · exact hraised
    · exact h.notRaised r (by rw [hl]; exact List.mem_cons_of_mem _ hr)
  · intro a ha b hb c hc c' hc'
    obtain ⟨a₀, ha₀, hae⟩ := hold a ha
    obtain ⟨b₀, hb₀, hbe⟩ := hold b hb
    exact h.agreed a₀ ha₀ b₀ hb₀ c (hae ▸ hc) c' (hbe ▸ hc')
  · intro hd
    obtain ⟨-, q, hq, hs⟩ := hd
    exact absurd hs (hpast q hq).1
  · intro hz
    obtain ⟨q, hq, hz⟩ := hz
    simp [(hpast q hq).2] at hz
  · exact hcounted.imp_left fun hd => ⟨p', rfl, hd⟩

theorem Inv.clears (h : Inv s) {engines : List (Option Nat)} {n pending : Nat}
    {others : List RankPhase} (hl : s.ranks = .connected engines n pending :: others)
    (hc : MayClear s.manager (.connected engines n pending)) :
    Inv { s with
      manager := s.manager.clearNumNewEngines (some n)
      ranks := .cleared engines pending :: others } := by
  refine h.manages hl rfl rfl (by simp) rfl rfl ?_
  by_cases hp : 0 < pending
  · left
    simpa [RankPhase.ackDue] using hp
  · right
    intro hshadow
    have hn : n < s.manager.numNewEngines := (hc hshadow).resolve_left hp
    rw [RolloutManager.numNewEngines_clear]
    omega

theorem Inv.acks (h : Inv s) {engines : List (Option Nat)} {pending : Nat}
    {others : List RankPhase} (hl : s.ranks = .cleared engines pending :: others) :
    Inv { s with
      manager :=
        if 0 < pending then s.manager.ackShadowHandoverWeightUpdateReconnect else s.manager
      ranks := .pushing (.reconnect engines) :: others } := by
  refine h.manages hl rfl rfl (by simp) rfl rfl (.inr ?_)
  split_ifs with hp
  · intro hshadow
    cases hshadow
  · refine h.counted.resolve_left ?_
    intro ha
    obtain ⟨r, hr, ha⟩ := ha
    rw [hl] at hr
    cases hr
    simp [RankPhase.ackDue, hp] at ha

theorem Inv.publishes (h : Inv s) {recovered : Nat} {recoveries : List Recovery}
    (hp : s.MayPublish recovered) :
    Inv { s with manager := s.manager.publishRecovered recovered, recoveries := recoveries } := by
  refine h.manager ?_ h.unread ?_
  · intro hd
    exact if_congr (hp.2 hd) rfl rfl
  · by_cases hr : recovered = 0
    · refine (Classical.em s.AckDue).imp_right fun ha hshadow => ?_
      exact absurd (hp.1 hr hshadow) ha
    · exact .inr fun _ => Nat.pos_of_ne_zero hr

/-- An engine slot that changes between the first calls of two ranks is none that a
rank would connect to. -/
theorem Inv.slots (h : Inv s) {m : RolloutManager} {engines : List (Option SGLangEngine)}
    {recoveries : List Recovery} (hnum : m.numNewEngines = s.manager.numNewEngines)
    (hpending : m.pendingShadowHandoverReconnects = s.manager.pendingShadowHandoverReconnects)
    (hslots : s.Deciding → 0 < s.manager.numNewEngines →
      m.rolloutEngines = s.manager.rolloutEngines) :
    Inv { s with manager := m, engines := engines, recoveries := recoveries } := by
  refine h.manager ?_ (fun hz => hpending.trans (h.unread hz)) ?_
  · intro hd
    rw [branch, RankPhase.branchOf, RankPhase.branchOf, hnum]
    split_ifs with hn
    · rw [hslots hd hn]
    · rfl
  · rw [hnum, hpending]
    exact h.counted

theorem Inv.next (h : Inv s) {a : WeightUpdateAction} (hu : s.Undisturbed a)
    (hn : s.next a = some s') : Inv s' := by
  cases a with
  | mark count reason =>
    cases hn
    exact h.mark hu id
  | handover index args reason =>
    simp only [WeightUpdateState.next] at hn
    split at hn
    · cases hn
      exact h.manager (fun _ => rfl) h.unread h.counted
    · cases hn
  | kill index =>
    cases hn
    exact h.slots rfl rfl hu
  | generate rolloutId =>
    cases hn
    exact h.slots rfl rfl fun _ _ => rfl
  | scan =>
    simp only [WeightUpdateState.next] at hn
    split at hn
    · cases hn
      exact h
    · cases hn
      exact h.manager (fun _ => rfl) h.unread h.counted
  | restart i spawn engine =>
    simp only [WeightUpdateState.next] at hn
    split at hn
    · cases hn
      exact h.slots rfl rfl hu
    · cases hn
  | publish i =>
    simp only [WeightUpdateState.next] at hn
    split at hn
    · rename_i dead recovered unpublished hi
      cases hn
      simp only [Undisturbed, hi] at hu
      exact h.publishes hu
    · cases hn
  | start =>
    simp only [WeightUpdateState.next] at hn
    split_ifs at hn with hi
    cases hn
    exact h.starts (by simpa using hi)
  | read rank outcome =>
    simp only [WeightUpdateState.next] at hn
    split at hn
    · rename_i hr
      cases hn
      exact h.read hr hu
    · cases hn
  | debugState rank outcome =>
    simp only [WeightUpdateState.next] at hn
    split at hn
    · rename_i engines n hr
      cases hn
      exact h.debug hr hu
    · cases hn
  | connect =>
    simp only [WeightUpdateState.next] at hn
    split_ifs at hn with hi
    cases hn
    exact h.connects (by simpa using hi)
  | clear =>
    simp only [WeightUpdateState.next] at hn
    split at hn
    · rename_i engines n pending others hl
      cases hn
      exact h.clears hl (hu _ (by rw [hl]; rfl))
    · cases hn
  | ack =>
    simp only [WeightUpdateState.next] at hn
    split at hn
    · rename_i engines pending others hl
      cases hn
      exact h.acks hl
    · cases hn
  | push =>
    simp only [WeightUpdateState.next] at hn
    split_ifs at hn with hi
    cases hn
    exact h.pushes (by simpa using hi)

/-- In every run that disturbs no round of the trainer, no rank raises and all ranks
take the same branch with the same engines. -/
theorem ranks_agree (nodesPerEngine : Nat) (engines : List SGLangEngine) (numRanks : Nat)
    (run : List WeightUpdateAction)
    (h : Meets next Undisturbed (init nodesPerEngine engines numRanks) run) :
    Along next Agree (init nodesPerEngine engines numRanks) run :=
  (along_of_meets (fun _ _ _ hs hu hn => hs.next hu hn) (init_inv _ _ _) h).mono
    (fun _ hs => ⟨hs.notRaised, hs.agreed⟩)

/-- An engine with a shadow on another port. -/
def shadowedEngine : SGLangEngine :=
  ⟨0, 0, "regular", none, none, false, some ⟨1, true⟩, some ⟨2, true⟩, some ⟨"h", 31000⟩,
    some ⟨"h", 31110⟩, "h", 31000, true, false, false, none⟩

def answered (_ : Nat) : ConsumeOutcome := .answered

/-- A round of two ranks that connect to new engines. -/
def twoRanksConnect : List WeightUpdateAction :=
  [.start, .read 0 answered, .read 1 answered, .debugState 1 answered, .debugState 0 answered,
    .connect, .clear, .ack, .push]

def promoted : WeightUpdateAction := .handover 0 ⟨"h", 31110⟩ "primary exited"

/-- The engine is promoted after both ranks have made their calls; the next round
connects to it again. -/
def quietRun : List WeightUpdateAction :=
  [.start, .read 0 answered, .read 1 answered, .debugState 1 answered, .debugState 0 answered,
    promoted, .connect, .clear, .ack, .push] ++ twoRanksConnect

theorem ranks_agree_quietRun :
    Meets next Undisturbed (init 1 [shadowedEngine] 2) quietRun ∧
      Along next Agree (init 1 [shadowedEngine] 2) quietRun :=
  ⟨by decide, ranks_agree 1 [shadowedEngine] 2 quietRun (by decide)⟩

/-- The engine is promoted between the two calls of the only rank. -/
def raisingRun : List WeightUpdateAction :=
  [.start, .read 0 answered, .debugState 0 answered, .connect, .clear, .ack, .push,
    .start, .read 0 answered, promoted, .debugState 0 answered]

/-- The engine is promoted between the first calls of two ranks. -/
def splitRun : List WeightUpdateAction :=
  twoRanksConnect ++ [.start, .read 0 answered, promoted, .read 1 answered]

theorem raisingRun_disagrees :
    ¬Along next Agree (init 1 [shadowedEngine] 1) raisingRun ∧
      ¬Along next Agree (init 1 [shadowedEngine] 2) splitRun := by
  constructor
  · intro h
    exact absurd (h.last rfl) (by decide)
  · intro h
    exact absurd (h.last rfl) (by decide)

end WeightUpdateState

end Belayer.Rollout
