import Belayer.Framework.Run
import Belayer.Rollout.RolloutManager
import Mathlib.Algebra.GroupWithZero.Nat

namespace Belayer.Rollout

open Belayer.Framework

/-- A call of `recover_rollout_engines`, by the trainer or by the health monitor.
`unpublished` records how many of the engines it restarted since the trainer's
last connection was built are not in the counter. -/
inductive Recovery where
  | scanned (deadIndices : List Nat)
  | restarted (deadIndices : List Nat) (recoveredNumNew unpublished : Nat)
  | done (reply : Except String Nat)

def Recovery.unpublished : Recovery → Nat
  | .restarted _ _ u => u
  | _ => 0

/-- A new connection covers the engines restarted so far. -/
def Recovery.connected : Recovery → Recovery
  | .restarted dead n _ => .restarted dead n 0
  | c => c

/-- Where the trainer stands in `update_weights`. `n` is the counter it has read,
`pending` the number of handovers it has read after it. -/
inductive TrainerPhase where
  | idle
  | observed (n : Nat)
  | checked (n pending : Nat)
  | connected (n pending : Nat)
  | cleared (pending : Nat)
  | raised (error : String)

/-- The manager with its callers. `counted` and `staleRead` record the history:
the events since the last connection was built that were added to the counter or
published by a recovery, and whether the trainer has read zero in spite of an
event. -/
structure ReconnectState where
  manager : RolloutManager
  recoveries : List Recovery
  trainer : TrainerPhase
  counted : Nat
  staleRead : Bool

inductive ReconnectAction where
  | mark (count : Int) (reason : String)
  | kill (index : Nat)
  | generate (rolloutId : Int)
  | scan
  | restart (i : Nat) (spawn : Nat → Nat)
  | publish (i : Nat)
  | read
  | debugState
  | connect
  | clear
  | ack

def reconnectRequired : String :=
  "Shadow handover requires a weight-update reconnect, but update_weights observed no pending " ++
    "rollout engine reconnects."

namespace ReconnectState

def init (nodesPerEngine numEngines : Nat) : ReconnectState :=
  ⟨.init nodesPerEngine numEngines, [], .idle, numEngines, false⟩

/-- The engines restarted or promoted since the last connection was built. -/
def missed (s : ReconnectState) : Nat := s.counted + (s.recoveries.map Recovery.unpublished).sum

def next (s : ReconnectState) : ReconnectAction → Option ReconnectState
  | .mark count reason =>
    some { s with
      manager := (s.manager.markRolloutEnginesNeedWeightUpdateReconnect count reason).1
      counted := s.counted + count.toNat }
  | .kill index => some { s with manager := s.manager.killEngine index }
  | .generate rolloutId => some { s with manager := { s.manager with rolloutId := rolloutId } }
  | .scan =>
    match s.manager.recoveryTargets with
    | none => some s
    | some dead => some { s with recoveries := s.recoveries ++ [.scanned dead] }
  | .restart i spawn =>
    match s.recoveries[i]? with
    | some (.scanned dead) =>
      let (m, recovered) := s.manager.restartEngines spawn
      some { s with
        manager := m
        recoveries := s.recoveries.set i (.restarted dead recovered recovered) }
    | _ => none
  | .publish i =>
    match s.recoveries[i]? with
    | some (.restarted dead recovered unpublished) =>
      some { s with
        manager := s.manager.publishRecovered recovered
        recoveries := s.recoveries.set i (.done (RolloutManager.recoveryReply dead recovered))
        counted := s.counted + unpublished }
    | _ => none
  | .read =>
    match s.trainer with
    | .idle =>
      let (_, n) := s.manager.getRolloutEngines false
      some { s with
        trainer := .observed n
        staleRead := s.staleRead || (decide (0 < s.missed) && decide (n = 0)) }
    | _ => none
  | .debugState =>
    match s.trainer with
    | .observed n =>
      let pending := s.manager.pendingShadowHandoverReconnects
      if 0 < pending ∧ n = 0 then some { s with trainer := .raised reconnectRequired }
      else if 0 < n then some { s with trainer := .checked n pending }
      else some { s with trainer := .idle }
    | _ => none
  | .connect =>
    match s.trainer with
    | .checked n pending =>
      some { s with
        trainer := .connected n pending
        recoveries := s.recoveries.map Recovery.connected
        counted := 0 }
    | _ => none
  | .clear =>
    match s.trainer with
    | .connected n pending =>
      some { s with
        manager := s.manager.clearNumNewEngines (some n)
        trainer := .cleared pending }
    | _ => none
  | .ack =>
    match s.trainer with
    | .cleared pending =>
      some { s with
        manager :=
          if 0 < pending then s.manager.ackShadowHandoverWeightUpdateReconnect else s.manager
        trainer := .idle }
    | _ => none

/-- The trainer has never read zero although an engine was restarted or promoted
after its last connection was built. -/
def NoneLost (s : ReconnectState) : Prop := s.staleRead = false

instance (s : ReconnectState) : Decidable s.NoneLost := inferInstanceAs (Decidable (_ = _))

/-- A recovery that assigns `recovered` to the counter must leave it above what
the trainer will consume, if anything came after the connection, and not below it
otherwise. -/
def Covers (recovered unpublished counted : Nat) : TrainerPhase → Prop
  | .idle | .cleared _ => recovered = 0 → counted = 0
  | .observed n => n ≤ recovered ∧ (recovered = 0 → counted = 0)
  | .checked n _ => n ≤ recovered
  | .connected n _ => n ≤ recovered ∧ (0 < counted + unpublished → n < recovered)
  | .raised _ => True

instance (recovered unpublished counted : Nat) : ∀ t, Decidable (Covers recovered unpublished counted t)
  | .idle | .cleared _ => inferInstanceAs (Decidable (_ → _))
  | .observed _ => inferInstanceAs (Decidable (_ ∧ (_ → _)))
  | .checked _ _ => inferInstanceAs (Decidable (_ ≤ _))
  | .connected _ _ => inferInstanceAs (Decidable (_ ∧ (_ → _)))
  | .raised _ => .isTrue trivial

/-- A recovery covers the counter it overwrites, and the trainer does not read
zero while a recovery has restarted engines that it has not published. -/
def Published (s : ReconnectState) : ReconnectAction → Prop
  | .publish i =>
    match s.recoveries[i]? with
    | some (.restarted _ recovered unpublished) =>
      Covers recovered unpublished s.counted s.trainer
    | _ => True
  | .read => s.manager.numNewEngines = 0 → ∀ c ∈ s.recoveries, c.unpublished = 0
  | _ => True

instance (s : ReconnectState) : ∀ a, Decidable (s.Published a)
  | .publish i =>
    match h : s.recoveries[i]? with
    | some (.restarted _ recovered unpublished) =>
      decidable_of_iff (Covers recovered unpublished s.counted s.trainer) (by simp [Published, h])
    | none | some (.scanned _) | some (.done _) => .isTrue (by simp [Published, h])
  | .read => inferInstanceAs (Decidable (_ → ∀ c ∈ s.recoveries, _))
  | .mark _ _ | .kill _ | .generate _ | .scan | .restart _ _ | .debugState | .connect | .clear
  | .ack => .isTrue trivial

/-! ### The counter along a run -/

/-- How the counter stands to the events since the last connection. -/
def Counts (num counted : Nat) : TrainerPhase → Prop
  | .idle | .cleared _ => 0 < counted → 0 < num
  | .observed n => n ≤ num ∧ (0 < counted → 0 < num)
  | .checked n _ => 0 < n ∧ n ≤ num
  | .connected n _ => n ≤ num ∧ (0 < counted → n < num)
  | .raised _ => True

/-- Only restarted engines can be unpublished. -/
def Recovery.Fits : Recovery → Prop
  | .restarted _ recovered unpublished => unpublished ≤ recovered
  | _ => True

structure Inv (s : ReconnectState) : Prop where
  noneLost : s.NoneLost
  counts : Counts s.manager.numNewEngines s.counted s.trainer
  fits : ∀ c ∈ s.recoveries, Recovery.Fits c

theorem init_inv (nodesPerEngine numEngines : Nat) : Inv (init nodesPerEngine numEngines) where
  noneLost := rfl
  counts := by
    simp [init, Counts, RolloutManager.init, initRolloutEngines, List.countP_replicate]
  fits := by simp [init]

/-- Marked events keep the counter ahead in every phase. -/
theorem counts_mark {num counted : Nat} {t : TrainerPhase} (k : Nat) (h : Counts num counted t) :
    Counts (num + k) (counted + k) t := by
  cases t <;> simp only [Counts] at h ⊢ <;> omega

/-- So does a recovery that covers the counter it overwrites. -/
theorem counts_publish {num counted recovered unpublished : Nat} {t : TrainerPhase}
    (h : Counts num counted t) (hle : unpublished ≤ recovered)
    (hc : Covers recovered unpublished counted t) :
    Counts recovered (counted + unpublished) t := by
  cases t <;> simp only [Counts, Covers] at h hc ⊢ <;> omega

theorem fits_set {l : List Recovery} {c : Recovery} (i : Nat) (hl : ∀ c ∈ l, Recovery.Fits c)
    (hc : Recovery.Fits c) : ∀ c' ∈ l.set i c, Recovery.Fits c' := by
  intro c' hm
  rcases List.mem_or_eq_of_mem_set hm with hm | rfl
  · exact hl c' hm
  · exact hc

theorem inv_scan {s s' : ReconnectState} (hs : Inv s) (h : s.next .scan = some s') : Inv s' := by
  unfold next at h
  dsimp only at h
  split at h
  · cases h
    exact hs
  · cases h
    refine ⟨hs.noneLost, hs.counts, ?_⟩
    intro c hc
    rcases List.mem_append.mp hc with hc | hc
    · exact hs.fits c hc
    · rw [List.mem_singleton.mp hc]
      trivial

theorem inv_restart {s s' : ReconnectState} {i : Nat} {spawn : Nat → Nat} (hs : Inv s)
    (h : s.next (.restart i spawn) = some s') : Inv s' := by
  unfold next at h
  dsimp only at h
  split at h
  · cases h
    exact ⟨hs.noneLost, hs.counts, fits_set i hs.fits (le_refl _)⟩
  · cases h

theorem inv_publish {s s' : ReconnectState} {i : Nat} (hs : Inv s) (hp : s.Published (.publish i))
    (h : s.next (.publish i) = some s') : Inv s' := by
  unfold next at h
  dsimp only at h
  split at h
  · rename_i dead recovered unpublished hi
    cases h
    simp only [Published, hi] at hp
    have hle : Recovery.Fits (.restarted dead recovered unpublished) :=
      hs.fits _ (List.mem_of_getElem? hi)
    exact ⟨hs.noneLost, counts_publish hs.counts hle hp, fits_set i hs.fits trivial⟩
  · cases h

/-- A trainer that reads zero has missed nothing. -/
theorem inv_read {s s' : ReconnectState} (hs : Inv s) (hp : s.Published .read)
    (h : s.next .read = some s') : Inv s' := by
  unfold next at h
  dsimp only at h
  split at h
  · rename_i ht
    have hc := hs.counts
    simp only [ht, Counts] at hc
    have hmissed : s.manager.numNewEngines = 0 → s.missed = 0 := by
      intro hz
      have hsum : (s.recoveries.map Recovery.unpublished).sum = 0 :=
        List.sum_eq_zero_iff_forall_eq_nat.mpr (by simpa using hp hz)
      unfold missed
      omega
    cases h
    refine ⟨?_, ⟨le_refl _, hc⟩, hs.fits⟩
    have hl : s.staleRead = false := hs.noneLost
    simp only [NoneLost, RolloutManager.getRolloutEngines, hl]
    by_cases hz : s.manager.numNewEngines = 0
    · simp [hz, hmissed hz]
    · simp [hz]
  · cases h

theorem inv_debugState {s s' : ReconnectState} (hs : Inv s) (h : s.next .debugState = some s') :
    Inv s' := by
  unfold next at h
  dsimp only at h
  split at h
  · rename_i n ht
    have hc := hs.counts
    simp only [ht, Counts] at hc
    split_ifs at h with hr hn
    · cases h
      exact ⟨hs.noneLost, trivial, hs.fits⟩
    · cases h
      exact ⟨hs.noneLost, ⟨hn, hc.1⟩, hs.fits⟩
    · cases h
      exact ⟨hs.noneLost, hc.2, hs.fits⟩
  · cases h

/-- A new connection covers all that happened before. -/
theorem inv_connect {s s' : ReconnectState} (hs : Inv s) (h : s.next .connect = some s') :
    Inv s' := by
  unfold next at h
  dsimp only at h
  split at h
  · rename_i n pending ht
    have hc := hs.counts
    simp only [ht, Counts] at hc
    cases h
    refine ⟨hs.noneLost, ⟨hc.2, by simp⟩, ?_⟩
    intro c hm
    obtain ⟨c₀, hm₀, rfl⟩ := List.mem_map.mp hm
    cases c₀ <;> simp [Recovery.connected, Recovery.Fits]
  · cases h

/-- What came after the connection stays in the counter. -/
theorem inv_clear {s s' : ReconnectState} (hs : Inv s) (h : s.next .clear = some s') : Inv s' := by
  unfold next at h
  dsimp only at h
  split at h
  · rename_i n pending ht
    have hc := hs.counts
    simp only [ht, Counts] at hc
    cases h
    refine ⟨hs.noneLost, ?_, hs.fits⟩
    simp only [Counts, RolloutManager.numNewEngines_clear]
    omega
  · cases h

theorem inv_ack {s s' : ReconnectState} (hs : Inv s) (h : s.next .ack = some s') : Inv s' := by
  unfold next at h
  dsimp only at h
  split at h
  · rename_i pending ht
    have hc := hs.counts
    simp only [ht, Counts] at hc
    cases h
    refine ⟨hs.noneLost, ?_, hs.fits⟩
    dsimp only
    split_ifs
    · exact hc
    · exact hc
  · cases h

theorem inv_next {s s' : ReconnectState} {a : ReconnectAction} (hs : Inv s) (hp : s.Published a)
    (h : s.next a = some s') : Inv s' := by
  cases a with
  | mark count reason =>
    cases h
    refine ⟨hs.noneLost, ?_, hs.fits⟩
    rw [RolloutManager.numNewEngines_mark]
    exact counts_mark count.toNat hs.counts
  | kill index =>
    cases h
    exact ⟨hs.noneLost, hs.counts, hs.fits⟩
  | generate rolloutId =>
    cases h
    exact ⟨hs.noneLost, hs.counts, hs.fits⟩
  | scan => exact inv_scan hs h
  | restart i spawn => exact inv_restart hs h
  | publish i => exact inv_publish hs hp h
  | read => exact inv_read hs hp h
  | debugState => exact inv_debugState hs h
  | connect => exact inv_connect hs h
  | clear => exact inv_clear hs h
  | ack => exact inv_ack hs h

/-- One round of the trainer. -/
def trainerRound : List ReconnectAction := [.read, .debugState, .connect, .clear, .ack]

/-- The `i`-th recovery, from its scan to its update of the counter. -/
def recoverRound (i : Nat) : List ReconnectAction := [.scan, .restart i id, .publish i]

/-- An engine is promoted while the trainer connects, and another one restarted
after it has finished. -/
def quietRun : List ReconnectAction :=
  [.read, .debugState, .mark 1 "shadow handover", .connect, .clear, .ack] ++ trainerRound ++
    [.generate 0, .kill 0] ++ recoverRound 0 ++ trainerRound

/-- The health monitor restarts an engine between the trainer's connection and its
acknowledgement of another one. -/
def racingRun : List ReconnectAction :=
  trainerRound ++ [.generate 0, .kill 0] ++ recoverRound 0 ++ [.read, .debugState, .connect] ++
    [.kill 1] ++ recoverRound 1 ++ [.clear, .ack, .read]

end ReconnectState

end Belayer.Rollout
