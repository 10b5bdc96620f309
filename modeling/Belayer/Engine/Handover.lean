import Belayer.Engine.SGLangEngine
import Belayer.Framework.Run

namespace Belayer.Engine

open Belayer.Framework Belayer.Router

namespace SGLangEngine

/-- A launched engine, with a shadow worker unless fast restart is off. -/
def launch (e : SGLangEngine) (pid : Nat) (args : ServerArgs) (shadow : Option ServerArgs) :
    SGLangEngine :=
  { e with
    process := some ⟨pid, true⟩
    shadowWorker := shadow.map fun _ => ⟨pid + 1, true⟩
    serverArgs := some args
    shadowServerArgs := shadow
    serverHost := args.host
    serverPort := args.port
    shadowWorkerEnabled := shadow.isSome
    shadowFailoverStopEvent := false
    pendingShadowHandoverReconnect := false
    pendingShadowHandoverReason := none }

end SGLangEngine

/-- A promotion request in flight: the process whose failure triggered it, and
when that failure was seen. -/
structure HandoverRequest where
  observedPid : Option Nat
  time : Nat
  deriving DecidableEq

namespace HandoverRequest

/-- The active process is a shadow that was promoted after the failure behind the
request. -/
def PromotedAfter (q : HandoverRequest) (promotedAt : Option Nat) : Prop :=
  ∃ t ∈ promotedAt, q.time < t

instance (q : HandoverRequest) (promotedAt : Option Nat) :
    Decidable (q.PromotedAfter promotedAt) :=
  inferInstanceAs (Decidable (∃ t ∈ promotedAt, q.time < t))

/-- The request does not come from a failure of the process whose own promotion
is still to be consumed. -/
def OtherFailed (q : HandoverRequest) (e : SGLangEngine) : Prop :=
  e.pendingShadowHandoverReconnect → q.observedPid ≠ e.activePid

instance (q : HandoverRequest) (e : SGLangEngine) : Decidable (q.OtherFailed e) :=
  inferInstanceAs (Decidable (_ → _ ≠ _))

def watcherReason (q : HandoverRequest) : String :=
  "shadow failover watcher detected primary process exit pid=" ++
    (q.observedPid.map toString).getD "None"

end HandoverRequest

/-- One engine with its watcher thread and the health monitor. `clock`,
`promotedAt` and `untruthful` record the history: when the active process was
promoted, if it is a shadow that was, and whether a request has reported success
with an active process that was not promoted after the failure behind it. -/
structure HandoverState where
  engine : SGLangEngine
  router : SlimeRouter
  watcherRunning : Bool
  watcherRequest : Option HandoverRequest
  failureThreshold : Nat
  consecutiveFailures : Nat
  monitorRequest : Option HandoverRequest
  mustRestart : Bool
  clock : Nat
  promotedAt : Option Nat
  untruthful : Bool

/-- What the outside world does to one promotion: the answers of the shadow's
health endpoint and of the router. -/
structure PromotionEnv where
  probes : List (Option Nat)
  register : HttpOutcome
  unregister : HttpOutcome

inductive HandoverAction where
  | crash
  | crashShadow
  | watcherDetect
  | watcherPromote (env : PromotionEnv)
  | healthCheck (healthy : Bool)
  | monitorPromote (env : PromotionEnv)
  | consume
  | restart (pid : Nat) (args : ServerArgs) (shadow : Option ServerArgs)

namespace HandoverState

/-- A launched engine whose monitor has not checked it yet. -/
def init (e : SGLangEngine) (pid : Nat) (args : ServerArgs) (shadow : Option ServerArgs)
    (failureThreshold : Nat) : HandoverState :=
  ⟨e.launch pid args shadow, .init, true, none, failureThreshold, 0, none, false, 0, none, false⟩

/-- The failure that is seen now. -/
def observe (s : HandoverState) : HandoverRequest := ⟨s.engine.activePid, s.clock⟩

/-- Run the promotion and keep the record. -/
def promote (s : HandoverState) (reason : String) (env : PromotionEnv) :
    HandoverState × Except EngineError Bool :=
  let (e, r, reply) :=
    s.engine.promoteShadowWorkerImpl s.router reason env.probes env.register env.unregister
  let promoted := !s.engine.pendingShadowHandoverReconnect && decide (reply = .ok true)
  ({ s with
      engine := e
      router := r
      clock := s.clock + 1
      promotedAt := if promoted then some s.clock else s.promotedAt }, reply)

/-- Note a success that is not true. -/
def note (s : HandoverState) (q : HandoverRequest) (reply : Except EngineError Bool) :
    HandoverState :=
  { s with
    untruthful := s.untruthful || (decide (reply = .ok true) && !decide (q.PromotedAfter s.promotedAt)) }

/-- A failed health check; at the threshold the monitor asks for a handover. -/
def failCheck (s : HandoverState) : HandoverState :=
  let failures := s.consecutiveFailures + 1
  { s with
    consecutiveFailures := failures
    monitorRequest := if failures < s.failureThreshold then none else some s.observe
    clock := s.clock + 1 }

/-- One step of the system. The watcher runs while its engine is up; a promotion
that raises ends its thread. A request of the monitor that does not report success
makes it kill and restart the engine. -/
def next (s : HandoverState) : HandoverAction → Option HandoverState
  | .crash => some { s with engine := s.engine.crash }
  | .crashShadow => some { s with engine := s.engine.crashShadow }
  | .watcherDetect =>
    if s.watcherRunning ∧ s.watcherRequest = none ∧ ¬s.engine.shadowFailoverStopEvent ∧
        s.engine.primaryDead then
      some { s with watcherRequest := some s.observe, clock := s.clock + 1 }
    else none
  | .watcherPromote env =>
    match s.watcherRequest with
    | none => none
    | some q =>
      let (s', reply) := s.promote q.watcherReason env
      some { s'.note q reply with
        watcherRequest := none
        watcherRunning := reply.isOk }
  | .healthCheck healthy =>
    if s.monitorRequest ≠ none ∨ s.mustRestart then none
    else if healthy then
      if s.engine.process.any (·.alive) then some { s with consecutiveFailures := 0 } else none
    else some s.failCheck
  | .monitorPromote env =>
    match s.monitorRequest with
    | none => none
    | some q =>
      let (s', reply) := s.promote "explicit promote_shadow_worker call" env
      some { s'.note q reply with
        monitorRequest := none
        consecutiveFailures := if reply = .ok true then 0 else s.consecutiveFailures
        mustRestart := decide (reply ≠ .ok true) }
  | .consume => some { s with engine := s.engine.consumeShadowHandoverReconnectEvent.1 }
  | .restart pid args shadow =>
    if s.mustRestart then
      some { s with
        engine := s.engine.launch pid args shadow
        watcherRunning := true
        watcherRequest := none
        consecutiveFailures := 0
        mustRestart := false
        promotedAt := none }
    else none

/-- No request has reported success without a promotion after its failure. -/
def Truthful (s : HandoverState) : Prop := s.untruthful = false

instance (s : HandoverState) : Decidable s.Truthful := inferInstanceAs (Decidable (_ = _))

def Fresh (s : HandoverState) : HandoverAction → Prop
  | .watcherPromote _ => ∀ q ∈ s.watcherRequest, q.OtherFailed s.engine
  | .monitorPromote _ => ∀ q ∈ s.monitorRequest, q.OtherFailed s.engine
  | _ => True

instance (s : HandoverState) : ∀ a, Decidable (s.Fresh a)
  | .watcherPromote _ => inferInstanceAs (Decidable (∀ q ∈ s.watcherRequest, _))
  | .monitorPromote _ => inferInstanceAs (Decidable (∀ q ∈ s.monitorRequest, _))
  | .crash | .crashShadow | .watcherDetect | .healthCheck _ | .consume | .restart _ _ _ =>
    .isTrue trivial

end HandoverState

/-! ### Requests and the process that is active -/

/-- The process behind a request is still active and older than the request, or
was replaced by a promotion since. -/
structure Tracks (e : SGLangEngine) (clock : Nat) (promotedAt : Option Nat)
    (q : HandoverRequest) : Prop where
  time : q.time < clock
  same : q.observedPid = e.activePid → ∀ t ∈ promotedAt, t < q.time
  other : q.observedPid ≠ e.activePid → q.PromotedAfter promotedAt
  notShadow : ∀ p ∈ e.shadowWorker, q.observedPid ≠ some p.pid

theorem Tracks.tick {e : SGLangEngine} {clock : Nat} {promotedAt : Option Nat}
    {q : HandoverRequest} (hq : Tracks e clock promotedAt q) : Tracks e (clock + 1) promotedAt q :=
  ⟨Nat.lt_succ_of_lt hq.time, hq.same, hq.other, hq.notShadow⟩

/-- A promotion leaves every process of an earlier request behind. -/
theorem Tracks.adoptShadow {e : SGLangEngine} {clock : Nat} {promotedAt : Option Nat}
    {q : HandoverRequest} (hq : Tracks e clock promotedAt q) (hs : e.shadowWorker.isSome)
    (args : ServerArgs) (reason : String) :
    Tracks (e.adoptShadow args reason) (clock + 1) (some clock) q := by
  obtain ⟨p, hp⟩ := Option.isSome_iff_exists.mp hs
  have hactive : (e.adoptShadow args reason).activePid = some p.pid := by
    simp [SGLangEngine.adoptShadow, SGLangEngine.activePid, hp]
  refine ⟨Nat.lt_succ_of_lt hq.time, ?_, fun _ => ⟨clock, rfl, hq.time⟩,
    by simp [SGLangEngine.adoptShadow]⟩
  intro hsame
  exact absurd (hsame.trans hactive) (hq.notShadow p hp)

theorem Tracks.crash {e : SGLangEngine} {clock : Nat} {promotedAt : Option Nat}
    {q : HandoverRequest} (hq : Tracks e clock promotedAt q) :
    Tracks e.crash clock promotedAt q where
  time := hq.time
  same h := hq.same (h.trans (SGLangEngine.activePid_crash e))
  other h := hq.other (by rwa [SGLangEngine.activePid_crash] at h)
  notShadow := hq.notShadow

theorem pid_crashShadow {e : SGLangEngine} {p : Process} (hp : p ∈ e.crashShadow.shadowWorker) :
    ∃ p₀ ∈ e.shadowWorker, p.pid = p₀.pid := by
  obtain ⟨p₀, hp₀, rfl⟩ := Option.map_eq_some_iff.mp hp
  exact ⟨p₀, hp₀, rfl⟩

theorem Tracks.crashShadow {e : SGLangEngine} {clock : Nat} {promotedAt : Option Nat}
    {q : HandoverRequest} (hq : Tracks e clock promotedAt q) :
    Tracks e.crashShadow clock promotedAt q where
  time := hq.time
  same := hq.same
  other := hq.other
  notShadow p hp := by
    obtain ⟨p₀, hp₀, he⟩ := pid_crashShadow hp
    rw [he]
    exact hq.notShadow p₀ hp₀

namespace HandoverState

structure Inv (s : HandoverState) : Prop where
  promoted : ∀ t ∈ s.promotedAt, t < s.clock
  pending : s.engine.pendingShadowHandoverReconnect → s.promotedAt.isSome
  shadow : ∀ p ∈ s.engine.shadowWorker, s.engine.activePid ≠ some p.pid
  watcher : ∀ q ∈ s.watcherRequest, Tracks s.engine s.clock s.promotedAt q
  monitor : ∀ q ∈ s.monitorRequest, Tracks s.engine s.clock s.promotedAt q
  restart : s.mustRestart → s.monitorRequest = none

theorem init_inv (e : SGLangEngine) (pid : Nat) (args : ServerArgs) (shadow : Option ServerArgs)
    (failureThreshold : Nat) : Inv (init e pid args shadow failureThreshold) where
  promoted := by simp [init]
  pending := by simp [init, SGLangEngine.launch]
  shadow := by simp [init, SGLangEngine.launch, SGLangEngine.activePid]
  watcher := by simp [init]
  monitor := by simp [init]
  restart := by simp [init]

theorem promote_cases (s : HandoverState) (reason : String) (env : PromotionEnv) :
    (s.engine.pendingShadowHandoverReconnect = true ∧
      s.promote reason env = ({ s with clock := s.clock + 1 }, .ok true)) ∨
    (s.engine.pendingShadowHandoverReconnect = false ∧ ∃ r reply, reply ≠ .ok true ∧
      s.promote reason env = ({ s with router := r, clock := s.clock + 1 }, reply)) ∨
    (s.engine.pendingShadowHandoverReconnect = false ∧ ∃ r args, s.engine.shadowWorker.isSome ∧
      s.promote reason env =
        ({ s with
            engine := s.engine.adoptShadow args reason
            router := r
            clock := s.clock + 1
            promotedAt := some s.clock }, .ok true)) := by
  unfold promote
  rcases s.engine.promoteShadowWorkerImpl_cases s.router reason env.probes env.register
    env.unregister with ⟨hp, he⟩ | ⟨hp, r, reply, hr, he⟩ | ⟨hp, r, args, hs, he⟩
  · refine .inl ⟨hp, ?_⟩
    rw [he]
    simp [hp]
  · refine .inr (.inl ⟨hp, r, reply, hr, ?_⟩)
    rw [he]
    simp [hr]
  · refine .inr (.inr ⟨hp, r, args, hs, ?_⟩)
    rw [he]
    simp [hp]

theorem inv_promote {s : HandoverState} (hs : Inv s) (reason : String) (env : PromotionEnv) :
    Inv (s.promote reason env).1 := by
  have hlt : ∀ t ∈ s.promotedAt, t < s.clock + 1 := fun t ht => Nat.lt_succ_of_lt (hs.promoted t ht)
  rcases s.promote_cases reason env with ⟨-, he⟩ | ⟨-, r, reply, -, he⟩ | ⟨-, r, args, hsome, he⟩
  · rw [he]
    exact ⟨hlt, hs.pending, hs.shadow, fun q hq => (hs.watcher q hq).tick,
      fun q hq => (hs.monitor q hq).tick, hs.restart⟩
  · rw [he]
    exact ⟨hlt, hs.pending, hs.shadow, fun q hq => (hs.watcher q hq).tick,
      fun q hq => (hs.monitor q hq).tick, hs.restart⟩
  · rw [he]
    exact ⟨by simp, by simp, by simp [SGLangEngine.adoptShadow],
      fun q hq => (hs.watcher q hq).adoptShadow hsome args reason,
      fun q hq => (hs.monitor q hq).adoptShadow hsome args reason, hs.restart⟩

theorem truthful_note (s : HandoverState) (q : HandoverRequest) (reply : Except EngineError Bool) :
    (s.note q reply).Truthful ↔
      s.Truthful ∧ (reply = .ok true → q.PromotedAfter s.promotedAt) := by
  simp [Truthful, note]

/-- A success is true exactly when the request comes from another process than
the one whose promotion is still to be consumed. -/
theorem truthful_promote_iff {s : HandoverState} {q : HandoverRequest} (ht : s.Truthful)
    (hq : Tracks s.engine s.clock s.promotedAt q) (reason : String) (env : PromotionEnv) :
    ((s.promote reason env).1.note q (s.promote reason env).2).Truthful ↔
      q.OtherFailed s.engine := by
  rw [truthful_note]
  rcases s.promote_cases reason env with ⟨hp, he⟩ | ⟨hp, r, reply, hr, he⟩ | ⟨hp, r, args, -, he⟩
  · rw [he]
    constructor
    · intro hx _ hsame
      obtain ⟨-, hafter⟩ := hx
      obtain ⟨t, htp, hlt⟩ := hafter rfl
      exact absurd (hq.same hsame t htp) (by omega)
    · intro ho
      exact ⟨ht, fun _ => hq.other (ho hp)⟩
  · rw [he]
    constructor
    · intro _ hpend
      exact absurd (hp.symm.trans hpend) (by simp)
    · intro _
      exact ⟨ht, fun hok => absurd hok hr⟩
  · rw [he]
    constructor
    · intro _ hpend
      exact absurd (hp.symm.trans hpend) (by simp)
    · intro _
      exact ⟨ht, fun _ => ⟨s.clock, rfl, hq.time⟩⟩

/-! ### Runs -/

/-- The failure that is seen now is one of the active process. -/
theorem tracks_observe {s : HandoverState} (hs : Inv s) :
    Tracks s.engine (s.clock + 1) s.promotedAt s.observe where
  time := Nat.lt_succ_self _
  same _ := hs.promoted
  other h := absurd rfl h
  notShadow := hs.shadow

theorem inv_failCheck {s : HandoverState} (hs : Inv s) (hr : s.mustRestart = false) :
    Inv s.failCheck where
  promoted t ht := Nat.lt_succ_of_lt (hs.promoted t ht)
  pending := hs.pending
  shadow := hs.shadow
  watcher q hq := (hs.watcher q hq).tick
  monitor q hq := by
    simp only [failCheck] at hq
    split_ifs at hq
    · cases hq
    · rw [← Option.some.inj hq]
      exact tracks_observe hs
  restart h := by
    have hm : s.mustRestart = true := h
    rw [hr] at hm
    cases hm

theorem inv_crashShadow {s : HandoverState} (hs : Inv s) :
    Inv { s with engine := s.engine.crashShadow } where
  promoted := hs.promoted
  pending := hs.pending
  shadow p hp := by
    obtain ⟨p₀, hp₀, he⟩ := pid_crashShadow hp
    rw [he]
    exact hs.shadow p₀ hp₀
  watcher q hq := (hs.watcher q hq).crashShadow
  monitor q hq := (hs.monitor q hq).crashShadow
  restart := hs.restart

/-- Every step keeps the invariant, and it keeps the successes true exactly when
it is fresh. -/
theorem inv_next {s s' : HandoverState} {a : HandoverAction} (hs : Inv s)
    (h : s.next a = some s') : Inv s' ∧ (s.Truthful → (s'.Truthful ↔ s.Fresh a)) := by
  have keep (hi : Inv s') (hu : s'.untruthful = s.untruthful) (hf : s.Fresh a) :
      Inv s' ∧ (s.Truthful → (s'.Truthful ↔ s.Fresh a)) :=
    ⟨hi, fun ht => ⟨fun _ => hf, fun _ => hu.trans ht⟩⟩
  cases a with
  | crash =>
    cases h
    refine keep ⟨hs.promoted, hs.pending, ?_, fun q hq => (hs.watcher q hq).crash,
      fun q hq => (hs.monitor q hq).crash, hs.restart⟩ rfl trivial
    intro p hp
    rw [SGLangEngine.activePid_crash]
    exact hs.shadow p hp
  | crashShadow =>
    cases h
    exact keep (inv_crashShadow hs) rfl trivial
  | watcherDetect =>
    simp only [next] at h
    split_ifs at h
    cases h
    refine keep ⟨fun t ht => Nat.lt_succ_of_lt (hs.promoted t ht), hs.pending, hs.shadow, ?_,
      fun q hq => (hs.monitor q hq).tick, hs.restart⟩ rfl trivial
    intro q he
    cases he
    exact tracks_observe hs
  | watcherPromote env =>
    simp only [next] at h
    split at h
    · cases h
    · rename_i q hq
      have hp := inv_promote hs q.watcherReason env
      cases h
      refine ⟨⟨hp.promoted, hp.pending, hp.shadow, by simp, hp.monitor, hp.restart⟩, ?_⟩
      intro ht
      refine (truthful_promote_iff ht (hs.watcher q hq) q.watcherReason env).trans ?_
      simp [Fresh, hq]
  | healthCheck healthy =>
    simp only [next] at h
    split_ifs at h with hb hh ha
    · cases h
      exact keep ⟨hs.promoted, hs.pending, hs.shadow, hs.watcher, hs.monitor, hs.restart⟩ rfl
        trivial
    · cases h
      rw [not_or] at hb
      exact keep (inv_failCheck hs (by simpa using hb.2)) rfl trivial
  | monitorPromote env =>
    simp only [next] at h
    split at h
    · cases h
    · rename_i q hq
      have hp := inv_promote hs "explicit promote_shadow_worker call" env
      cases h
      refine ⟨⟨hp.promoted, hp.pending, hp.shadow, hp.watcher, by simp, by simp⟩, ?_⟩
      intro ht
      refine (truthful_promote_iff ht (hs.monitor q hq) "explicit promote_shadow_worker call"
        env).trans ?_
      simp [Fresh, hq]
  | consume =>
    cases h
    have htracks : ∀ q, Tracks s.engine s.clock s.promotedAt q →
        Tracks s.engine.consumeShadowHandoverReconnectEvent.1 s.clock s.promotedAt q :=
      fun q hq => ⟨hq.time, hq.same, hq.other, hq.notShadow⟩
    exact keep ⟨hs.promoted, by simp [SGLangEngine.consumeShadowHandoverReconnectEvent], hs.shadow,
      fun q hq => htracks q (hs.watcher q hq), fun q hq => htracks q (hs.monitor q hq),
      hs.restart⟩ rfl trivial
  | restart pid args shadow =>
    simp only [next] at h
    split_ifs at h with hm
    cases h
    refine keep ⟨by simp, by simp [SGLangEngine.launch],
      by simp [SGLangEngine.launch, SGLangEngine.activePid], by simp, ?_, by simp⟩ rfl trivial
    rw [hs.restart hm]
    simp

/-- Over any run, every success that a promotion request reports is true iff no
request comes from a failure of the process whose own promotion is still to be
consumed. -/
theorem success_truthful_iff (e : SGLangEngine) (pid : Nat) (args : ServerArgs)
    (shadow : Option ServerArgs) (failureThreshold : Nat) (run : List HandoverAction) :
    Along next Truthful (init e pid args shadow failureThreshold) run ↔
      Meets next Fresh (init e pid args shadow failureThreshold) run :=
  along_iff_meets (H := fun _ _ => True) (fun _ _ _ hs _ h => (inv_next hs h).1)
    (fun _ _ _ hs ht _ h => (inv_next hs h).2 ht) (init_inv e pid args shadow failureThreshold) rfl
    (meets_of_forall (fun _ _ => trivial) _ run)

/-- An engine with a shadow worker, before its launch. -/
def idleEngine : SGLangEngine :=
  ⟨0, 0, "regular", some "r", some 8000, false, none, none, none, none, "h", 31000, false, false,
    false, none⟩

/-- The primary dies and the watcher promotes the shadow; the promoted process dies
too, before the event of its promotion is consumed. -/
def secondCrashRun : List HandoverAction :=
  [.crash, .watcherDetect, .watcherPromote ⟨[some 200], .ok, .ok⟩, .crash, .healthCheck false,
    .healthCheck false, .monitorPromote ⟨[], .ok, .ok⟩]

/-- The request of the monitor reports the first promotion as its success. -/
theorem secondCrashRun_untruthful :
    ¬Along next Truthful (init idleEngine 1 ⟨"h", 31000⟩ (some ⟨"h", 41000⟩) 2) secondCrashRun := by
  intro h
  exact absurd (h.last rfl) (by decide)

end HandoverState

end Belayer.Engine
