import Belayer.Router.Recovery

namespace Belayer.Router

open Belayer.Framework

/-- What other requests and the engines call on the router. -/
inductive RouterCall where
  | registry (c : RegistryCall)
  | useUrl (excludeWorkers : List String)
  | reserveUrl (url : String)
  | finishUrl (url : String) (seq : Nat)
  | recordFailure (url : String)

/-- A call that raises leaves the router as it is. -/
def RouterCall.apply (r : SlimeRouter) : RouterCall → SlimeRouter
  | .registry c => c.apply r
  | .useUrl excludeWorkers =>
    match r.useUrl excludeWorkers with
    | .error _ => r
    | .ok (r', _, _) => r'
  | .reserveUrl url =>
    match r.reserveUrl url with
    | .error _ => r
    | .ok (r', _) => r'
  | .finishUrl url seq => (r.finishUrl url (some seq)).1
  | .recordFailure url => r.recordFailure url

def RouterCall.addedKey : RouterCall → Option String
  | .registry c => c.added.map Prod.snd
  | _ => none

/-- The streaming and the non-streaming proxy loop differ in where they compare
the request's worker with the registry, and in their last attempt. -/
structure ProxyConfig where
  stream : Bool
  generateRecoveryMaxAttempts : Nat
  rerouteFailedRequestsToHealthyWorkers : Bool
  timed : Bool

/-- A worker that a request failed on, with the number its key had then. -/
structure FailedWorker where
  url : String
  key : String
  seq : Nat
  deriving DecidableEq

inductive ProxyPhase where
  | starting
  | sent
  | waiting (w : RecoveryWait)
  | ended
  deriving DecidableEq

/-- The locals of a proxy loop. `reservedKey`, `failure`, `left` and `bounced`
record the history: the key of the reserved worker, the failure being handled,
the failed workers the request was moved away from, and whether it was sent to
one of these again. -/
structure ProxiedRequest where
  workerKey : String
  url : String
  seq : Nat
  recoveryAttempt : Nat
  phase : ProxyPhase
  reservedKey : String
  failure : Option FailedWorker
  left : List FailedWorker
  bounced : Bool

namespace ProxiedRequest

/-- The request has left the url after a failure, and the key of that worker has
not registered since. -/
def Shuns (q : ProxiedRequest) (r : SlimeRouter) (url : String) : Prop :=
  ∃ f ∈ q.left, f.url = url ∧ r.seqByKey f.key ≤ f.seq

instance (q : ProxiedRequest) (r : SlimeRouter) (url : String) : Decidable (q.Shuns r url) :=
  inferInstanceAs (Decidable (∃ f ∈ q.left, _))

/-- The url of the request's worker key, where it is another one than `url`. -/
def switchedFrom (q : ProxiedRequest) (r : SlimeRouter) (url : String) : Option String :=
  (truthy (r.workerUrlsByKey.lookup q.workerKey)).filter (· ≠ url)

/-- The request is over; its reservation is finished. -/
def finish (q : ProxiedRequest) (r : SlimeRouter) : SlimeRouter × ProxiedRequest :=
  ((r.finishUrl q.url (some q.seq)).1, { q with phase := .ended })

def send (q : ProxiedRequest) (r : SlimeRouter) : ProxiedRequest :=
  { q with phase := .sent, bounced := q.bounced || decide (q.Shuns r q.url) }

/-- The failed workers a request has left once it is moved to the url. -/
def leftFor (q : ProxiedRequest) (url : String) : List FailedWorker :=
  (q.failure.filter (·.url ≠ url)).toList ++ q.left

/-- Reserve the url for the next attempt and finish the old reservation. Only the
url and its number move on; the worker key stays. -/
def moveTo (cfg : ProxyConfig) (q : ProxiedRequest) (r : SlimeRouter) (url : String) :
    SlimeRouter × ProxiedRequest :=
  match r.reserveUrl url with
  | .error _ => q.finish r
  | .ok (r', seq) =>
    ((r'.finishUrl q.url (some q.seq)).1,
      { q with
        url := url
        seq := seq
        recoveryAttempt := q.recoveryAttempt + 1
        phase := if q.recoveryAttempt < cfg.generateRecoveryMaxAttempts then .starting else .ended
        reservedKey := Dict.getD r'.workerKeysByUrl url url
        failure := none
        left := q.leftFor url })

/-- The worker that rerouting selects for a request that failed on the url. -/
def healthyWorker (cfg : ProxyConfig) (r : SlimeRouter) (failedUrl : String) :
    Option (String × SlimeRouter) :=
  if cfg.rerouteFailedRequestsToHealthyWorkers then
    match r.selectLeastLoadedWorkerUrl [failedUrl] with
    | .error _ => none
    | .ok p => some p
  else none

/-- `_resolve_failed_worker_url`, and the move to the url that it finds. -/
def resolve (cfg : ProxyConfig) (q : ProxiedRequest) (r : SlimeRouter) :
    SlimeRouter × ProxiedRequest :=
  match healthyWorker cfg r q.url with
  | some (url, r') => q.moveTo cfg r' url
  | none =>
    let (r', w) := r.startRecoveryWait q.workerKey q.url
    (r', { q with phase := .waiting w })

/-- The start of an attempt. The streaming loop sends at once, the non-streaming
one first compares the worker with the registry. -/
def startAttempt (cfg : ProxyConfig) (q : ProxiedRequest) (r : SlimeRouter) :
    SlimeRouter × ProxiedRequest :=
  if cfg.stream then (r, q.send r)
  else
    match q.switchedFrom r q.url with
    | some url => q.moveTo cfg r url
    | none => if q.url ∉ r.workerRequestCounts then q.resolve cfg r else (r, q.send r)

/-- The top of the streaming loop. -/
def pollStream (cfg : ProxyConfig) (q : ProxiedRequest) (r : SlimeRouter) :
    SlimeRouter × ProxiedRequest :=
  match q.switchedFrom r q.url with
  | some url =>
    if cfg.generateRecoveryMaxAttempts ≤ q.recoveryAttempt then q.finish r else q.moveTo cfg r url
  | none =>
    if q.url ∉ r.workerRequestCounts then
      if cfg.generateRecoveryMaxAttempts ≤ q.recoveryAttempt then q.finish r else q.resolve cfg r
    else (r, q)

/-- The handler of a failed attempt. -/
def fail (cfg : ProxyConfig) (q : ProxiedRequest) (r : SlimeRouter) :
    SlimeRouter × ProxiedRequest :=
  let r' := r.recordFailure q.url
  if cfg.generateRecoveryMaxAttempts ≤ q.recoveryAttempt then q.finish r'
  else
    { q with failure := some ⟨q.url, q.reservedKey, r.seqByKey q.reservedKey⟩ }.resolve cfg r'

/-- One iteration of the recovery wait. -/
def checkRecovery (cfg : ProxyConfig) (q : ProxiedRequest) (w : RecoveryWait) (expired : Bool)
    (r : SlimeRouter) : SlimeRouter × ProxiedRequest :=
  match w.check cfg.timed expired r with
  | (r', .recovered url) => q.moveTo cfg r' url
  | (r', .timedOut) => q.finish r'
  | (r', .waiting w') => (r', { q with phase := .waiting w' })

end ProxiedRequest

/-- What the request's own task does next. -/
inductive ProxyStep where
  | startAttempt
  | pollStream
  | fail
  | respond
  | check (expired : Bool)
  | wake
  | timeout

namespace ProxiedRequest

def next (cfg : ProxyConfig) (q : ProxiedRequest) (r : SlimeRouter) :
    ProxyStep → Option (SlimeRouter × ProxiedRequest)
  | .startAttempt => if q.phase = .starting then some (q.startAttempt cfg r) else none
  | .pollStream => if cfg.stream ∧ q.phase = .sent then some (q.pollStream cfg r) else none
  | .fail => if q.phase = .sent then some (q.fail cfg r) else none
  | .respond => if q.phase = .sent then some (q.finish r) else none
  | .check expired =>
    match q.phase with
    | .waiting w => if w.task = .running then some (q.checkRecovery cfg w expired r) else none
    | _ => none
  | .wake =>
    match q.phase with
    | .waiting w =>
      if w.task = .notified then
        some (r.clearRecoveryEvent w.workerKey,
          { q with phase := .waiting { w with task := .running } })
      else none
    | _ => none
  | .timeout =>
    match q.phase with
    | .waiting w =>
      if cfg.timed ∧ w.task = .parked then
        some (r, { q with phase := .waiting { w with task := .running } })
      else none
    | _ => none

def notify (q : ProxiedRequest) (key : String) : ProxiedRequest :=
  match q.phase with
  | .waiting w => { q with phase := .waiting (w.notify key) }
  | _ => q

/-- After a move to the url, the next attempt is made and sends to it. -/
def Reaches (cfg : ProxyConfig) (q : ProxiedRequest) (r : SlimeRouter) (url : String) : Prop :=
  q.recoveryAttempt < cfg.generateRecoveryMaxAttempts ∧
    (cfg.stream ∨ q.switchedFrom r url = none)

/-- A move to the url does not lead back to a worker the request has left. -/
def Harmless (cfg : ProxyConfig) (q : ProxiedRequest) (r : SlimeRouter) (url : String) : Prop :=
  q.Reaches cfg r url → ¬q.Shuns r url

instance (cfg : ProxyConfig) (q : ProxiedRequest) (r : SlimeRouter) (url : String) :
    Decidable (q.Harmless cfg r url) :=
  inferInstanceAs (Decidable (_ ∧ _ → ¬_))

/-- The url the registry has for the request's key is harmless, and so is the
worker that rerouting selects in place of a worker that was removed. -/
def SwitchHarmless (cfg : ProxyConfig) (q : ProxiedRequest) (r : SlimeRouter) : Prop :=
  (∀ url ∈ q.switchedFrom r q.url, q.Harmless cfg r url) ∧
    (q.switchedFrom r q.url = none → q.url ∉ r.workerRequestCounts →
      ∀ p ∈ healthyWorker cfg r q.url, q.Harmless cfg r p.1)

instance (cfg : ProxyConfig) (q : ProxiedRequest) (r : SlimeRouter) :
    Decidable (q.SwitchHarmless cfg r) :=
  inferInstanceAs (Decidable (_ ∧ (_ → _ → ∀ p ∈ healthyWorker cfg r q.url, _)))

/-- The url a recovery wait would accept now. -/
def recoveredUrl (q : ProxiedRequest) (r : SlimeRouter) : Option String :=
  match q.phase with
  | .waiting w => w.recovered r
  | _ => none

/-- The step moves the request to no worker that it has left after a failure. -/
def Avoids (cfg : ProxyConfig) (q : ProxiedRequest) (r : SlimeRouter) : ProxyStep → Prop
  | .startAttempt => cfg.stream = false → q.SwitchHarmless cfg r
  | .pollStream => q.SwitchHarmless cfg r
  | .fail => ∀ p ∈ healthyWorker cfg (r.recordFailure q.url) q.url, q.Harmless cfg r p.1
  | .check _ => ∀ url ∈ q.recoveredUrl r, q.Harmless cfg r url
  | _ => True

instance (cfg : ProxyConfig) (q : ProxiedRequest) (r : SlimeRouter) :
    ∀ a, Decidable (q.Avoids cfg r a)
  | .startAttempt => inferInstanceAs (Decidable (_ → q.SwitchHarmless cfg r))
  | .pollStream => inferInstanceAs (Decidable (q.SwitchHarmless cfg r))
  | .fail => inferInstanceAs (Decidable (∀ p ∈ healthyWorker cfg _ _, q.Harmless cfg r p.1))
  | .check _ => inferInstanceAs (Decidable (∀ url ∈ q.recoveredUrl r, q.Harmless cfg r url))
  | .respond | .wake | .timeout => .isTrue trivial

end ProxiedRequest

/-- The router with one proxied request, which arrives at some point. -/
structure ProxyState where
  router : SlimeRouter
  request : Option ProxiedRequest

inductive ProxyAction where
  | call (c : RouterCall)
  | arrive
  | task (a : ProxyStep)

namespace ProxyState

def init : ProxyState := ⟨.init, none⟩

/-- Other calls are served only while the request's task awaits something, which
it does not between two attempts. -/
def next (cfg : ProxyConfig) (s : ProxyState) : ProxyAction → Option ProxyState
  | .call c =>
    if s.request.any (·.phase = .starting) then none
    else
      some
        { router := c.apply s.router
          request :=
            match c.addedKey with
            | none => s.request
            | some key => s.request.map (·.notify key) }
  | .arrive =>
    if s.request.isSome then none
    else
      match s.router.useUrl [] with
      | .error _ => none
      | .ok (r, url, seq) =>
        let workerKey := Dict.getD r.workerKeysByUrl url url
        some ⟨r, some ⟨workerKey, url, seq, 0, .starting, workerKey, none, [], false⟩⟩
  | .task a =>
    match s.request with
    | none => none
    | some q =>
      match q.next cfg s.router a with
      | none => none
      | some (r, q') => some ⟨r, some q'⟩

/-- The request has not been sent to a worker it had left after a failure on it,
unless that worker's key had registered again. -/
def StaysAway (s : ProxyState) : Prop := ∀ q ∈ s.request, q.bounced = false

instance (s : ProxyState) : Decidable s.StaysAway :=
  inferInstanceAs (Decidable (∀ q ∈ s.request, _))

def Avoids (cfg : ProxyConfig) (s : ProxyState) : ProxyAction → Prop
  | .task a => ∀ q ∈ s.request, q.Avoids cfg s.router a
  | _ => True

instance (cfg : ProxyConfig) (s : ProxyState) : ∀ a, Decidable (s.Avoids cfg a)
  | .task _ => inferInstanceAs (Decidable (∀ q ∈ s.request, _))
  | .call _ | .arrive => .isTrue trivial

end ProxyState

/-! ### What one step of the request does -/

namespace ProxiedRequest

open Request (SameKeys sameKeys_finishUrl sameKeys_check sameKeys_startRecoveryWait)

variable {cfg : ProxyConfig} {q : ProxiedRequest} {r r' : SlimeRouter}

/-- The request was never sent back, and the attempt that it starts will not send
it back either. -/
structure Clear (cfg : ProxyConfig) (r : SlimeRouter) (q : ProxiedRequest) : Prop where
  bounced : q.bounced = false
  ahead : q.phase = .starting → (cfg.stream ∨ q.switchedFrom r q.url = none) → ¬q.Shuns r q.url

theorem Clear.of_not_starting (hb : q.bounced = false) (hp : q.phase ≠ .starting) :
    Clear cfg r q :=
  ⟨hb, fun h => absurd h hp⟩

theorem shuns_sameKeys (h : SameKeys r r') (url : String) : q.Shuns r' url ↔ q.Shuns r url := by
  simp only [Shuns, h.seqByKey]

theorem switchedFrom_sameKeys (h : SameKeys r r') (url : String) :
    q.switchedFrom r' url = q.switchedFrom r url := by
  unfold switchedFrom
  rw [h.1]

theorem Harmless.sameKeys {url : String} (h : SameKeys r r') (hh : q.Harmless cfg r url) :
    q.Harmless cfg r' url := by
  unfold Harmless Reaches at hh ⊢
  rw [shuns_sameKeys h, switchedFrom_sameKeys h]
  exact hh

theorem clear_finish (hb : q.bounced = false) : Clear cfg (q.finish r).1 (q.finish r).2 :=
  .of_not_starting hb (by simp [finish])

/-- The failure being handled adds no worker at the url the request moves to. -/
theorem mem_leftFor {url : String} {f : FailedWorker} (hf : f ∈ q.leftFor url)
    (hu : f.url = url) : f ∈ q.left := by
  rcases List.mem_append.mp hf with hf | hf
  · rw [Option.mem_toList] at hf
    have hne := (Option.filter_eq_some_iff.mp hf).2
    simp [hu] at hne
  · exact hf

theorem clear_moveTo {url : String} (hb : q.bounced = false) (hh : q.Harmless cfg r url) :
    Clear cfg (q.moveTo cfg r url).1 (q.moveTo cfg r url).2 := by
  unfold moveTo
  split
  · exact clear_finish hb
  · rename_i r₁ seq he
    obtain ⟨-, -, rfl⟩ := SlimeRouter.reserveUrl_ok he
    have hkeys : SameKeys r ((r.countRequest url).finishUrl q.url (some q.seq)).1 :=
      sameKeys_finishUrl _ _ _
    refine ⟨hb, ?_⟩
    intro hp hr hs
    dsimp only at hp hr hs
    have hlt : q.recoveryAttempt < cfg.generateRecoveryMaxAttempts := by
      by_contra hge
      rw [if_neg hge] at hp
      cases hp
    refine hh ⟨hlt, ?_⟩ ?_
    · exact hr.imp_right fun hn => (switchedFrom_sameKeys (q := q) hkeys url).symm.trans hn
    · obtain ⟨f, hf, hu, hle⟩ := hs
      rw [hkeys.seqByKey] at hle
      exact ⟨f, mem_leftFor hf hu, hu, hle⟩

theorem healthyWorker_sameKeys {url failedUrl : String}
    (h : healthyWorker cfg r failedUrl = some (url, r')) : SameKeys r r' := by
  unfold healthyWorker at h
  split_ifs at h
  split at h
  · cases h
  · rename_i p he
    cases h
    obtain ⟨-, -, rfl⟩ := SlimeRouter.selectLeastLoadedWorkerUrl_ok he
    exact ⟨rfl, rfl⟩

theorem clear_resolve (hb : q.bounced = false)
    (hh : ∀ p ∈ healthyWorker cfg r q.url, q.Harmless cfg r p.1) :
    Clear cfg (q.resolve cfg r).1 (q.resolve cfg r).2 := by
  unfold resolve
  split
  · rename_i url r' he
    exact clear_moveTo hb ((hh (url, r') he).sameKeys (healthyWorker_sameKeys he))
  · exact .of_not_starting hb (by simp)

theorem clear_send (hq : Clear cfg r q) (hp : q.phase = .starting)
    (hr : cfg.stream ∨ q.switchedFrom r q.url = none) : Clear cfg r (q.send r) := by
  refine .of_not_starting ?_ (by simp [send])
  have hs := hq.ahead hp hr
  simp [send, hq.bounced, hs]

theorem clear_startAttempt (hq : Clear cfg r q) (hp : q.phase = .starting)
    (hh : cfg.stream = false → q.SwitchHarmless cfg r) :
    Clear cfg (q.startAttempt cfg r).1 (q.startAttempt cfg r).2 := by
  unfold startAttempt
  by_cases hs : cfg.stream
  · rw [if_pos hs]
    exact clear_send hq hp (.inl hs)
  · rw [if_neg hs]
    have hswitch := hh (by simpa using hs)
    split
    · rename_i url he
      exact clear_moveTo hq.bounced (hswitch.1 url he)
    · rename_i hn
      by_cases hm : q.url ∈ r.workerRequestCounts
      · rw [if_neg (not_not.mpr hm)]
        exact clear_send hq hp (.inr hn)
      · rw [if_pos hm]
        exact clear_resolve hq.bounced (hswitch.2 hn hm)

theorem clear_pollStream (hq : Clear cfg r q) (hh : q.SwitchHarmless cfg r) :
    Clear cfg (q.pollStream cfg r).1 (q.pollStream cfg r).2 := by
  unfold pollStream
  split
  · rename_i url he
    split_ifs
    · exact clear_finish hq.bounced
    · exact clear_moveTo hq.bounced (hh.1 url he)
  · rename_i hn
    by_cases hm : q.url ∈ r.workerRequestCounts
    · rw [if_neg (not_not.mpr hm)]
      exact hq
    · rw [if_pos hm]
      split_ifs
      · exact clear_finish hq.bounced
      · exact clear_resolve hq.bounced (hh.2 hn hm)

theorem clear_fail (hq : Clear cfg r q)
    (hh : ∀ p ∈ healthyWorker cfg (r.recordFailure q.url) q.url, q.Harmless cfg r p.1) :
    Clear cfg (q.fail cfg r).1 (q.fail cfg r).2 := by
  have hkeys : SameKeys r (r.recordFailure q.url) := ⟨rfl, rfl⟩
  unfold fail
  dsimp only
  split_ifs
  · exact clear_finish hq.bounced
  · refine clear_resolve hq.bounced ?_
    intro p hp
    exact Harmless.sameKeys hkeys (hh p hp)

theorem clear_checkRecovery (expired : Bool) {w : RecoveryWait} (hq : Clear cfg r q)
    (hh : ∀ url ∈ w.recovered r, q.Harmless cfg r url) :
    Clear cfg (q.checkRecovery cfg w expired r).1 (q.checkRecovery cfg w expired r).2 := by
  have hkeys : SameKeys r (w.check cfg.timed expired r).1 := sameKeys_check w expired
  unfold checkRecovery
  split
  · rename_i r' url he
    rw [he] at hkeys
    refine clear_moveTo hq.bounced (Harmless.sameKeys hkeys (hh url ?_))
    unfold RecoveryWait.check at he
    split at he
    · rename_i u hu
      obtain ⟨-, hx⟩ := Prod.mk.inj he
      cases hx
      exact hu
    · split_ifs at he
      all_goals cases (Prod.mk.inj he).2
  · exact clear_finish hq.bounced
  · exact .of_not_starting hq.bounced (by simp)

theorem clear_next {a : ProxyStep} {q' : ProxiedRequest} (hq : Clear cfg r q)
    (ha : q.Avoids cfg r a) (h : q.next cfg r a = some (r', q')) : Clear cfg r' q' := by
  cases a with
  | startAttempt =>
    simp only [next] at h
    split_ifs at h with hp
    have hc := clear_startAttempt hq hp ha
    rw [Option.some.inj h] at hc
    exact hc
  | pollStream =>
    simp only [next] at h
    split_ifs at h
    have hc := clear_pollStream hq ha
    rw [Option.some.inj h] at hc
    exact hc
  | fail =>
    simp only [next] at h
    split_ifs at h
    have hc := clear_fail hq ha
    rw [Option.some.inj h] at hc
    exact hc
  | respond =>
    simp only [next] at h
    split_ifs at h
    have hc : Clear cfg (q.finish r).1 (q.finish r).2 := clear_finish hq.bounced
    rw [Option.some.inj h] at hc
    exact hc
  | check expired =>
    simp only [next] at h
    split at h
    · rename_i w hw
      split_ifs at h
      have hr : ∀ url ∈ w.recovered r, q.Harmless cfg r url := by
        simpa only [Avoids, recoveredUrl, hw] using ha
      have hc := clear_checkRecovery expired hq hr
      rw [Option.some.inj h] at hc
      exact hc
    · cases h
  | wake =>
    simp only [next] at h
    split at h
    · split_ifs at h
      cases h
      exact .of_not_starting hq.bounced (by simp)
    · cases h
  | timeout =>
    simp only [next] at h
    split at h
    · split_ifs at h
      cases h
      exact .of_not_starting hq.bounced (by simp)
    · cases h

theorem clear_notify {key : String} (hq : Clear cfg r q) (hp : q.phase ≠ .starting) :
    Clear cfg r' (q.notify key) := by
  unfold notify
  split
  · exact .of_not_starting hq.bounced (by simp)
  · exact .of_not_starting hq.bounced hp

end ProxiedRequest

/-! ### Runs -/

namespace ProxyState

open ProxiedRequest

variable {cfg : ProxyConfig}

def Clear (cfg : ProxyConfig) (s : ProxyState) : Prop :=
  ∀ q ∈ s.request, ProxiedRequest.Clear cfg s.router q

theorem clear_call {s s' : ProxyState} {c : RouterCall} (hs : Clear cfg s)
    (h : s.next cfg (.call c) = some s') : Clear cfg s' := by
  simp only [next] at h
  split_ifs at h with hp
  cases h
  intro q hq
  have hidle : ∀ q₀ ∈ s.request, q₀.phase ≠ .starting := by
    intro q₀ hq₀ he
    exact hp (by simp [Option.mem_def.mp hq₀, he])
  dsimp only at hq
  split at hq
  · exact .of_not_starting (hs q hq).bounced (hidle q hq)
  · obtain ⟨q₀, hq₀, rfl⟩ := Option.map_eq_some_iff.mp hq
    exact clear_notify (hs q₀ hq₀) (hidle q₀ hq₀)

theorem clear_next {s s' : ProxyState} {a : ProxyAction} (hs : Clear cfg s) (ha : s.Avoids cfg a)
    (h : s.next cfg a = some s') : Clear cfg s' := by
  cases a with
  | call c => exact clear_call hs h
  | arrive =>
    simp only [next] at h
    split_ifs at h
    split at h
    · cases h
    · cases h
      intro q he
      cases he
      exact ⟨rfl, fun _ _ => by simp [Shuns]⟩
  | task a =>
    simp only [next] at h
    split at h
    · cases h
    · rename_i q hq
      split at h
      · cases h
      · rename_i r q' hn
        cases h
        intro q₁ he
        cases he
        exact ProxiedRequest.clear_next (hs q hq) (ha q hq) hn

def cfgFor (stream : Bool) : ProxyConfig := ⟨stream, 8, true, false⟩

def addWorker (url key : String) : ProxyAction :=
  .call (.registry (.addWorker { queryUrl := some url, queryWorkerKey := some key }))

/-- The failed worker is removed before the request is rerouted. -/
def removedRun : List ProxyAction :=
  [addWorker "http://h:1" "k", addWorker "http://h:2" "j", .arrive, .task .startAttempt,
    .call (.registry (.removeWorker { queryUrl := some "http://h:1" })),
    .task .fail, .task .startAttempt, .task .respond]

/-- The failed worker is still registered when the request is rerouted. -/
def bouncingRun (stream : Bool) : List ProxyAction :=
  [addWorker "http://h:1" "k", addWorker "http://h:2" "j", .arrive, .task .startAttempt,
    .task .fail, .task .startAttempt] ++
  (if stream then [.task .pollStream] else []) ++ [.task .startAttempt]

end ProxyState

end Belayer.Router
