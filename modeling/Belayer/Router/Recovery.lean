import Belayer.Framework.Run
import Belayer.Router.Registry

namespace Belayer.Router

open Belayer.Framework

/-- Where the task of a waiting request stands. -/
inductive WaitTask where
  | running
  | parked
  | notified
  deriving DecidableEq

/-- The locals of `_wait_for_worker_recovery` that its loop reads. -/
structure RecoveryWait where
  workerKey : String
  effectiveFailedSeq : Nat
  task : WaitTask
  deriving DecidableEq

inductive RecoveryProgress where
  | recovered (url : String)
  | timedOut
  | waiting (w : RecoveryWait)
  deriving DecidableEq

namespace SlimeRouter

def recoveryEvent (r : SlimeRouter) (key : String) : Bool :=
  Dict.getD r.workerRecoveryEventsByKey key false

def clearRecoveryEvent (r : SlimeRouter) (key : String) : SlimeRouter :=
  { r with workerRecoveryEventsByKey := r.workerRecoveryEventsByKey.insert key false }

/-- `_wait_for_worker_recovery` up to its loop. -/
def startRecoveryWait (r : SlimeRouter) (workerKey failedUrl : String) :
    SlimeRouter × RecoveryWait :=
  let failedSeq := r.seqByUrl failedUrl
  let observedSeq := r.seqByKey workerKey
  (if workerKey ∈ r.workerRecoveryEventsByKey then r else r.clearRecoveryEvent workerKey,
    ⟨workerKey, max failedSeq observedSeq, .running⟩)

end SlimeRouter

namespace RecoveryWait

/-- The url the wait accepts: the key's url, once the key has a newer number. -/
def recovered (w : RecoveryWait) (r : SlimeRouter) : Option String :=
  (truthy (r.workerUrlsByKey.lookup w.workerKey)).filter
    fun _ => w.effectiveFailedSeq < r.seqByKey w.workerKey

/-- One iteration of the loop. An event that is set is cleared without parking;
`expired` tells whether the deadline of a `timed` wait has passed. -/
def check (w : RecoveryWait) (timed expired : Bool) (r : SlimeRouter) :
    SlimeRouter × RecoveryProgress :=
  match w.recovered r with
  | some url => (r, .recovered url)
  | none =>
    if timed && expired then (r, .timedOut)
    else if r.recoveryEvent w.workerKey then
      (r.clearRecoveryEvent w.workerKey, .waiting { w with task := .running })
    else (r, .waiting { w with task := .parked })

/-- A registration of the key wakes a parked wait. -/
def notify (w : RecoveryWait) (key : String) : RecoveryWait :=
  if w.workerKey = key ∧ w.task = .parked then { w with task := .notified } else w

end RecoveryWait

inductive RequestPhase where
  | active
  | failed
  | recovering (p : RecoveryProgress)
  deriving DecidableEq

/-- A request with the reservation it was last sent on. -/
structure Request where
  workerKey : String
  url : String
  seq : Nat
  phase : RequestPhase
  deriving DecidableEq

/-- What one request's own task can do next. -/
inductive RequestStep where
  | fail
  | startWait
  | check (expired : Bool)
  | wake
  | timeout
  | retry
  deriving DecidableEq

namespace Request

def notify (key : String) (q : Request) : Request :=
  match q.phase with
  | .recovering (.waiting w) => { q with phase := .recovering (.waiting (w.notify key)) }
  | _ => q

/-- A step of the request's own task; `none` when the task is elsewhere. The old
reservation is finished only after the recovered url has been reserved. -/
def next (timed : Bool) (r : SlimeRouter) (q : Request) : RequestStep → Option (SlimeRouter × Request)
  | .fail =>
    if q.phase = .active then some (r.recordFailure q.url, { q with phase := .failed }) else none
  | .startWait =>
    if q.phase = .failed then
      let (r', w) := r.startRecoveryWait q.workerKey q.url
      some (r', { q with phase := .recovering (.waiting w) })
    else none
  | .check expired =>
    match q.phase with
    | .recovering (.waiting w) =>
      if w.task = .running then
        let (r', p) := w.check timed expired r
        some (r', { q with phase := .recovering p })
      else none
    | _ => none
  | .wake =>
    match q.phase with
    | .recovering (.waiting w) =>
      if w.task = .notified then
        some (r.clearRecoveryEvent w.workerKey,
          { q with phase := .recovering (.waiting { w with task := .running }) })
      else none
    | _ => none
  | .timeout =>
    match q.phase with
    | .recovering (.waiting w) =>
      if timed ∧ w.task = .parked then
        some (r, { q with phase := .recovering (.waiting { w with task := .running }) })
      else none
    | _ => none
  | .retry =>
    match q.phase with
    | .recovering (.recovered url) =>
      match r.reserveUrl url with
      | .error _ => none
      | .ok (r', seq) =>
        some ((r'.finishUrl q.url (some q.seq)).1, { q with url := url, seq := seq, phase := .active })
    | _ => none

/-- The router has the url for the request's key, under a newer number than the
one the request was reserved on. -/
def Replacement (q : Request) (r : SlimeRouter) (url : String) : Prop :=
  truthy (r.workerUrlsByKey.lookup q.workerKey) = some url ∧ q.seq < r.seqByKey q.workerKey

instance (q : Request) (r : SlimeRouter) (url : String) : Decidable (q.Replacement r url) :=
  inferInstanceAs (Decidable (_ ∧ _))

def Replaced (q : Request) (r : SlimeRouter) : Prop := ∃ url, q.Replacement r url

instance (q : Request) (r : SlimeRouter) : Decidable (q.Replaced r) :=
  match h : truthy (r.workerUrlsByKey.lookup q.workerKey) with
  | none => .isFalse (by simp [Replaced, Replacement, h])
  | some url => decidable_of_iff (q.seq < r.seqByKey q.workerKey) (by simp [Replaced, Replacement, h])

/-- The request's task ends its wait with the url, whatever it does next and
without any other call of the router. -/
inductive ComesBack (timed : Bool) (url : String) : SlimeRouter → Request → Prop
  | returned {r q} (h : q.phase = .recovering (.recovered url)) : ComesBack timed url r q
  | step {r q} (enabled : ∃ a, (q.next timed r a).isSome)
      (all : ∀ a r' q', q.next timed r a = some (r', q') → ComesBack timed url r' q') :
      ComesBack timed url r q

/-- The request has failed, and its wait has not ended. -/
def Recovering (q : Request) : Prop :=
  q.phase = .failed ∨ ∃ w, q.phase = .recovering (.waiting w)

def PicksUp (timed : Bool) (r : SlimeRouter) (q : Request) : Prop :=
  ∀ url, q.Recovering → q.Replacement r url → q.ComesBack timed url r

end Request

/-- The router with the requests that recover by waiting. -/
structure RecoveryState where
  router : SlimeRouter
  timed : Bool
  requests : List Request

inductive RecoveryAction where
  | registry (c : RegistryCall)
  | useUrl
  | task (i : Nat) (a : RequestStep)

namespace RecoveryState

def init (timed : Bool) : RecoveryState := ⟨.init, timed, []⟩

def call (s : RecoveryState) (c : RegistryCall) : RecoveryState :=
  { s with
    router := c.apply s.router
    requests :=
      match c.added with
      | none => s.requests
      | some (_, key) => s.requests.map (Request.notify key) }

def next (s : RecoveryState) : RecoveryAction → Option RecoveryState
  | .registry c => some (s.call c)
  | .useUrl =>
    match s.router.useUrl [] with
    | .error _ => none
    | .ok (r, url, seq) =>
      let workerKey := Dict.getD r.workerKeysByUrl url url
      some { s with router := r, requests := s.requests ++ [⟨workerKey, url, seq, .active⟩] }
  | .task i a =>
    match s.requests[i]? with
    | none => none
    | some q =>
      match q.next s.timed s.router a with
      | none => none
      | some (r, q') => some { s with router := r, requests := s.requests.set i q' }

/-- No recovering request overlooks a replacement. -/
def PicksUp (s : RecoveryState) : Prop := ∀ q ∈ s.requests, q.PicksUp s.timed s.router

/-- No replacement is there when a request fails or comes before its wait begins;
and the number of the failed url is not ahead of those of the request's key. -/
def Prompt (s : RecoveryState) : RecoveryAction → Prop
  | .registry c => ∀ q ∈ s.requests, q.phase = .failed → ¬q.Replaced (c.apply s.router)
  | .task i .fail => ∀ q ∈ s.requests[i]?, ¬q.Replaced s.router
  | .task i .startWait => ∀ q ∈ s.requests[i]?,
      s.router.seqByUrl q.url ≤ max (s.router.seqByKey q.workerKey) q.seq
  | _ => True

instance (s : RecoveryState) : ∀ a, Decidable (s.Prompt a)
  | .registry c =>
    inferInstanceAs (Decidable (∀ q ∈ s.requests, q.phase = .failed → ¬q.Replaced (c.apply _)))
  | .task i .fail => inferInstanceAs (Decidable (∀ q ∈ s.requests[i]?, ¬q.Replaced _))
  | .task i .startWait => inferInstanceAs (Decidable (∀ q ∈ s.requests[i]?, _ ≤ _))
  | .useUrl | .task _ (.check _) | .task _ .wake | .task _ .timeout | .task _ .retry =>
    .isTrue trivial

end RecoveryState

/-! ### The wait of one request -/

namespace Request

variable {r r' : SlimeRouter} {q q' : Request} {timed : Bool}

/-- A wait that will accept the next registration newer than the reservation. -/
structure SoundWait (r : SlimeRouter) (q : Request) (w : RecoveryWait) : Prop where
  key : w.workerKey = q.workerKey
  bound : w.effectiveFailedSeq ≤ max (r.seqByKey q.workerKey) q.seq
  newer : q.Replaced r → w.effectiveFailedSeq < r.seqByKey q.workerKey
  parked : w.task = .parked → w.recovered r = none

structure Sound (r : SlimeRouter) (q : Request) : Prop where
  failed : q.phase = .failed → ¬q.Replaced r
  waiting : ∀ w, q.phase = .recovering (.waiting w) → SoundWait r q w

/-- The two maps that a wait reads are the same. -/
def SameKeys (r r' : SlimeRouter) : Prop :=
  r'.workerUrlsByKey = r.workerUrlsByKey ∧
    r'.workerRegistrationSeqByKey = r.workerRegistrationSeqByKey

theorem SameKeys.seqByKey (h : SameKeys r r') (key : String) : r'.seqByKey key = r.seqByKey key := by
  unfold SlimeRouter.seqByKey
  rw [h.2]

theorem SameKeys.replaced (h : SameKeys r r') : q.Replaced r' ↔ q.Replaced r := by
  unfold Replaced Replacement
  rw [h.1, h.seqByKey]

theorem SameKeys.recovered (h : SameKeys r r') (w : RecoveryWait) :
    w.recovered r' = w.recovered r := by
  unfold RecoveryWait.recovered
  rw [h.1, h.seqByKey]

theorem SameKeys.soundWait (h : SameKeys r r') {w : RecoveryWait} (hw : SoundWait r q w) :
    SoundWait r' q w where
  key := hw.key
  bound := by rw [h.seqByKey]; exact hw.bound
  newer hq := by rw [h.seqByKey]; exact hw.newer (h.replaced.mp hq)
  parked ht := (h.recovered w).trans (hw.parked ht)

theorem SameKeys.sound (h : SameKeys r r') (hq : Sound r q) : Sound r' q where
  failed hf hr := hq.failed hf (h.replaced.mp hr)
  waiting w hw := h.soundWait (hq.waiting w hw)

theorem sameKeys_finishUrl (r : SlimeRouter) (url : String) (seq : Option Nat) :
    SameKeys r (r.finishUrl url seq).1 := by
  unfold SlimeRouter.finishUrl
  dsimp only
  split_ifs <;> exact ⟨rfl, rfl⟩

theorem sameKeys_check (w : RecoveryWait) (expired : Bool) :
    SameKeys r (w.check timed expired r).1 := by
  unfold RecoveryWait.check
  split
  · exact ⟨rfl, rfl⟩
  · split_ifs <;> exact ⟨rfl, rfl⟩

theorem sameKeys_startRecoveryWait (key url : String) :
    SameKeys r (r.startRecoveryWait key url).1 := by
  unfold SlimeRouter.startRecoveryWait
  dsimp only
  split_ifs <;> exact ⟨rfl, rfl⟩

/-- What the steps of a request do. -/
theorem next_cases {a : RequestStep} (h : q.next timed r a = some (r', q')) :
    (a = .fail ∧ q.phase = .active ∧ r' = r.recordFailure q.url ∧
      q' = { q with phase := .failed }) ∨
    (a = .startWait ∧ q.phase = .failed ∧ r' = (r.startRecoveryWait q.workerKey q.url).1 ∧
      q' = { q with
        phase := .recovering (.waiting (r.startRecoveryWait q.workerKey q.url).2) }) ∨
    (∃ w expired, a = .check expired ∧ q.phase = .recovering (.waiting w) ∧ w.task = .running ∧
      r' = (w.check timed expired r).1 ∧
      q' = { q with phase := .recovering (w.check timed expired r).2 }) ∨
    (∃ w, (a = .wake ∧ w.task = .notified ∧ r' = r.clearRecoveryEvent w.workerKey ∨
        a = .timeout ∧ w.task = .parked ∧ r' = r) ∧
      q.phase = .recovering (.waiting w) ∧
      q' = { q with phase := .recovering (.waiting { w with task := .running }) }) ∨
    (∃ url seq, a = .retry ∧ q.phase = .recovering (.recovered url) ∧
      r' = ((r.countRequest url).finishUrl q.url (some q.seq)).1 ∧
      q' = { q with url := url, seq := seq, phase := .active }) := by
  cases a with
  | fail =>
    simp only [next] at h
    split_ifs at h with hf
    obtain ⟨rfl, rfl⟩ := Prod.mk.inj (Option.some.inj h)
    exact .inl ⟨rfl, hf, rfl, rfl⟩
  | startWait =>
    simp only [next] at h
    split_ifs at h with hf
    obtain ⟨rfl, rfl⟩ := Prod.mk.inj (Option.some.inj h)
    exact .inr (.inl ⟨rfl, hf, rfl, rfl⟩)
  | check expired =>
    simp only [next] at h
    split at h
    · rename_i w hw
      split_ifs at h with ht
      obtain ⟨rfl, rfl⟩ := Prod.mk.inj (Option.some.inj h)
      exact .inr (.inr (.inl ⟨w, expired, rfl, hw, ht, rfl, rfl⟩))
    · cases h
  | wake =>
    simp only [next] at h
    split at h
    · rename_i w hw
      split_ifs at h with ht
      obtain ⟨rfl, rfl⟩ := Prod.mk.inj (Option.some.inj h)
      exact .inr (.inr (.inr (.inl ⟨w, .inl ⟨rfl, ht, rfl⟩, hw, rfl⟩)))
    · cases h
  | timeout =>
    simp only [next] at h
    split at h
    · rename_i w hw
      split_ifs at h with ht
      obtain ⟨rfl, rfl⟩ := Prod.mk.inj (Option.some.inj h)
      exact .inr (.inr (.inr (.inl ⟨w, .inr ⟨rfl, ht.2, rfl⟩, hw, rfl⟩)))
    · cases h
  | retry =>
    simp only [next] at h
    split at h
    · rename_i url hp
      split at h
      · cases h
      · rename_i r₁ seq he
        obtain ⟨-, -, rfl⟩ := SlimeRouter.reserveUrl_ok he
        obtain ⟨rfl, rfl⟩ := Prod.mk.inj (Option.some.inj h)
        exact .inr (.inr (.inr (.inr ⟨url, seq, rfl, hp, rfl, rfl⟩)))
    · cases h

theorem sameKeys_next {a : RequestStep} (h : q.next timed r a = some (r', q')) :
    SameKeys r r' := by
  rcases next_cases h with ⟨-, -, rfl, -⟩ | ⟨-, -, rfl, -⟩ | ⟨w, e, -, -, -, rfl, -⟩ |
    ⟨w, ⟨-, -, rfl⟩ | ⟨-, -, rfl⟩, -, -⟩ | ⟨url, seq, -, -, rfl, -⟩
  · exact ⟨rfl, rfl⟩
  · exact sameKeys_startRecoveryWait _ _
  · exact sameKeys_check _ _
  · exact ⟨rfl, rfl⟩
  · exact ⟨rfl, rfl⟩
  · exact sameKeys_finishUrl _ _ _

/-- The wait accepts the url of a replacement, if its comparison lets it. -/
theorem recovered_of_replacement {w : RecoveryWait} {url : String} (hk : w.workerKey = q.workerKey)
    (h : q.Replacement r url) (hs : w.effectiveFailedSeq < r.seqByKey q.workerKey) :
    w.recovered r = some url := by
  unfold RecoveryWait.recovered
  rw [hk, h.1]
  simp [hs]

theorem check_recovered {w : RecoveryWait} {url : String} (h : w.recovered r = some url)
    (expired : Bool) : w.check timed expired r = (r, .recovered url) := by
  simp [RecoveryWait.check, h]

theorem comesBack_running {w : RecoveryWait} {url : String}
    (hw : q.phase = .recovering (.waiting w)) (ht : w.task = .running)
    (hr : w.recovered r = some url) : q.ComesBack timed url r := by
  refine .step ⟨.check false, by simp [next, hw, ht]⟩ ?_
  intro a r' q' h
  rcases next_cases h with ⟨-, hp, -⟩ | ⟨-, hp, -⟩ | ⟨w', e, -, hp, -, -, rfl⟩ |
    ⟨w', hc, hp, -⟩ | ⟨u, n, -, hp, -⟩
  · cases hw.symm.trans hp
  · cases hw.symm.trans hp
  · cases hw.symm.trans hp
    exact .returned (by rw [check_recovered hr])
  · cases hw.symm.trans hp
    rcases hc with ⟨-, hc, -⟩ | ⟨-, hc, -⟩
    · cases ht.symm.trans hc
    · cases ht.symm.trans hc
  · cases hw.symm.trans hp

theorem comesBack_notified {w : RecoveryWait} {url : String}
    (hw : q.phase = .recovering (.waiting w)) (ht : w.task = .notified)
    (hr : w.recovered r = some url) : q.ComesBack timed url r := by
  refine .step ⟨.wake, by simp [next, hw, ht]⟩ ?_
  intro a r' q' h
  have hkeys := sameKeys_next h
  rcases next_cases h with ⟨-, hp, -⟩ | ⟨-, hp, -⟩ | ⟨w', e, -, hp, hc, -, -⟩ |
    ⟨w', hc, hp, rfl⟩ | ⟨u, n, -, hp, -⟩
  · cases hw.symm.trans hp
  · cases hw.symm.trans hp
  · cases hw.symm.trans hp
    cases ht.symm.trans hc
  · cases hw.symm.trans hp
    exact comesBack_running rfl rfl ((hkeys.recovered w).trans hr)
  · cases hw.symm.trans hp

/-- A sound request takes up its replacement. -/
theorem Sound.picksUp (hq : Sound r q) : q.PicksUp timed r := by
  intro url hx hr
  rcases hx with hf | ⟨w, hw⟩
  · exact absurd ⟨url, hr⟩ (hq.failed hf)
  · have hs := hq.waiting w hw
    have hrec := recovered_of_replacement hs.key hr (hs.newer ⟨url, hr⟩)
    cases ht : w.task with
    | running => exact comesBack_running hw ht hrec
    | parked => exact absurd (hs.parked ht) (by simp [hrec])
    | notified => exact comesBack_notified hw ht hrec

/-- A recovery that can only end by another registration of the key. -/
def Overlooks (r : SlimeRouter) (q : Request) : Prop :=
  (q.phase = .failed ∧ q.Replaced r) ∨ q.phase = .recovering .timedOut ∨
    ∃ w, q.phase = .recovering (.waiting w) ∧ w.workerKey = q.workerKey ∧
      r.seqByKey q.workerKey ≤ w.effectiveFailedSeq

theorem overlooks_check (timed expired : Bool) {w : RecoveryWait}
    (hk : w.workerKey = q.workerKey) (hs : r.seqByKey q.workerKey ≤ w.effectiveFailedSeq) :
    Overlooks r { q with phase := .recovering (w.check timed expired r).2 } := by
  have hn : w.recovered r = none := by
    simp [RecoveryWait.recovered, hk, hs]
  unfold RecoveryWait.check
  rw [hn]
  dsimp only
  split_ifs
  · exact .inr (.inl rfl)
  · exact .inr (.inr ⟨_, rfl, hk, hs⟩)
  · exact .inr (.inr ⟨_, rfl, hk, hs⟩)

theorem Overlooks.next {a : RequestStep} (ho : Overlooks r q)
    (h : q.next timed r a = some (r', q')) : Overlooks r' q' := by
  have hkeys := sameKeys_next h
  rcases ho with ⟨hf, hr⟩ | ht | ⟨w, hw, hk, hs⟩
  · rcases next_cases h with ⟨-, hp, -⟩ | ⟨-, -, -, rfl⟩ | ⟨w, e, -, hp, -⟩ | ⟨w, -, hp, -⟩ |
      ⟨u, n, -, hp, -⟩
    · cases hf.symm.trans hp
    · refine .inr (.inr ⟨_, rfl, rfl, ?_⟩)
      rw [hkeys.seqByKey]
      exact le_max_right _ _
    · cases hf.symm.trans hp
    · cases hf.symm.trans hp
    · cases hf.symm.trans hp
  · rcases next_cases h with ⟨-, hp, -⟩ | ⟨-, hp, -⟩ | ⟨w, e, -, hp, -⟩ | ⟨w, -, hp, -⟩ |
      ⟨u, n, -, hp, -⟩
    all_goals cases ht.symm.trans hp
  · rcases next_cases h with ⟨-, hp, -⟩ | ⟨-, hp, -⟩ | ⟨w', e, -, hp, -, rfl, rfl⟩ |
      ⟨w', -, hp, rfl⟩ | ⟨u, n, -, hp, -⟩
    · cases hw.symm.trans hp
    · cases hw.symm.trans hp
    · cases hw.symm.trans hp
      rcases overlooks_check timed e hk hs with ⟨hp, -⟩ | ht | ⟨w₁, hw₁, hk₁, hs₁⟩
      · cases hp
      · exact .inr (.inl ht)
      · exact .inr (.inr ⟨w₁, hw₁, hk₁, by rw [hkeys.seqByKey]; exact hs₁⟩)
    · cases hw.symm.trans hp
      exact .inr (.inr ⟨_, rfl, hk, by rw [hkeys.seqByKey]; exact hs⟩)
    · cases hw.symm.trans hp

/-- A request that fails when its replacement is already registered does not
come back: its wait takes the replacement's own number as the one to exceed. -/
theorem Overlooks.not_comesBack {url : String} (ho : Overlooks r q) : ¬q.ComesBack timed url r := by
  intro h
  induction h with
  | returned hp =>
    rcases ho with ⟨hf, -⟩ | ht | ⟨w, hw, -⟩
    · cases hf.symm.trans hp
    · cases ht.symm.trans hp
    · cases hw.symm.trans hp
  | step enabled _ ih =>
    obtain ⟨a, ha⟩ := enabled
    obtain ⟨⟨r', q'⟩, hn⟩ := Option.isSome_iff_exists.mp ha
    exact ih a r' q' hn (ho.next hn)

end Request

/-! ### Runs of the router and its requests -/

namespace RecoveryState

open Request

/-- All requests are sound: none will overlook a replacement. -/
def Sound (s : RecoveryState) : Prop := ∀ q ∈ s.requests, q.Sound s.router

theorem sound_picksUp {s : RecoveryState} (hs : Sound s) : PicksUp s :=
  fun q hq => (hs q hq).picksUp

@[simp] theorem seq_notify (key : String) (q : Request) : (q.notify key).seq = q.seq := by
  unfold Request.notify
  split <;> rfl

@[simp] theorem workerKey_notify (key : String) (q : Request) :
    (q.notify key).workerKey = q.workerKey := by
  unfold Request.notify
  split <;> rfl

theorem replaced_notify (key : String) (q : Request) (r : SlimeRouter) :
    (q.notify key).Replaced r ↔ q.Replaced r := by
  unfold Replaced Replacement
  rw [workerKey_notify, seq_notify]

/-- A registration of the key leaves no wait for it parked. -/
theorem waiting_notify {key : String} {q : Request} {w : RecoveryWait}
    (h : (q.notify key).phase = .recovering (.waiting w)) :
    ∃ w₀, q.phase = .recovering (.waiting w₀) ∧ w = w₀.notify key := by
  unfold Request.notify at h
  split at h
  · rename_i w₀ hw
    simp only [RequestPhase.recovering.injEq, RecoveryProgress.waiting.injEq] at h
    exact ⟨w₀, hw, h.symm⟩
  · rename_i hn
    exact absurd h (hn w)

theorem failed_notify {key : String} {q : Request} (h : (q.notify key).phase = .failed) :
    q.phase = .failed := by
  unfold Request.notify at h
  split at h
  · cases h
  · exact h

theorem soundWait_registerWorker {r : SlimeRouter} {q : Request} {w : RecoveryWait}
    (url key : String) (hw : SoundWait r q w) :
    SoundWait (r.registerWorker url key) (q.notify key) (w.notify key) := by
  have hk : (w.notify key).workerKey = w.workerKey := by
    unfold RecoveryWait.notify
    split_ifs <;> rfl
  have he : (w.notify key).effectiveFailedSeq = w.effectiveFailedSeq := by
    unfold RecoveryWait.notify
    split_ifs <;> rfl
  by_cases hx : q.workerKey = key
  · subst key
    refine ⟨?_, ?_, ?_, ?_⟩
    · rw [hk, workerKey_notify]
      exact hw.key
    · have hb := hw.bound
      rw [he]
      simp only [workerKey_notify, seq_notify, SlimeRouter.seqByKey_registerWorker, if_true]
      omega
    · intro hx
      obtain ⟨u, -, hlt⟩ := hx
      have hb := hw.bound
      rw [he]
      simp only [workerKey_notify, seq_notify, SlimeRouter.seqByKey_registerWorker, if_true] at hlt ⊢
      omega
    · intro ht
      exfalso
      unfold RecoveryWait.notify at ht
      split_ifs at ht with hc
      · exact hc ⟨hw.key, ht⟩
  · have hn : w.notify key = w := by
      unfold RecoveryWait.notify
      rw [if_neg]
      intro hx
      obtain ⟨hc, -⟩ := hx
      exact hx (hw.key.symm.trans hc)
    have hseq : (r.registerWorker url key).seqByKey q.workerKey = r.seqByKey q.workerKey := by
      simp [hx]
    rw [hn]
    refine ⟨by rw [workerKey_notify]; exact hw.key, ?_, ?_, ?_⟩
    · rw [workerKey_notify, seq_notify, hseq]
      exact hw.bound
    · intro hr
      rw [workerKey_notify, hseq]
      refine hw.newer ?_
      obtain ⟨u, hu, hlt⟩ := (replaced_notify key q _).mp hr
      exact ⟨u, by simpa [hx] using hu, by simpa [hx] using hlt⟩
    · intro ht
      have := hw.parked ht
      unfold RecoveryWait.recovered at this ⊢
      rw [hw.key] at this ⊢
      simpa [hx] using this

theorem soundWait_unregisterWorker {r : SlimeRouter} {q : Request} {w : RecoveryWait}
    (url key : String) (hw : SoundWait r q w) : SoundWait (r.unregisterWorker url key) q w where
  key := hw.key
  bound := by simpa using hw.bound
  newer := by
    intro hx
    obtain ⟨u, hu, hlt⟩ := hx
    rw [SlimeRouter.seqByKey_unregisterWorker] at hlt ⊢
    refine hw.newer ⟨u, ?_, hlt⟩
    rw [SlimeRouter.urlsByKey_unregisterWorker] at hu
    split_ifs at hu
    · cases hu
    · exact hu
  parked ht := by
    have hp := hw.parked ht
    unfold RecoveryWait.recovered at hp ⊢
    rw [SlimeRouter.urlsByKey_unregisterWorker]
    split_ifs
    · rfl
    · exact hp

theorem sound_call {s : RecoveryState} {c : RegistryCall} (hs : Sound s)
    (hp : ∀ q ∈ s.requests, q.phase = .failed → ¬q.Replaced (c.apply s.router)) :
    Sound (s.call c) := by
  rcases c.apply_cases s.router with ⟨-, hn, he⟩ | ⟨url, key, -, hr, he⟩ | ⟨url, key, -, hn, he⟩
  · simp only [call, hn, he]
    exact hs
  · have ha : c.added = some (url, key) := hr
    simp only [call, ha, he]
    intro q hq
    obtain ⟨q₀, hq₀, rfl⟩ := List.mem_map.mp hq
    constructor
    · intro hf hrep
      have hrep₀ := (replaced_notify key q₀ _).mp hrep
      exact hp q₀ hq₀ (failed_notify hf) (he ▸ hrep₀)
    · intro w hw
      obtain ⟨w₀, hw₀, rfl⟩ := waiting_notify hw
      exact soundWait_registerWorker url key ((hs q₀ hq₀).waiting w₀ hw₀)
  · simp only [call, hn, he]
    intro q hq
    exact ⟨fun hf => he ▸ hp q hq hf,
      fun w hw => soundWait_unregisterWorker url key ((hs q hq).waiting w hw)⟩

/-- The own step of a sound request keeps it sound, when it fails and starts to
wait without a replacement. -/
theorem sound_task {s : RecoveryState} {i : Nat} {a : RequestStep} {q q' : Request}
    {r : SlimeRouter} (hq : q.Sound s.router) (hi : s.requests[i]? = some q)
    (hp : s.Prompt (.task i a)) (h : q.next s.timed s.router a = some (r, q')) : q'.Sound r := by
  have hkeys := sameKeys_next h
  refine hkeys.sound ?_
  rcases next_cases h with ⟨rfl, -, -, rfl⟩ | ⟨rfl, hf, -, rfl⟩ | ⟨w, e, -, hw, ht, -, rfl⟩ |
    ⟨w, -, hw, rfl⟩ | ⟨u, n, -, -, -, rfl⟩
  · exact ⟨fun _ => hp q hi, by simp⟩
  · refine ⟨by simp, ?_⟩
    intro w he
    cases he
    have hb := hp q hi
    refine ⟨rfl, ?_, fun hr => absurd hr (hq.failed hf), by simp [SlimeRouter.startRecoveryWait]⟩
    simp only [SlimeRouter.startRecoveryWait]
    omega
  · have hs := hq.waiting w hw
    refine ⟨by simp, ?_⟩
    intro w' hw'
    simp only [RequestPhase.recovering.injEq] at hw'
    unfold RecoveryWait.check at hw'
    split at hw'
    · cases hw'
    · rename_i hn
      split_ifs at hw'
      · cases hw'
        exact ⟨hs.key, hs.bound, hs.newer, by simp⟩
      · cases hw'
        exact ⟨hs.key, hs.bound, hs.newer, fun _ => hn⟩
  · have hs := hq.waiting w hw
    refine ⟨by simp, ?_⟩
    intro w' he
    cases he
    exact ⟨hs.key, hs.bound, hs.newer, by simp⟩
  · exact ⟨by simp, by simp⟩

theorem sound_next {s s' : RecoveryState} {a : RecoveryAction} (hs : Sound s) (hp : s.Prompt a)
    (h : s.next a = some s') : Sound s' := by
  cases a with
  | registry c =>
    cases h
    exact sound_call hs hp
  | useUrl =>
    simp only [next] at h
    split at h
    · cases h
    · rename_i r url seq he
      have hkeys : SameKeys s.router r := by
        obtain ⟨-, -, -, rfl⟩ := SlimeRouter.useUrl_ok he
        exact ⟨rfl, rfl⟩
      cases h
      intro q hq
      rcases List.mem_append.mp hq with hq | hq
      · exact hkeys.sound (hs q hq)
      · rw [List.mem_singleton.mp hq]
        exact ⟨by simp, by simp⟩
  | task i a =>
    simp only [next] at h
    split at h
    · cases h
    · rename_i q hi
      split at h
      · cases h
      · rename_i r q' hn
        cases h
        intro q₁ hq₁
        rcases List.mem_or_eq_of_mem_set hq₁ with hq₁ | rfl
        · exact (sameKeys_next hn).sound (hs q₁ hq₁)
        · exact sound_task (hs q (List.mem_of_getElem? hi)) hi hp hn

/-- A crash: the worker is removed, its request fails and waits, and the restarted
worker registers. -/
def crashRun : List RecoveryAction :=
  [.registry (.addWorker { queryUrl := some "http://h:1", queryWorkerKey := some "k" }),
    .useUrl,
    .registry (.removeWorker { queryUrl := some "http://h:1", queryWorkerKey := some "k" }),
    .task 0 .fail, .task 0 .startWait, .task 0 (.check false), .task 0 (.check false),
    .registry (.addWorker { queryUrl := some "http://h:2", queryWorkerKey := some "k" })]

/-- A handover: the new worker registers before the old one goes away and its
request fails. -/
def handoverRun : List RecoveryAction :=
  [.registry (.addWorker { queryUrl := some "http://h:1", queryWorkerKey := some "k" }),
    .useUrl,
    .registry (.addWorker { queryUrl := some "http://h:2", queryWorkerKey := some "k" }),
    .registry (.removeWorker { queryUrl := some "http://h:1", queryWorkerKey := some "k" }),
    .task 0 .fail]

end RecoveryState

end Belayer.Router
