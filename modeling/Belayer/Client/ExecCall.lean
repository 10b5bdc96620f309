import Belayer.Client.SweEnvClient
import Mathlib.Data.List.Count

namespace Belayer.Client

open Belayer.Framework

structure ExecReply where
  returncode : Int
  output : String
  faultInjected : Bool
  deriving DecidableEq

/-- A request on its way to the pool server and in its handler. -/
inductive PoolStage where
  | inFlight
  | handling
  | calling
  | replied (status : Nat) (out : Response ExecReply)
  | lost
  deriving DecidableEq

/-- The request of the pool to the exec server; its handler waits for the gate of the container
and for a docker slot before it runs the command. -/
inductive NodeStage where
  | unsent
  | inFlight
  | waiting
  | running
  | replied (out : Response ExecReply)
  | lost
  deriving DecidableEq

/-- A request of a call of `exec`, over both hops; `started` says that the command has been run
in the container for it. -/
structure ExecRequest where
  pool : PoolStage
  node : NodeStage
  started : Bool
  deriving DecidableEq

inductive ExecEvent where
  | lose
  | receive
  | refuse (status : Nat) (error : String)
  | forward
  | loseAtNode
  | receiveAtNode
  | answerAtNode (out : Response ExecReply)
  | start
  | finish (out : Response ExecReply)
  | pass
  | failAtPool (error : String)

/-- The pool has not asked the exec server yet, and still may. -/
def PoolStage.isEarly : PoolStage → Bool
  | .inFlight | .handling => true
  | .calling | .replied _ _ | .lost => false

namespace ExecRequest

def new : ExecRequest := ⟨.inFlight, .unsent, false⟩

/-- The two handlers of a request. The pool gives up on its own, the exec server does not notice. -/
def step (r : ExecRequest) : ExecEvent → Option ExecRequest
  | .lose => if r.pool = .inFlight then some { r with pool := .lost } else none
  | .receive => if r.pool = .inFlight then some { r with pool := .handling } else none
  | .refuse status error =>
    if r.pool = .handling ∧ 400 ≤ status then
      some { r with pool := .replied status ⟨false, false, error, none⟩ }
    else none
  | .forward =>
    if r.pool = .handling ∧ r.node = .unsent then
      some { r with pool := .calling, node := .inFlight }
    else none
  | .loseAtNode => if r.node = .inFlight then some { r with node := .lost } else none
  | .receiveAtNode => if r.node = .inFlight then some { r with node := .waiting } else none
  | .answerAtNode out => if r.node = .waiting then some { r with node := .replied out } else none
  | .start =>
    if r.node = .waiting then some { r with node := .running, started := true } else none
  | .finish out => if r.node = .running then some { r with node := .replied out } else none
  | .pass =>
    match r.pool, r.node with
    | .calling, .replied out => some { r with pool := .replied 200 out }
    | _, _ => none
  | .failAtPool error =>
    if r.pool = .calling then
      some { r with pool := .replied 500 ⟨false, false, error, none⟩ }
    else none

/-- The command has been run for the request, or it may still be run. -/
def mayRun (r : ExecRequest) : Bool :=
  r.started || match r.node with
    | .unsent => r.pool.isEarly
    | .inFlight | .waiting => true
    | .running | .replied _ | .lost => false

end ExecRequest

/-- A call of `SweEnvClient.exec` with the requests that it has sent. -/
structure ExecCall where
  call : ClientCall ExecReply
  requests : List ExecRequest

inductive CallAction where
  | client (event : ClientEvent ExecReply)
  | request (i : Nat) (event : ExecEvent)

namespace ExecCall

/-- The reply of the pool that the client gets; slime raises on an error status. -/
def delivers (w : ExecCall) (out : Response ExecReply) : Bool :=
  match w.call.phase with
  | .awaiting _ via i =>
    match w.requests[i]? with
    | some ⟨.replied status out', _, _⟩ => out' = out && (via = .urllib || status < 400)
    | _ => false
  | _ => false

section Lower

-- `lower` is `str.lower`
variable (lower : String → String) (p : ClientParams)

def begin : ExecCall := ⟨.begin p, []⟩

def next (w : ExecCall) : CallAction → Option ExecCall
  | .client .send =>
    (w.call.step lower p (p.maxAttempts none) .send).map fun call =>
      ⟨call, w.requests ++ [.new]⟩
  | .client (.reply out) =>
    if w.delivers out then
      (w.call.step lower p (p.maxAttempts none) (.reply out)).map fun call => ⟨call, w.requests⟩
    else none
  | .client event =>
    (w.call.step lower p (p.maxAttempts none) event).map fun call => ⟨call, w.requests⟩
  | .request i event =>
    ((w.requests[i]?).bind (·.step event)).map fun r => ⟨w.call, w.requests.set i r⟩

end Lower

/-- How often the command has been run. -/
def runs (w : ExecCall) : Nat := w.requests.countP (·.started)

/-- The condition on a step: when the client sends the request again, the command has not been run
for an earlier one, and will not be. -/
def Spent (w : ExecCall) : CallAction → Prop
  | .client .send => ∀ r ∈ w.requests, r.mayRun = false
  | _ => True

/-- The command is run at most once. -/
def Once (w : ExecCall) : Prop := w.runs ≤ 1

variable {lower : String → String} {p : ClientParams} {w w' : ExecCall} {r r' : ExecRequest}
  {event : ExecEvent}

/-- A step of the handlers on the side of the pool, or on the way to the end of a command. -/
inductive Moves (r r' : ExecRequest) : Prop
  | pool (hn : r'.node = r.node) (hs : r'.started = r.started)
      (hp : r'.pool.isEarly = true → r.pool.isEarly = true)
  | node (hr : r.mayRun = true) (hs : r.started = true → r'.started = true)
  | finished (out : Response ExecReply) (hn : r'.node = .replied out)
      (hs : r'.started = r.started)

theorem mayRun_of_started (h : r.started = true) : r.mayRun = true := by
  unfold ExecRequest.mayRun
  rw [h]
  rfl

theorem mayRun_of_node (h : r.node = .inFlight ∨ r.node = .waiting) : r.mayRun = true := by
  unfold ExecRequest.mayRun
  rcases h with h | h
  · rw [h]
    exact Bool.or_true _
  · rw [h]
    exact Bool.or_true _

theorem moves_step (h : r.step event = some r') : Moves r r' := by
  cases event with
  | lose =>
    simp only [ExecRequest.step] at h
    split_ifs at h
    cases h
    exact .pool rfl rfl nofun
  | receive =>
    simp only [ExecRequest.step] at h
    split_ifs at h with hpool
    cases h
    refine .pool rfl rfl fun _ => ?_
    rw [hpool]
    rfl
  | refuse status error =>
    simp only [ExecRequest.step] at h
    split_ifs at h
    cases h
    exact .pool rfl rfl nofun
  | forward =>
    simp only [ExecRequest.step] at h
    split_ifs at h with hboth
    cases h
    refine .node ?_ id
    unfold ExecRequest.mayRun
    rw [hboth.1, hboth.2]
    exact Bool.or_true _
  | loseAtNode =>
    simp only [ExecRequest.step] at h
    split_ifs at h with hnode
    cases h
    exact .node (mayRun_of_node (.inl hnode)) id
  | receiveAtNode =>
    simp only [ExecRequest.step] at h
    split_ifs at h with hnode
    cases h
    exact .node (mayRun_of_node (.inl hnode)) id
  | answerAtNode out =>
    simp only [ExecRequest.step] at h
    split_ifs at h with hnode
    cases h
    exact .node (mayRun_of_node (.inr hnode)) id
  | start =>
    simp only [ExecRequest.step] at h
    split_ifs at h with hnode
    cases h
    exact .node (mayRun_of_node (.inr hnode)) fun _ => rfl
  | finish out =>
    simp only [ExecRequest.step] at h
    split_ifs at h
    cases h
    exact .finished out rfl rfl
  | pass =>
    simp only [ExecRequest.step] at h
    split at h
    · cases h
      exact .pool rfl rfl nofun
    · cases h
  | failAtPool error =>
    simp only [ExecRequest.step] at h
    split_ifs at h
    cases h
    exact .pool rfl rfl nofun

/-- The handlers of a request that is spent do not run the command. -/
theorem mayRun_step (h : r.step event = some r') (hspent : r.mayRun = false) :
    r'.mayRun = false := by
  cases moves_step h with
  | pool hn hs hp =>
    unfold ExecRequest.mayRun at hspent ⊢
    rw [hn, hs]
    cases hnode : r.node with
    | unsent =>
      rw [hnode] at hspent
      obtain ⟨hstarted, hearly⟩ := Bool.or_eq_false_iff.mp hspent
      change r.pool.isEarly = false at hearly
      rw [hstarted, Bool.false_or]
      cases hlate : r'.pool.isEarly with
      | false => rfl
      | true =>
        rw [hp hlate] at hearly
        cases hearly
    | inFlight | waiting | running | replied | lost =>
      rw [hnode] at hspent
      exact hspent
  | node hr hs =>
    rw [hspent] at hr
    cases hr
  | finished out hn hs =>
    unfold ExecRequest.mayRun at hspent ⊢
    rw [hn, hs, (Bool.or_eq_false_iff.mp hspent).1]
    rfl

/-- At most one request has run the command or may still run it. -/
def Single (w : ExecCall) : Prop := w.requests.countP (·.mayRun) ≤ 1

theorem once_of_single (h : w.Single) : w.Once := by
  have hle : w.requests.countP (·.started) ≤ w.requests.countP (·.mayRun) :=
    List.countP_mono_left fun r _ hstarted => mayRun_of_started hstarted
  exact Nat.le_trans hle h

theorem countP_set_le {l : List ExecRequest} {i : Nat} {f : ExecRequest → Bool} (hr : l[i]? = some r)
    (hf : f r' = true → f r = true) : (l.set i r').countP f ≤ l.countP f := by
  obtain ⟨hi, hget⟩ := List.getElem?_eq_some_iff.mp hr
  rw [List.countP_set hi, hget]
  have hle : (if f r' = true then 1 else 0) ≤ if f r = true then 1 else 0 := by
    split_ifs with hnew hold
    · exact Nat.le_refl _
    · exact absurd (hf hnew) hold
    · exact Nat.zero_le _
    · exact Nat.le_refl _
  have hpos : (if f r = true then 1 else 0) ≤ l.countP f := by
    split_ifs with hold
    · exact List.countP_pos_iff.mpr ⟨r, List.mem_of_getElem? hr, hold⟩
    · exact Nat.zero_le _
  omega

theorem requests_client {event : ClientEvent ExecReply} (he : event ≠ .send)
    (h : w.next lower p (.client event) = some w') : w'.requests = w.requests := by
  cases event with
  | send => exact absurd rfl he
  | reply out =>
    simp only [next] at h
    split_ifs at h
    obtain ⟨call, -, rfl⟩ := Option.map_eq_some_iff.mp h
    rfl
  | fail text =>
    obtain ⟨call, -, rfl⟩ := Option.map_eq_some_iff.mp h
    rfl
  | wake =>
    obtain ⟨call, -, rfl⟩ := Option.map_eq_some_iff.mp h
    rfl
  | cancel =>
    obtain ⟨call, -, rfl⟩ := Option.map_eq_some_iff.mp h
    rfl

theorem requests_send (h : w.next lower p (.client .send) = some w') :
    w'.requests = w.requests ++ [.new] := by
  obtain ⟨call, -, rfl⟩ := Option.map_eq_some_iff.mp h
  rfl

theorem single_next {a : CallAction} (h : w.Single) (hg : w.Spent a)
    (hn : w.next lower p a = some w') : w'.Single := by
  cases a with
  | client event =>
    by_cases hsend : event = .send
    · subst hsend
      have hnone : w.requests.countP (·.mayRun) = 0 := by
        rw [List.countP_eq_zero]
        intro r hr
        rw [hg r hr]
        exact Bool.false_ne_true
      unfold Single
      rw [requests_send hn, List.countP_append, hnone]
      exact Nat.le_refl _
    · unfold Single
      rw [requests_client hsend hn]
      exact h
  | request i event =>
    obtain ⟨r', hr', rfl⟩ := Option.map_eq_some_iff.mp hn
    obtain ⟨r, hr, hstep⟩ := Option.bind_eq_some_iff.mp hr'
    refine Nat.le_trans (countP_set_le hr ?_) h
    intro hmay
    by_contra hspent
    rw [mayRun_step hstep ((Bool.not_eq_true _).mp hspent)] at hmay
    cases hmay

/-- What may still run can run. -/
theorem exec_mayRun (h : r.mayRun = true) :
    ∃ events r', exec ExecRequest.step r events = some r' ∧ r'.started = true := by
  obtain ⟨pool, node, started⟩ := r
  cases started with
  | true => exact ⟨[], _, rfl, rfl⟩
  | false =>
    cases node with
    | unsent =>
      cases pool with
      | inFlight => exact ⟨[.receive, .forward, .receiveAtNode, .start], _, rfl, rfl⟩
      | handling => exact ⟨[.forward, .receiveAtNode, .start], _, rfl, rfl⟩
      | calling | replied | lost => cases h
    | inFlight => exact ⟨[.receiveAtNode, .start], _, rfl, rfl⟩
    | waiting => exact ⟨[.start], _, rfl, rfl⟩
    | running | replied | lost => cases h

/-- The steps of one request are steps of the call. -/
theorem exec_requests {i : Nat} {events : List ExecEvent} (hr : w.requests[i]? = some r)
    (h : exec ExecRequest.step r events = some r') :
    exec (next lower p) w (events.map (.request i)) = some ⟨w.call, w.requests.set i r'⟩ := by
  induction events generalizing w r with
  | nil =>
    have hsame : r = r' := Option.some.inj h
    obtain ⟨hi, hget⟩ := List.getElem?_eq_some_iff.mp hr
    have hset : w.requests.set i r = w.requests := by
      rw [← hget]
      exact List.set_getElem_self hi
    rw [← hsame, hset]
    rfl
  | cons event events ih =>
    obtain ⟨t, ht, hrest⟩ := exec_cons_eq_some h
    obtain ⟨hi, -⟩ := List.getElem?_eq_some_iff.mp hr
    have hnext : w.next lower p (.request i event) = some ⟨w.call, w.requests.set i t⟩ := by
      change ((w.requests[i]?).bind (·.step event)).map _ = _
      rw [hr, Option.bind_some, ht]
      rfl
    have hagain := ih (w := ⟨w.call, w.requests.set i t⟩) (List.getElem?_set_self hi) hrest
    rw [List.map_cons, exec_cons_some hnext, hagain]
    dsimp only
    rw [List.set_set]

/-- Two places of a list where the predicate holds. -/
theorem two_le_countP {l : List ExecRequest} {f : ExecRequest → Bool} {i j : Nat} (hij : i < j)
    (hi : l[i]? = some r) (hj : l[j]? = some r') (hr : f r = true) (hr' : f r' = true) :
    2 ≤ l.countP f := by
  have hfirst : 0 < (l.take j).countP f := by
    have hmem : (l.take j)[i]? = some r := by
      rw [List.getElem?_take_of_lt hij]
      exact hi
    exact List.countP_pos_iff.mpr ⟨r, List.mem_of_getElem? hmem, hr⟩
  have hlast : 0 < (l.drop j).countP f := by
    have hmem : (l.drop j)[0]? = some r' := by
      rw [List.getElem?_drop]
      exact hj
    exact List.countP_pos_iff.mpr ⟨r', List.mem_of_getElem? hmem, hr'⟩
  have hsplit : l.countP f = (l.take j).countP f + (l.drop j).countP f := by
    rw [← List.countP_append, List.take_append_drop]
  omega

/-- A request that is sent again while an earlier one may run, or has run, can run the command
twice. -/
theorem reaches_twice {a : CallAction} (hg : ¬w.Spent a) (hn : w.next lower p a = some w') :
    Reaches (next lower p) (fun t => ¬t.Once) w' := by
  have hsend : a = .client .send := by
    by_contra hother
    apply hg
    unfold Spent
    split
    · exact absurd rfl hother
    · trivial
  subst hsend
  have hearlier : ∃ r ∈ w.requests, r.mayRun = true := by
    by_contra hnone
    apply hg
    intro r hr
    exact (Bool.not_eq_true _).mp fun hmay => hnone ⟨r, hr, hmay⟩
  obtain ⟨r, hmem, hmay⟩ := hearlier
  obtain ⟨i, hi⟩ := List.mem_iff_getElem?.mp hmem
  obtain ⟨hlt, -⟩ := List.getElem?_eq_some_iff.mp hi
  have hrequests := requests_send hn
  have hold : w'.requests[i]? = some r := by
    rw [hrequests, List.getElem?_append_left hlt]
    exact hi
  obtain ⟨first, r₁, hfirst, hstarted₁⟩ := exec_mayRun hmay
  have hrun₁ : exec (next lower p) w' (first.map (.request i)) =
      some ⟨w'.call, w'.requests.set i r₁⟩ := exec_requests hold hfirst
  have hnew : (w'.requests.set i r₁)[w.requests.length]? = some .new := by
    rw [List.getElem?_set_ne (Nat.ne_of_lt hlt), hrequests]
    exact List.getElem?_concat_length
  obtain ⟨second, r₂, hsecond, hstarted₂⟩ := exec_mayRun (r := .new) rfl
  have hrun₂ : exec (next lower p) ⟨w'.call, w'.requests.set i r₁⟩
      (second.map (.request w.requests.length)) =
        some ⟨w'.call, (w'.requests.set i r₁).set w.requests.length r₂⟩ :=
    exec_requests hnew hsecond
  refine ⟨_, _, (exec_append hrun₁ _).trans hrun₂, ?_⟩
  have hfirst' : ((w'.requests.set i r₁).set w.requests.length r₂)[i]? = some r₁ := by
    rw [List.getElem?_set_ne (Nat.ne_of_gt hlt)]
    exact List.getElem?_set_self (List.getElem?_eq_some_iff.mp hold).1
  have hsecond' : ((w'.requests.set i r₁).set w.requests.length r₂)[w.requests.length]? =
      some r₂ :=
    List.getElem?_set_self (List.getElem?_eq_some_iff.mp hnew).1
  have htwo := two_le_countP (f := (·.started)) hlt hfirst' hsecond' hstarted₁ hstarted₂
  unfold Once runs
  dsimp only
  omega

def defaultParams : ClientParams := ⟨3, 360, true, false⟩

instance (w : ExecCall) : ∀ a, Decidable (w.Spent a)
  | .client .send => inferInstanceAs (Decidable (∀ r ∈ w.requests, r.mayRun = false))
  | .client (.reply _) | .client (.fail _) | .client .wake | .client .cancel | .request _ _ =>
    .isTrue trivial

instance (w : ExecCall) : Decidable w.Once := inferInstanceAs (Decidable (w.runs ≤ 1))

/-- The first request is lost before the pool gets it, and the second runs the command. -/
def lostRun : List CallAction :=
  [.client .send, .request 0 .lose, .client (.fail "All connection attempts failed"), .client .wake,
    .client .send, .request 1 .receive, .request 1 .forward, .request 1 .receiveAtNode,
    .request 1 .start, .request 1 (.finish ⟨true, false, "", some ⟨0, "ok", false⟩⟩),
    .request 1 .pass, .client (.reply ⟨true, false, "", some ⟨0, "ok", false⟩⟩)]

end ExecCall

end Belayer.Client
