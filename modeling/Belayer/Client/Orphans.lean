import Belayer.Client.AllocateCall
import Belayer.Framework.Places

namespace Belayer.Client

open Belayer.Framework Belayer.Pool

/-- The call has ended. -/
def CallPhase.isEnded {β : Type*} : CallPhase β → Bool
  | .returned _ | .raised _ | .cancelled => true
  | .posting _ _ | .awaiting _ _ _ | .sleeping _ => false

namespace CreateStage

def isCreated : CreateStage → Bool
  | .created _ => true
  | .unsent | .inFlight | .creating | .failed | .lost => false

theorem isCreated_eq_false_iff {stage : CreateStage} :
    stage.isCreated = false ↔ ∀ containerId, stage ≠ .created containerId := by
  cases stage <;> simp [isCreated]

end CreateStage

/-- The request whose reply the call awaits. -/
def CallPhase.awaited? {β : Type*} : CallPhase β → Option Nat
  | .awaiting _ _ n => some n
  | .posting _ _ | .sleeping _ | .returned _ | .raised _ | .cancelled => none

namespace Handler

def isCommitted (h : Handler) : Bool :=
  match h.task with
  | .allocate _ .committed | .allocate _ .returned => true
  | _ => false

def isFinished (h : Handler) : Bool :=
  match h.task with
  | .allocate _ .returned | .allocate _ .raised | .close _ .done | .rerun _ .done => true
  | _ => false

/-- The exec server has nothing left to do for the handler. -/
def isNodeSettled (h : Handler) : Bool :=
  match h.node with
  | .inFlight | .creating => false
  | .unsent | .created _ | .failed | .lost => true

end Handler

namespace AllocationWorld

/-- The client still waits for the reply of the handler. -/
def Awaits (w : AllocationWorld) (h : Handler) : Prop :=
  ∃ c n a attempt via, h.request? = some (c, n) ∧ w.calls[c]? = some a ∧
    a.call.phase = .awaiting attempt via n

/-- A client has received the lease id. -/
def Received (w : AllocationWorld) (leaseId : String) : Prop :=
  ∃ (c : Nat) (a : AllocateCall) (out : Response String), w.calls[c]? = some a ∧
    a.call.phase = .returned out ∧ out.body = some leaseId

/-- All calls and requests have settled, and every lease id that was received is closed. -/
structure Settled (w : AllocationWorld) : Prop where
  calls : ∀ a ∈ w.calls, a.call.phase.isEnded = true
  inFlight : w.inFlight = []
  handlers : ∀ h ∈ w.handlers, h.isFinished = true ∧ h.isNodeSettled = true
  closed : ∀ leaseId, w.Received leaseId → leaseId ∉ w.pool.leases

/-- Nothing is left of the calls: no container, no lease, nothing in a counter. -/
structure Clean (w : AllocationWorld) : Prop where
  activeContainers : w.activeContainers = []
  leases : w.pool.leases = ∅
  nodes : ∀ n ∈ w.pool.nodes, n.activeContainers = 0
  pending : w.pool.pendingAllocations = 0

/-- The condition on a step. A client gives up a request for which no lease is made, and no lease
is made for a request that it has given up; the pool gives up a create for which there is no
container, and none is made for a create that it has given up. -/
def Kept (w : AllocationWorld) : AllocationAction → Prop
  | .client c (.fail _) | .client c .cancel =>
    ∀ h ∈ w.handlers, w.Awaits h → (h.request?).map (·.1) = some c → h.leaseId? = none
  | .handler i (.take _) => ∀ h ∈ w.handlers[i]?, w.Awaits h
  | .handler i .giveUp => ∀ h ∈ w.handlers[i]?, ∀ containerId, h.node ≠ .created containerId
  | .handler i (.create _) => ∀ h ∈ w.handlers[i]?, h.isCreating = true
  | _ => True

/-- What is known of a handler. -/
structure HandlerOk (w : AllocationWorld) (h : Handler) : Prop where
  shape : h.leaseId?.isSome = h.isCommitted
  pending : ∀ containerId, h.node = .created containerId → h.leaseId? = none → h.isCreating = true
  held : ∀ leaseId, h.leaseId? = some leaseId → ∃ containerId, h.node = .created containerId ∧
    ∀ lease, w.pool.leases.lookup leaseId = some lease → lease.containerId = containerId
  known : ∀ leaseId, h.leaseId? = some leaseId → leaseId ∈ w.pool.leases →
    w.Awaits h ∨ w.Received leaseId
  reply : ∀ status out, h.reply? = some (status, out) → h.isFinished = true ∧
    out.ok = h.leaseId?.isSome ∧ (out.ok = true → out.body = h.leaseId?)
  node : ∀ image k, h.task = .allocate image (.creating k) → k < w.pool.nodes.length

/-- The handler accounts for the container: it waits for the reply about it, or has its lease. -/
def Keeps (w : AllocationWorld) (containerId : String) (h : Handler) : Prop :=
  h.node = .created containerId ∧ ∀ leaseId, h.leaseId? = some leaseId → leaseId ∈ w.pool.leases

/-- The requests that are on their way or in a handler. -/
def requests (w : AllocationWorld) : List (Nat × Nat) :=
  w.inFlight ++ w.handlers.filterMap (·.request?)

/-- What holds in every run whose steps meet the condition. -/
structure Inv (w : AllocationWorld) : Prop where
  state : w.state.Inv
  handlers : ∀ h ∈ w.handlers, w.HandlerOk h
  requests : w.requests.Nodup
  sent : ∀ c n, (c, n) ∈ w.requests → ∃ a, w.calls[c]? = some a ∧ n < a.call.sent
  leases : ∀ leaseId ∈ w.pool.leases, ∃ h ∈ w.handlers, h.leaseId? = some leaseId
  containers : ∀ containerId ∈ w.activeContainers, ∃ h ∈ w.handlers, w.Keeps containerId h

variable {lower : String → String} {p : ClientParams} {w w' : AllocationWorld} {h h' : Handler}
  {i : Nat} {leaseId containerId : String}

/-- A finished task has nothing in the counters. -/
theorem counts_of_finished (hf : h.isFinished = true) :
    (∀ k, h.task.reserves k = 0) ∧ (∀ url, h.task.vacates url = 0) ∧ h.task.slots = 0 := by
  unfold Handler.isFinished at hf
  split at hf
  · rename_i htask
    rw [htask]
    exact ⟨fun _ => rfl, fun _ => rfl, rfl⟩
  · rename_i htask
    rw [htask]
    exact ⟨fun _ => rfl, fun _ => rfl, rfl⟩
  · rename_i htask
    rw [htask]
    exact ⟨fun _ => rfl, fun _ => rfl, rfl⟩
  · rename_i htask
    rw [htask]
    exact ⟨fun _ => rfl, fun _ => rfl, rfl⟩
  · cases hf

theorem tally_settled (hs : w.Settled) (f : PoolTask → Nat)
    (hf : ∀ h : Handler, h.isFinished = true → f h.task = 0) : tally f w.state.tasks = 0 := by
  apply tally_eq_zero
  intro t ht
  obtain ⟨h, hh, rfl⟩ := List.mem_map.mp ht
  exact hf h (hs.handlers h hh).1

/-- A settled world in which the condition was met is clean. -/
theorem clean_of_inv (hw : w.Inv) (hs : w.Settled) : w.Clean := by
  have hnone : ∀ leaseId, leaseId ∉ w.pool.leases := by
    intro leaseId hmem
    obtain ⟨h, hh, hlease⟩ := hw.leases leaseId hmem
    rcases (hw.handlers h hh).known leaseId hlease hmem with hawaits | hreceived
    · obtain ⟨c, n, a, attempt, via, -, ha, hphase⟩ := hawaits
      have hended := hs.calls a (List.mem_of_getElem? ha)
      rw [hphase] at hended
      cases hended
    · exact hs.closed leaseId hreceived hmem
  have hempty : w.pool.leases = ∅ := by
    apply AList.ext
    apply List.eq_nil_iff_forall_not_mem.mpr
    intro e he
    exact hnone e.1 (List.mem_map_of_mem he)
  have hon : ∀ url, w.pool.leasesOn url = 0 := by
    intro url
    unfold SweEnvPool.leasesOn
    rw [hempty]
    rfl
  refine ⟨?_, hempty, ?_, ?_⟩
  · apply List.eq_nil_iff_forall_not_mem.mpr
    intro containerId hmem
    obtain ⟨h, hh, hnode, hkept⟩ := hw.containers containerId hmem
    have hok := hw.handlers h hh
    cases hlease : h.leaseId? with
    | none =>
      have hcreating := hok.pending containerId hnode hlease
      have hfinished := (hs.handlers h hh).1
      unfold Handler.isCreating at hcreating
      split at hcreating
      · rename_i htask
        unfold Handler.isFinished at hfinished
        rw [htask] at hfinished
        cases hfinished
      · cases hcreating
    | some leaseId => exact hnone leaseId (hkept leaseId hlease)
  · intro n hn
    obtain ⟨k, hk⟩ := List.mem_iff_getElem?.mp hn
    have hactive := hw.state.counted.active k n hk
    have hr := tally_settled hs (·.reserves k) fun h hf => (counts_of_finished hf).1 k
    have hv := tally_settled hs (·.vacates n.url) fun h hf => (counts_of_finished hf).2.1 n.url
    have hzero : w.state.pool.leasesOn n.url = 0 := hon n.url
    omega
  · have hpending := hw.state.counted.pending
    have hslots := tally_settled hs (·.slots) fun h hf => (counts_of_finished hf).2.2
    change w.pool.pendingAllocations = _ at hpending
    rw [hpending, hslots]
    split_ifs <;> rfl

/-- A handler of which the pool and the nodes have changed nothing. -/
theorem HandlerOk.frame (hok : w.HandlerOk h)
    (hlookup : ∀ leaseId, h.leaseId? = some leaseId →
      w'.pool.leases.lookup leaseId = w.pool.leases.lookup leaseId)
    (hknown : ∀ leaseId, h.leaseId? = some leaseId → w.Awaits h ∨ w.Received leaseId →
      w'.Awaits h ∨ w'.Received leaseId)
    (hnodes : w.pool.nodes.length ≤ w'.pool.nodes.length) : w'.HandlerOk h := by
  have hmem : ∀ leaseId, h.leaseId? = some leaseId →
      (leaseId ∈ w'.pool.leases ↔ leaseId ∈ w.pool.leases) := by
    intro leaseId hlease
    rw [← AList.lookup_isSome, ← AList.lookup_isSome, hlookup leaseId hlease]
  refine ⟨hok.shape, hok.pending, ?_, ?_, hok.reply, ?_⟩
  · intro leaseId hlease
    obtain ⟨containerId, hnode, hcontainer⟩ := hok.held leaseId hlease
    refine ⟨containerId, hnode, ?_⟩
    rw [hlookup leaseId hlease]
    exact hcontainer
  · intro leaseId hlease hin
    exact hknown leaseId hlease (hok.known leaseId hlease ((hmem leaseId hlease).mp hin))
  · intro image k htask
    exact Nat.lt_of_lt_of_le (hok.node image k htask) hnodes

theorem awaits_congr (hc : w'.calls = w.calls) (hr : h'.request? = h.request?) :
    w'.Awaits h' ↔ w.Awaits h := by
  unfold Awaits
  rw [hc, hr]

theorem received_congr (hc : w'.calls = w.calls) : w'.Received leaseId ↔ w.Received leaseId := by
  unfold Received
  rw [hc]

theorem known_congr (hc : w'.calls = w.calls) (hk : w.Awaits h ∨ w.Received leaseId) :
    w'.Awaits h ∨ w'.Received leaseId := by
  rw [awaits_congr hc rfl, received_congr hc]
  exact hk

/-- A handler, in a world with the same pool and the same calls. -/
theorem HandlerOk.same (hok : w.HandlerOk h) (hp : w'.pool = w.pool) (hc : w'.calls = w.calls) :
    w'.HandlerOk h := by
  refine hok.frame ?_ (fun _ _ hk => known_congr hc hk) ?_
  · intro _ _
    rw [hp]
  · rw [hp]

/-- A step of one handler. -/
theorem Inv.set (hw : w.Inv) (hi : w.handlers[i]? = some h) (hcalls : w'.calls = w.calls)
    (hflight : w'.inFlight = w.inFlight) (hhandlers : w'.handlers = w.handlers.set i h')
    (hrequest : h'.request? = h.request?) (hstate : w'.state.Inv) (hok : w'.HandlerOk h')
    (hothers : ∀ g ∈ w.handlers, w.HandlerOk g → w'.HandlerOk g)
    (hleases : ∀ leaseId ∈ w'.pool.leases, h'.leaseId? = some leaseId ∨ leaseId ∈ w.pool.leases)
    (hlease : ∀ leaseId, h.leaseId? = some leaseId → h'.leaseId? = some leaseId)
    (hcontainers : ∀ containerId ∈ w'.activeContainers,
      w'.Keeps containerId h' ∨ containerId ∈ w.activeContainers)
    (hkeeps : ∀ containerId ∈ w'.activeContainers, ∀ g ∈ w.handlers, w.Keeps containerId g →
      w'.Keeps containerId g)
    (hkeep : ∀ containerId ∈ w'.activeContainers, w.Keeps containerId h → w'.Keeps containerId h') :
    w'.Inv := by
  obtain ⟨hlt, -⟩ := List.getElem?_eq_some_iff.mp hi
  have hnew : h' ∈ w'.handlers := by
    rw [hhandlers]
    exact List.mem_set hlt h'
  have hold : ∀ g ∈ w.handlers, g = h ∨ g ∈ w'.handlers := by
    intro g hg
    obtain ⟨j, hj⟩ := List.mem_iff_getElem?.mp hg
    by_cases hij : i = j
    · rw [← hij, hi] at hj
      exact .inl (Option.some.inj hj).symm
    · rw [hhandlers]
      refine .inr (List.mem_of_getElem? (i := j) ?_)
      rw [List.getElem?_set_ne hij]
      exact hj
  have hrequests : w'.requests = w.requests := by
    unfold AllocationWorld.requests
    rw [hflight, hhandlers, filterMap_set hi hrequest]
  refine ⟨hstate, ?_, ?_, ?_, ?_, ?_⟩
  · intro g hg
    rw [hhandlers] at hg
    rcases mem_set_cases hg with rfl | ⟨j, -, hj⟩
    · exact hok
    · have hmem := List.mem_of_getElem? hj
      exact hothers g hmem (hw.handlers g hmem)
  · rw [hrequests]
    exact hw.requests
  · rw [hrequests, hcalls]
    exact hw.sent
  · intro leaseId hmem
    rcases hleases leaseId hmem with hlease' | hbefore
    · exact ⟨h', hnew, hlease'⟩
    · obtain ⟨g, hg, hglease⟩ := hw.leases leaseId hbefore
      rcases hold g hg with rfl | hg'
      · exact ⟨h', hnew, hlease leaseId hglease⟩
      · exact ⟨g, hg', hglease⟩
  · intro containerId hmem
    rcases hcontainers containerId hmem with hkept | hbefore
    · exact ⟨h', hnew, hkept⟩
    · obtain ⟨g, hg, hkept⟩ := hw.containers containerId hbefore
      rcases hold g hg with rfl | hg'
      · exact ⟨h', hnew, hkeep containerId hmem hkept⟩
      · exact ⟨g, hg', hkeeps containerId hmem g hg hkept⟩

/-- The tasks are as they were. -/
theorem state_set (h' : Handler) (hi : w.handlers[i]? = some h) (ht : h'.task = h.task)
    {active : List String} :
    ({ w with handlers := w.handlers.set i h', activeContainers := active } :
      AllocationWorld).state = w.state := by
  obtain ⟨hlt, hget⟩ := List.getElem?_eq_some_iff.mp hi
  have hsame : w.handlers.set i h = w.handlers := by
    rw [← hget]
    exact List.set_getElem_self hlt
  unfold state
  dsimp only
  rw [List.map_set, ht, ← List.map_set, hsame]

/-- A lease comes with a container. -/
theorem HandlerOk.no_lease (hok : w.HandlerOk h)
    (hnode : ∀ containerId, h.node ≠ .created containerId) : h.leaseId? = none := by
  cases hlease : h.leaseId? with
  | none => rfl
  | some leaseId =>
    obtain ⟨containerId, hcreated, -⟩ := hok.held leaseId hlease
    exact absurd hcreated (hnode containerId)

/-- Another stage of the create, for a handler without a lease. -/
theorem HandlerOk.restage (hok : w.HandlerOk h) (hlease : h.leaseId? = none) {node : CreateStage}
    (hpending : ∀ containerId, node = .created containerId → h.isCreating = true) :
    w.HandlerOk { h with node := node } := by
  have hnone : ∀ {P : Prop} {leaseId : String}, h.leaseId? = some leaseId → P := by
    intro P leaseId hsome
    rw [hlease] at hsome
    cases hsome
  exact ⟨hok.shape, fun containerId hnode _ => hpending containerId hnode, fun _ => hnone,
    fun _ => hnone, hok.reply, hok.node⟩

/-- An event of the exec server, or on the way there, that makes no container. -/
theorem inv_node (hw : w.Inv) (hi : w.handlers[i]? = some h) {stage node : CreateStage}
    (hstage : h.node = stage) (hold : ∀ containerId, stage ≠ .created containerId)
    (hnew : ∀ containerId, node ≠ .created containerId) :
    Inv { w with handlers := w.handlers.set i { h with node := node } } := by
  subst hstage
  have hok := hw.handlers h (List.mem_of_getElem? hi)
  have hrestaged : w.HandlerOk { h with node := node } :=
    hok.restage (hok.no_lease hold) fun containerId hnode => absurd hnode (hnew containerId)
  refine hw.set hi rfl rfl rfl rfl ?_ (hrestaged.same rfl rfl) (fun g _ hg => hg.same rfl rfl)
    (fun leaseId hmem => .inr hmem) (fun leaseId hsome => hsome)
    (fun containerId hmem => .inr hmem) (fun _ _ _ _ hkept => hkept) ?_
  · rw [state_set { h with node := node } hi rfl]
    exact hw.state
  · intro containerId _ hkept
    exact absurd hkept.1 (hold containerId)

/-- A container is made for a create that the pool waits for. -/
theorem inv_create (hw : w.Inv) (hi : w.handlers[i]? = some h) (hstage : h.node = .creating)
    (hcreating : h.isCreating = true) :
    Inv { w with
      handlers := w.handlers.set i { h with node := .created containerId }
      activeContainers := w.activeContainers.insert containerId } := by
  have hok := hw.handlers h (List.mem_of_getElem? hi)
  have hnode : ∀ containerId, h.node ≠ .created containerId := by
    intro containerId
    rw [hstage]
    exact CreateStage.noConfusion
  have hlease : h.leaseId? = none := hok.no_lease hnode
  have hrestaged : w.HandlerOk { h with node := .created containerId } :=
    hok.restage hlease fun _ _ => hcreating
  refine hw.set hi rfl rfl rfl rfl ?_ (hrestaged.same rfl rfl) (fun g _ hg => hg.same rfl rfl)
    (fun leaseId hmem => .inr hmem) (fun leaseId hsome => hsome) ?_
    (fun _ _ _ _ hkept => hkept) ?_
  · rw [state_set { h with node := .created containerId } hi rfl]
    exact hw.state
  · intro other hmem
    rcases List.mem_insert_iff.mp hmem with rfl | hmem
    · refine .inl ⟨rfl, ?_⟩
      intro leaseId hsome
      change h.leaseId? = some leaseId at hsome
      rw [hlease] at hsome
      cases hsome
    · exact .inr hmem
  · intro other _ hkept
    exact absurd hkept.1 (hnode other)

/-- The reply of a handler that has ended. -/
theorem inv_answer (hw : w.Inv) (hi : w.handlers[i]? = some h) {status : Nat}
    {out : Response String} (ha : h.answers status out = true) :
    Inv { w with handlers := w.handlers.set i { h with reply? := some (status, out) } } := by
  have hok := hw.handlers h (List.mem_of_getElem? hi)
  refine hw.set hi rfl rfl rfl rfl ?_ ?_ ?_ (fun leaseId hmem => .inr hmem)
    (fun leaseId hsome => hsome) (fun containerId hmem => .inr hmem) (fun _ _ _ _ hkept => hkept)
    (fun _ _ hkept => hkept)
  · rw [state_set { h with reply? := some (status, out) } hi rfl]
    exact hw.state
  · refine ⟨hok.shape, hok.pending, hok.held, hok.known, ?_, hok.node⟩
    intro status' out' hreply
    cases hreply
    have hshape : h.leaseId?.isSome = h.isCommitted := hok.shape
    change h.isFinished = true ∧ out.ok = h.leaseId?.isSome ∧ (out.ok = true → out.body = h.leaseId?)
    rw [hshape]
    unfold Handler.answers at ha
    unfold Handler.isFinished Handler.isCommitted
    split at ha
    · rename_i htask
      rw [htask]
      obtain ⟨-, hout⟩ := Bool.and_eq_true_iff.mp ha
      rw [of_decide_eq_true hout]
      exact ⟨rfl, rfl, fun _ => rfl⟩
    · rename_i htask
      rw [htask]
      have hfailed : out.ok = false := by simpa using ha
      rw [hfailed]
      exact ⟨rfl, rfl, nofun⟩
    · cases ha
  · intro g _ hg
    exact hg.same rfl rfl

/-- A task that has ended takes no step. -/
theorem taskStep_finished {s : PoolState} {reply : Pool.ExecReply} (hf : h.isFinished = true) :
    s.taskStep reply h.task = none := by
  unfold Handler.isFinished at hf
  split at hf
  · rename_i htask
    rw [htask]
    rfl
  · rename_i htask
    rw [htask]
    rfl
  · rename_i htask
    rw [htask]
    rfl
  · rename_i htask
    rw [htask]
    rfl
  · cases hf

theorem length_setActive (pool : SweEnvPool) (k : Nat) (count : Int) :
    (pool.setActive k count).nodes.length = pool.nodes.length :=
  List.length_modify _ _ _

/-- What a step with a failure, or without a reply, does for the leases. -/
structure Quiet (pool pool' : SweEnvPool) (t t' : PoolTask) : Prop where
  leases : pool'.leases = pool.leases
  nodes : pool'.nodes.length = pool.nodes.length
  committed : ∀ h : Handler, Handler.isCommitted { h with task := t' } =
    Handler.isCommitted { h with task := t }
  creating : ∀ image k, t' = .allocate image (.creating k) → k < pool'.nodes.length

theorem quiet_of {pool pool' : SweEnvPool} {t t' : PoolTask} (hl : pool'.leases = pool.leases)
    (hn : pool'.nodes.length = pool.nodes.length)
    (hc : ∀ h : Handler, Handler.isCommitted { h with task := t' } =
      Handler.isCommitted { h with task := t })
    (ht : ∀ h : Handler, Handler.isCreating { h with task := t' } = false) :
    Quiet pool pool' t t' := by
  refine ⟨hl, hn, hc, ?_⟩
  intro image k htask
  have hcreating := ht ⟨t', none, .unsent, none, none⟩
  rw [htask] at hcreating
  cases hcreating

theorem quiet_same {pool : SweEnvPool} {t t' : PoolTask}
    (hc : ∀ h : Handler, Handler.isCommitted { h with task := t' } =
      Handler.isCommitted { h with task := t })
    (ht : ∀ h : Handler, Handler.isCreating { h with task := t' } = false) : Quiet pool pool t t' :=
  quiet_of rfl rfl hc ht

theorem quiet_releaseTotalSlot {pool : SweEnvPool} {t t' : PoolTask}
    (hc : ∀ h : Handler, Handler.isCommitted { h with task := t' } =
      Handler.isCommitted { h with task := t })
    (ht : ∀ h : Handler, Handler.isCreating { h with task := t' } = false) :
    Quiet pool pool.releaseTotalSlot t t' := by
  unfold SweEnvPool.releaseTotalSlot
  split_ifs
  · exact quiet_same hc ht
  · exact quiet_of rfl rfl hc ht

theorem quiet_reserveTotalSlot {pool pool' : SweEnvPool} {t t' : PoolTask}
    (h : pool.reserveTotalSlot = some pool')
    (hc : ∀ h : Handler, Handler.isCommitted { h with task := t' } =
      Handler.isCommitted { h with task := t })
    (ht : ∀ h : Handler, Handler.isCreating { h with task := t' } = false) :
    Quiet pool pool' t t' := by
  unfold SweEnvPool.reserveTotalSlot at h
  split_ifs at h
  · cases h
    exact quiet_same hc ht
  · cases h
    exact quiet_of rfl rfl hc ht

/-- The creation starts on a node of the pool. -/
theorem quiet_pick {pool pool' : SweEnvPool} {image : String} {k : Nat}
    (h : pool.pickAndReserveNode = some (k, pool')) :
    Quiet pool pool' (.allocate image .reserved) (.allocate image (.creating k)) := by
  obtain ⟨j, hj, he⟩ := Option.map_eq_some_iff.mp h
  cases he
  obtain ⟨n, hn, -⟩ := SweEnvPool.pickNode_spec hj
  have hlength := length_setActive pool k (pool.active k + 1)
  refine ⟨rfl, hlength, fun _ => rfl, ?_⟩
  intro image' k' htask
  obtain ⟨-, hphase⟩ := PoolTask.allocate.inj htask
  rw [← AllocatePhase.creating.inj hphase, hlength]
  exact (List.getElem?_eq_some_iff.mp hn).1

theorem quiet_taskStep {s : PoolState} {r : SweEnvPool × PoolTask} {t : PoolTask}
    (hr : s.taskStep .failed t = some r) : Quiet s.pool r.1 t r.2 := by
  cases t with
  | allocate image phase =>
    obtain ⟨q, hq, rfl⟩ := Option.map_eq_some_iff.mp hr
    cases phase with
    | entered =>
      simp only [PoolState.allocateStep] at hq
      split at hq
      · cases hq
        exact quiet_same (fun _ => rfl) (fun _ => rfl)
      · rename_i pool' hpool
        cases hq
        exact quiet_reserveTotalSlot hpool (fun _ => rfl) (fun _ => rfl)
    | reserved =>
      simp only [PoolState.allocateStep] at hq
      split at hq
      · cases hq
        exact quiet_same (fun _ => rfl) (fun _ => rfl)
      · rename_i k pool' hpick
        cases hq
        exact quiet_pick hpick
    | creating k =>
      simp only [PoolState.allocateStep] at hq
      cases hq
      exact quiet_same (fun _ => rfl) (fun _ => rfl)
    | failing k =>
      cases hq
      exact quiet_of rfl (length_setActive _ _ _) (fun _ => rfl) (fun _ => rfl)
    | releasing | committed =>
      cases hq
      exact quiet_releaseTotalSlot (fun _ => rfl) (fun _ => rfl)
    | returned | raised => cases hq
  | close leaseId phase =>
    obtain ⟨q, hq, rfl⟩ := Option.map_eq_some_iff.mp hr
    cases phase with
    | started | destroying =>
      cases hq
      exact quiet_same (fun _ => rfl) (fun _ => rfl)
    | found =>
      simp only [PoolState.closeStep] at hq
      split_ifs at hq <;> cases hq <;> exact quiet_same (fun _ => rfl) (fun _ => rfl)
    | popped url =>
      simp only [PoolState.closeStep] at hq
      split at hq
      · cases hq
        exact quiet_same (fun _ => rfl) (fun _ => rfl)
      · cases hq
        exact quiet_of rfl (length_setActive _ _ _) (fun _ => rfl) (fun _ => rfl)
    | done => cases hq
  | rerun leaseId phase =>
    obtain ⟨q, hq, rfl⟩ := Option.map_eq_some_iff.mp hr
    cases phase with
    | started =>
      cases hq
      exact quiet_same (fun _ => rfl) (fun _ => rfl)
    | found =>
      simp only [PoolState.rerunStep] at hq
      split_ifs at hq <;> cases hq <;> exact quiet_same (fun _ => rfl) (fun _ => rfl)
    | rerunning =>
      simp only [PoolState.rerunStep] at hq
      cases hq
      exact quiet_same (fun _ => rfl) (fun _ => rfl)
    | done => cases hq

/-- The pool's own invariant over a step of a handler. -/
theorem state_stepTask {reply : Pool.ExecReply} {r : SweEnvPool × PoolTask} {active : List String}
    (hw : w.Inv) (hi : w.handlers[i]? = some h) (ht : h'.task = r.2)
    (hr : w.state.taskStep reply h.task = some r) :
    ({ w with pool := r.1, handlers := w.handlers.set i h', activeContainers := active } :
      AllocationWorld).state.Inv := by
  have hnext : w.state.next (.step i reply) = some ⟨r.1, w.state.tasks.set i r.2⟩ := by
    have htask : w.state.tasks[i]? = some h.task := by
      change (w.handlers.map (·.task))[i]? = _
      rw [List.getElem?_map, hi]
      rfl
    simp only [PoolState.next, htask, hr]
    rfl
  have hinv := hw.state.next hnext
  unfold state
  dsimp only
  rw [List.map_set, ht]
  exact hinv

/-- A step of a handler that changes no lease. -/
theorem inv_quiet {r : SweEnvPool × PoolTask} (hw : w.Inv) (hi : w.handlers[i]? = some h)
    (hr : w.state.taskStep .failed h.task = some r)
    (hpending : h.isCreating = true → ∀ containerId, h.node ≠ .created containerId)
    {active : List String} (hactive : ∀ containerId ∈ active, containerId ∈ w.activeContainers) :
    Inv { w with
      pool := r.1
      handlers := w.handlers.set i { h with task := r.2 }
      activeContainers := active } := by
  have hok := hw.handlers h (List.mem_of_getElem? hi)
  obtain ⟨hleases, hnodes, hcommitted, hcreating⟩ := quiet_taskStep hr
  change r.1.leases = w.pool.leases at hleases
  change r.1.nodes.length = w.pool.nodes.length at hnodes
  have hframe : ∀ g, w.HandlerOk g → HandlerOk { w with
      pool := r.1
      handlers := w.handlers.set i { h with task := r.2 }
      activeContainers := active } g := by
    intro g hg
    refine hg.frame ?_ (fun _ _ hk => hk) hnodes.ge
    intro leaseId _
    dsimp only
    rw [hleases]
  have hkeeps : ∀ containerId g, w.Keeps containerId g → Keeps { w with
      pool := r.1
      handlers := w.handlers.set i { h with task := r.2 }
      activeContainers := active } containerId g := by
    intro containerId g hkept
    refine ⟨hkept.1, ?_⟩
    dsimp only
    rw [hleases]
    exact hkept.2
  refine hw.set hi rfl rfl rfl rfl ?_ ?_ (fun g _ hg => hframe g hg) ?_
    (fun leaseId hsome => hsome) ?_ (fun containerId _ g _ hkept => hkeeps containerId g hkept)
    (fun containerId _ hkept => hkeeps containerId h hkept)
  · exact state_stepTask hw hi rfl hr
  · have hold := hframe h hok
    refine ⟨hold.shape.trans (hcommitted h).symm, ?_, hold.held, hold.known, ?_, hcreating⟩
    · intro containerId hnode hnone
      have hbefore := hok.pending containerId hnode hnone
      exact absurd hnode (hpending hbefore containerId)
    · intro status out hreply
      have hfinished := (hok.reply status out hreply).1
      rw [taskStep_finished hfinished] at hr
      cases hr
  · intro leaseId hmem
    dsimp only at hmem
    rw [hleases] at hmem
    exact .inr hmem
  · intro containerId hmem
    exact .inr (hactive containerId hmem)

/-- The pool makes a lease for a request that its client still waits for. -/
theorem inv_take {r : SweEnvPool × PoolTask} (hw : w.Inv) (hi : w.handlers[i]? = some h)
    (hnode : h.node = .created containerId) (hcreating : h.isCreating = true)
    (hfresh : ∀ g ∈ w.handlers, g.leaseId? ≠ some leaseId) (hawaits : w.Awaits h)
    (hr : w.state.taskStep (.ok containerId leaseId) h.task = some r) :
    Inv { w with
      pool := r.1
      handlers := w.handlers.set i { h with leaseId? := some leaseId, task := r.2 } } := by
  have hok := hw.handlers h (List.mem_of_getElem? hi)
  unfold Handler.isCreating at hcreating
  split at hcreating
  · rename_i image k htask
    have hlease : h.leaseId? = none := by
      have hshape := hok.shape
      unfold Handler.isCommitted at hshape
      rw [htask] at hshape
      exact Option.isSome_eq_false_iff.mp hshape |> Option.isNone_iff_eq_none.mp
    have hlt : k < w.pool.nodes.length := hok.node image k htask
    have hget : w.state.pool.nodes[k]? = some w.pool.nodes[k] := List.getElem?_eq_getElem hlt
    have hstate : ∀ active : List String, ({ w with
        pool := r.1
        handlers := w.handlers.set i { h with leaseId? := some leaseId, task := r.2 }
        activeContainers := active } : AllocationWorld).state.Inv :=
      fun active => state_stepTask hw hi rfl hr
    rw [htask] at hr
    obtain ⟨q, hq, rfl⟩ := Option.map_eq_some_iff.mp hr
    simp only [PoolState.allocateStep, hget] at hq
    split_ifs at hq with hold
    cases hq
    have hother : ∀ (pool : SweEnvPool) (l : String), l ≠ leaseId →
        (AList.insert leaseId (Lease.start (w.pool.nodes[k]).url containerId image)
          pool.leases).lookup l = pool.leases.lookup l :=
      fun pool l hne => AList.lookup_insert_ne hne
    refine hw.set hi rfl rfl rfl rfl (hstate w.activeContainers) ?_ ?_ ?_ ?_
      (fun other hmem => .inr hmem) ?_ ?_
    · refine ⟨rfl, ?_, ?_, ?_, ?_, ?_⟩
      · intro _ _ hnone
        cases hnone
      · intro l hl
        obtain rfl : leaseId = l := Option.some.inj hl
        refine ⟨containerId, hnode, ?_⟩
        intro lease hlookup
        have hnew : some (Lease.start (w.pool.nodes[k]).url containerId image) = some lease :=
          (AList.lookup_insert _).symm.trans hlookup
        rw [← Option.some.inj hnew]
        rfl
      · intro l _ _
        exact .inl ((awaits_congr (w := w) (h := h) rfl rfl).mpr hawaits)
      · intro status out hreply
        have hfinished := (hok.reply status out hreply).1
        unfold Handler.isFinished at hfinished
        rw [htask] at hfinished
        cases hfinished
      · intro _ _ hcommitted
        cases hcommitted
    · intro g hmem hg
      refine hg.frame ?_ (fun _ _ hk => hk) le_rfl
      intro l hl
      apply hother w.pool l
      intro hsame
      rw [hsame] at hl
      exact hfresh g hmem hl
    · intro l hmem
      rcases (AList.mem_insert _).mp hmem with rfl | hmem
      · exact .inl rfl
      · exact .inr hmem
    · intro l hl
      rw [hlease] at hl
      cases hl
    · intro other _ g _ hkept
      refine ⟨hkept.1, ?_⟩
      intro l hl
      exact (AList.mem_insert _).mpr (.inr (hkept.2 l hl))
    · intro other _ hkept
      refine ⟨hkept.1, ?_⟩
      intro l hl
      obtain rfl : leaseId = l := Option.some.inj hl
      exact (AList.mem_insert _).mpr (.inl rfl)
  · cases hcreating

/-- A lease is popped, and its container is destroyed. -/
theorem inv_pop {lease : Lease} (hw : w.Inv) (hi : w.handlers[i]? = some h)
    (ht : h.task = .close leaseId .destroying) (hl : w.pool.leases.lookup leaseId = some lease) :
    Inv { w with
      pool := { w.pool with leases := AList.erase leaseId w.pool.leases }
      handlers := w.handlers.set i { h with task := .close leaseId (.popped lease.nodeUrl) }
      activeContainers := w.activeContainers.filter (· ≠ lease.containerId) } := by
  have hok := hw.handlers h (List.mem_of_getElem? hi)
  have hr : w.state.taskStep (.ok "" "") h.task =
      some ({ w.pool with leases := AList.erase leaseId w.pool.leases },
        .close leaseId (.popped lease.nodeUrl)) := by
    have hlookup : w.state.pool.leases.lookup leaseId = some lease := hl
    rw [ht]
    simp only [PoolState.taskStep, PoolState.closeStep, hlookup]
    rfl
  have hothers : ∀ g, w.HandlerOk g → HandlerOk { w with
      pool := { w.pool with leases := AList.erase leaseId w.pool.leases }
      handlers := w.handlers.set i { h with task := .close leaseId (.popped lease.nodeUrl) }
      activeContainers := w.activeContainers.filter (· ≠ lease.containerId) } g := by
    intro g hg
    by_cases hsame : g.leaseId? = some leaseId
    · refine ⟨hg.shape, hg.pending, ?_, ?_, hg.reply, hg.node⟩
      · intro l hlease
        obtain rfl : leaseId = l := Option.some.inj (hsame.symm.trans hlease)
        obtain ⟨other, hnode, -⟩ := hg.held leaseId hlease
        refine ⟨other, hnode, ?_⟩
        intro lease' hlookup
        dsimp only at hlookup
        rw [AList.lookup_erase] at hlookup
        cases hlookup
      · intro l hlease hmem
        obtain rfl : leaseId = l := Option.some.inj (hsame.symm.trans hlease)
        exact absurd rfl (AList.mem_erase.mp hmem).1
    · refine hg.frame ?_ (fun _ _ hk => hk) le_rfl
      intro l hlease
      apply AList.lookup_erase_ne
      intro heq
      rw [heq] at hlease
      exact hsame hlease
  -- a handler with the popped lease accounts only for the container that is destroyed
  have hkeeps : ∀ other ∈ w.activeContainers.filter (· ≠ lease.containerId), ∀ g ∈ w.handlers,
      w.Keeps other g → Keeps { w with
        pool := { w.pool with leases := AList.erase leaseId w.pool.leases }
        handlers := w.handlers.set i { h with task := .close leaseId (.popped lease.nodeUrl) }
        activeContainers := w.activeContainers.filter (· ≠ lease.containerId) } other g := by
    intro other hmem g hg hkept
    refine ⟨hkept.1, ?_⟩
    intro l hlease
    refine AList.mem_erase.mpr ⟨?_, hkept.2 l hlease⟩
    intro hsame
    obtain ⟨c, hnode, hcontainer⟩ := (hw.handlers g hg).held l hlease
    obtain rfl : other = c := CreateStage.created.inj (hkept.1.symm.trans hnode)
    rw [hsame] at hcontainer
    exact of_decide_eq_true (List.mem_filter.mp hmem).2 (hcontainer lease hl).symm
  refine hw.set hi rfl rfl rfl rfl (state_stepTask hw hi rfl hr) ?_ (fun g _ hg => hothers g hg) ?_
    (fun l hlease => hlease) ?_ hkeeps (fun other hmem => hkeeps other hmem h (List.mem_of_getElem? hi))
  · have hold := hothers h hok
    have hshape := hok.shape
    unfold Handler.isCommitted at hshape
    rw [ht] at hshape
    have hnone : h.leaseId? = none := Option.isNone_iff_eq_none.mp (Option.isSome_eq_false_iff.mp hshape)
    refine ⟨?_, ?_, hold.held, hold.known, ?_, ?_⟩
    · dsimp only
      rw [hnone]
      rfl
    · intro other hnode hlease
      have hcreating := hok.pending other hnode hlease
      unfold Handler.isCreating at hcreating
      rw [ht] at hcreating
      cases hcreating
    · intro status out hreply
      have hfinished := (hok.reply status out hreply).1
      unfold Handler.isFinished at hfinished
      rw [ht] at hfinished
      cases hfinished
    · intro _ _ hpopped
      cases hpopped
  · intro l hmem
    exact .inr (AList.mem_erase.mp hmem).2
  · intro other hmem
    exact .inr (List.mem_filter.mp hmem).1

/-- The destroy of a close, with or without the reply that lets the pool pop the lease. -/
theorem inv_destroy {isDone isAnswered : Bool} (hw : w.Inv) (hi : w.handlers[i]? = some h)
    (hs : w.stepHandler i h (.destroy isDone isAnswered) = some w') : w'.Inv := by
  simp only [stepHandler] at hs
  split at hs
  · rename_i leaseId htask
    obtain ⟨hdone, hs⟩ := Option.ite_none_right_eq_some.mp hs
    obtain ⟨w₁, hstep, rfl⟩ := Option.map_eq_some_iff.mp hs
    obtain ⟨r, hr, rfl⟩ := Option.map_eq_some_iff.mp hstep
    have hnot : h.isCreating = false := by
      unfold Handler.isCreating
      rw [htask]
    have hquiet : ∀ {active : List String}, (∀ containerId ∈ active, containerId ∈ w.activeContainers) →
        w.state.taskStep .failed h.task = some r → Inv { w with
          pool := r.1
          handlers := w.handlers.set i { h with task := r.2 }
          activeContainers := active } := by
      intro active hactive hfailed
      apply inv_quiet hw hi hfailed ?_ hactive
      intro hcreating
      rw [hnot] at hcreating
      cases hcreating
    cases isAnswered with
    | false =>
      apply hquiet ?_ hr
      intro containerId hmem
      split at hmem
      · split at hmem
        · exact (List.mem_filter.mp hmem).1
        · exact hmem
      · exact hmem
    | true =>
      have hsure : isDone = true := hdone rfl
      cases hl : w.pool.leases.lookup leaseId with
      | none =>
        have hlookup : w.state.pool.leases.lookup leaseId = none := hl
        rw [htask] at hr
        simp only [PoolState.taskStep, PoolState.closeStep, hlookup] at hr
        have hfailed : w.state.taskStep .failed h.task = some r := by
          rw [htask]
          exact hr
        apply hquiet ?_ hfailed
        intro containerId hmem
        rw [hsure] at hmem
        exact hmem
      | some lease =>
        have hlookup : w.state.pool.leases.lookup leaseId = some lease := hl
        rw [htask] at hr
        simp only [PoolState.taskStep, PoolState.closeStep, hlookup] at hr
        cases hr
        rw [hsure]
        exact inv_pop hw hi htask hl
  · cases hs

/-- A step of a handler, or of the exec server for it. -/
theorem inv_stepHandler {event : HandlerEvent} (hw : w.Inv) (hi : w.handlers[i]? = some h)
    (hk : w.Kept (.handler i event)) (hs : w.stepHandler i h event = some w') : w'.Inv := by
  have hmem : h ∈ w.handlers[i]? := hi
  cases event with
  | advance =>
    simp only [stepHandler] at hs
    split_ifs at hs with hwaits
    obtain ⟨r, hr, rfl⟩ := Option.map_eq_some_iff.mp hs
    apply inv_quiet hw hi hr ?_ (fun _ hactive => hactive)
    intro hcreating
    rw [hcreating] at hwaits
    exact absurd rfl hwaits
  | post =>
    simp only [stepHandler] at hs
    split_ifs at hs with hpost
    cases hs
    exact inv_node hw hi hpost.2 nofun nofun
  | loseCreate =>
    simp only [stepHandler] at hs
    split_ifs at hs with hflight
    cases hs
    exact inv_node hw hi hflight nofun nofun
  | receiveCreate =>
    simp only [stepHandler] at hs
    split_ifs at hs with hflight
    cases hs
    exact inv_node hw hi hflight nofun nofun
  | create containerId =>
    simp only [stepHandler] at hs
    split_ifs at hs with hcreate
    cases hs
    exact inv_create hw hi hcreate (hk h hmem)
  | failCreate =>
    simp only [stepHandler] at hs
    split_ifs at hs with hstage
    cases hs
    exact inv_node hw hi hstage nofun nofun
  | take leaseId =>
    simp only [stepHandler] at hs
    split at hs
    · rename_i containerId hnode
      split_ifs at hs with htake
      obtain ⟨r, hr, rfl⟩ := Option.map_eq_some_iff.mp hs
      exact inv_take (h := h) hw hi hnode htake.1 htake.2 (hk h hmem) hr
    · cases hs
  | giveUp =>
    simp only [stepHandler] at hs
    split_ifs at hs with hcreating
    obtain ⟨r, hr, rfl⟩ := Option.map_eq_some_iff.mp hs
    exact inv_quiet hw hi hr (fun _ => hk h hmem) (fun _ hactive => hactive)
  | answer status out =>
    simp only [stepHandler] at hs
    split_ifs at hs with hanswer
    cases hs
    exact inv_answer hw hi hanswer.2
  | destroy isDone isAnswered => exact inv_destroy hw hi hs

/-- The pool and the nodes are as they were. -/
theorem Inv.reframe (hw : w.Inv) (hpool : w'.pool = w.pool) (hhandlers : w'.handlers = w.handlers)
    (hactive : w'.activeContainers = w.activeContainers) (hrequests : w'.requests.Nodup)
    (hsent : ∀ c n, (c, n) ∈ w'.requests → ∃ a, w'.calls[c]? = some a ∧ n < a.call.sent)
    (hknown : ∀ g ∈ w.handlers, ∀ leaseId, g.leaseId? = some leaseId →
      w.Awaits g ∨ w.Received leaseId → w'.Awaits g ∨ w'.Received leaseId) : w'.Inv := by
  refine ⟨?_, ?_, hrequests, hsent, ?_, ?_⟩
  · have hstate : w'.state = w.state := by
      unfold AllocationWorld.state
      rw [hpool, hhandlers]
    rw [hstate]
    exact hw.state
  · intro g hg
    rw [hhandlers] at hg
    refine (hw.handlers g hg).frame ?_ (hknown g hg) (by rw [hpool])
    intro leaseId _
    rw [hpool]
  · rw [hpool, hhandlers]
    exact hw.leases
  · unfold Keeps
    rw [hactive, hhandlers, hpool]
    exact hw.containers

/-- A request is lost. -/
theorem inv_lose {c n : Nat} (hw : w.Inv) : Inv { w with inFlight := w.inFlight.erase (c, n) } := by
  have hsub : List.Sublist (w.inFlight.erase (c, n) ++ w.handlers.filterMap (·.request?))
      w.requests := List.erase_sublist.append_right _
  refine hw.reframe rfl rfl rfl ?_ ?_ ?_
  · exact hw.requests.sublist hsub
  · intro c' n' hmem
    exact hw.sent c' n' (hsub.subset hmem)
  · intro g _ leaseId _ hk
    exact known_congr rfl hk

/-- A call begins. -/
theorem inv_begin {a : AllocateCall} (hw : w.Inv) : Inv { w with calls := w.calls ++ [a] } := by
  have hold : ∀ {c : Nat} {b : AllocateCall}, w.calls[c]? = some b →
      (w.calls ++ [a])[c]? = some b := by
    intro c b hb
    obtain ⟨hlt, -⟩ := List.getElem?_eq_some_iff.mp hb
    rw [List.getElem?_append_left hlt]
    exact hb
  refine hw.reframe rfl rfl rfl hw.requests ?_ ?_
  · intro c n hmem
    obtain ⟨b, hb, hn⟩ := hw.sent c n hmem
    exact ⟨b, hold hb, hn⟩
  · intro g _ leaseId _ hk
    rcases hk with ⟨c, n, b, attempt, via, hrequest, hb, hphase⟩ | ⟨c, b, out, hb, hphase⟩
    · exact .inl ⟨c, n, b, attempt, via, hrequest, hold hb, hphase⟩
    · exact .inr ⟨c, b, out, hold hb, hphase⟩

/-- A handler begins: for a request that was on its way, or to close a lease. -/
theorem inv_add {t : PoolTask} {request? : Option (Nat × Nat)} {flight : List (Nat × Nat)}
    (hw : w.Inv) (ht : Handler.isCommitted ⟨t, request?, .unsent, none, none⟩ = false)
    (hnode : ∀ image k, t ≠ .allocate image (.creating k))
    (hstate : PoolState.Inv ⟨w.pool, w.state.tasks ++ [t]⟩)
    (hperm : List.Perm (flight ++ request?.toList) w.inFlight) :
    Inv { w with
      inFlight := flight
      handlers := w.handlers ++ [⟨t, request?, .unsent, none, none⟩] } := by
  have hlast : [(⟨t, request?, .unsent, none, none⟩ : Handler)].filterMap (·.request?) =
      request?.toList := by
    cases request? <;> rfl
  have hrequests : List.Perm
      (AllocationWorld.requests { w with
        inFlight := flight
        handlers := w.handlers ++ [⟨t, request?, .unsent, none, none⟩] }) w.requests := by
    unfold AllocationWorld.requests
    rw [List.filterMap_append, hlast]
    have hswap : List.Perm (w.handlers.filterMap (·.request?) ++ request?.toList)
        (request?.toList ++ w.handlers.filterMap (·.request?)) := List.perm_append_comm
    apply (hswap.append_left flight).trans
    rw [← List.append_assoc]
    exact hperm.append_right _
  refine ⟨?_, ?_, ?_, ?_, ?_, ?_⟩
  · unfold state
    rw [List.map_append]
    exact hstate
  · intro g hg
    rcases List.mem_append.mp hg with hg | hg
    · exact (hw.handlers g hg).same rfl rfl
    · obtain rfl := List.mem_singleton.mp hg
      refine ⟨ht.symm, nofun, nofun, nofun, nofun, ?_⟩
      intro image k htask
      exact absurd htask (hnode image k)
  · exact hrequests.nodup_iff.mpr hw.requests
  · intro c n hmem
    exact hw.sent c n (hrequests.mem_iff.mp hmem)
  · intro leaseId hmem
    obtain ⟨g, hg, hlease⟩ := hw.leases leaseId hmem
    exact ⟨g, List.mem_append_left _ hg, hlease⟩
  · intro containerId hmem
    obtain ⟨g, hg, hcontainer⟩ := hw.containers containerId hmem
    exact ⟨g, List.mem_append_left _ hg, hcontainer⟩

theorem inv_health {k : Nat} {healthy : Bool} (hw : w.Inv) :
    Inv { w with pool := w.pool.setHealthy k healthy } := by
  have hlength : (w.pool.setHealthy k healthy).nodes.length = w.pool.nodes.length :=
    List.length_modify _ _ _
  have hnext : w.state.next (.health k healthy) =
      some { w.state with pool := w.pool.setHealthy k healthy } := rfl
  refine ⟨hw.state.next hnext, ?_, hw.requests, hw.sent, hw.leases, hw.containers⟩
  intro g hg
  exact (hw.handlers g hg).frame (fun _ _ => rfl) (fun _ _ hk => known_congr rfl hk) hlength.ge

/-- A step of a call that loses no reply with a lease. -/
theorem inv_call {c : Nat} {a : AllocateCall} {call : ClientCall String} {flight : List (Nat × Nat)}
    (hw : w.Inv) (hc : w.calls[c]? = some a) (hle : a.call.sent ≤ call.sent)
    (hreturned : ∀ out, a.call.phase ≠ .returned out)
    (hrequests : (flight ++ w.handlers.filterMap (·.request?)).Nodup)
    (hsent : ∀ c' n, (c', n) ∈ flight → (c', n) ∈ w.inFlight ∨ c' = c ∧ n < call.sent)
    (hown : ∀ g ∈ w.handlers, ∀ n attempt via leaseId, g.request? = some (c, n) →
      a.call.phase = .awaiting attempt via n → g.leaseId? = some leaseId →
      ∃ out, call.phase = .returned out ∧ out.body = some leaseId) :
    Inv { w with calls := w.calls.set c { a with call := call }, inFlight := flight } := by
  obtain ⟨hlt, -⟩ := List.getElem?_eq_some_iff.mp hc
  have hnew : (w.calls.set c { a with call := call })[c]? = some { a with call := call } :=
    List.getElem?_set_self hlt
  have hold : ∀ {c' : Nat} {b : AllocateCall}, c' ≠ c → w.calls[c']? = some b →
      (w.calls.set c { a with call := call })[c']? = some b := by
    intro c' b hne hb
    rw [List.getElem?_set_ne hne.symm]
    exact hb
  refine hw.reframe rfl rfl rfl hrequests ?_ ?_
  · intro c' n hmem
    have hbefore : (c', n) ∈ w.requests → ∃ b,
        (w.calls.set c { a with call := call })[c']? = some b ∧ n < b.call.sent := by
      intro hmem
      obtain ⟨b, hb, hn⟩ := hw.sent c' n hmem
      by_cases hsame : c' = c
      · subst hsame
        obtain rfl : a = b := Option.some.inj (hc.symm.trans hb)
        exact ⟨_, hnew, Nat.lt_of_lt_of_le hn hle⟩
      · exact ⟨b, hold hsame hb, hn⟩
    rcases List.mem_append.mp hmem with hflight | hhandled
    · rcases hsent c' n hflight with hflight | ⟨rfl, hn⟩
      · exact hbefore (List.mem_append_left _ hflight)
      · exact ⟨_, hnew, hn⟩
    · exact hbefore (List.mem_append_right _ hhandled)
  · intro g hg leaseId hlease hk
    rcases hk with ⟨c', n, b, attempt, via, hrequest, hb, hphase⟩ | ⟨c', b, out, hb, hphase, hbody⟩
    · by_cases hsame : c' = c
      · subst hsame
        obtain rfl : a = b := Option.some.inj (hc.symm.trans hb)
        obtain ⟨out, hout, hbody⟩ := hown g hg n attempt via leaseId hrequest hphase hlease
        exact .inr ⟨c', _, out, hnew, hout, hbody⟩
      · exact .inl ⟨c', n, b, attempt, via, hrequest, hold hsame hb, hphase⟩
    · have hne : c' ≠ c := by
        intro hsame
        subst hsame
        obtain rfl : a = b := Option.some.inj (hc.symm.trans hb)
        exact hreturned out hphase
      exact .inr ⟨c', b, out, hold hne hb, hphase, hbody⟩

section Calls

variable {β : Type*} {maxAttempts : Nat} {call call' : ClientCall β}

theorem sent_endAttempt {attempt : Nat} {out : Response β} :
    (call.endAttempt lower maxAttempts attempt out).sent = call.sent := by
  unfold ClientCall.endAttempt
  split_ifs <;> rfl

theorem sent_failAttempt {attempt : Nat} {via : Via} {text : String} :
    (call.failAttempt lower maxAttempts attempt via text).sent = call.sent := by
  unfold ClientCall.failAttempt
  cases via with
  | actor => rfl
  | slime =>
    dsimp only
    split_ifs
    · rfl
    · exact sent_endAttempt
  | urllib => exact sent_endAttempt

/-- A call that has returned takes no step, and a step takes back no request. -/
theorem step_call {event : ClientEvent β} (hs : call.step lower p maxAttempts event = some call') :
    (∀ out, call.phase ≠ .returned out) ∧ call.sent ≤ call'.sent := by
  have hreturned : ∀ out, call.phase ≠ .returned out := by
    intro out hphase
    cases event <;> simp only [ClientCall.step, hphase] at hs <;> cases hs
  refine ⟨hreturned, ?_⟩
  cases event with
  | send =>
    simp only [ClientCall.step] at hs
    split at hs <;> cases hs
    exact Nat.le_succ _
  | reply out =>
    simp only [ClientCall.step] at hs
    split at hs <;> cases hs
    exact sent_endAttempt.ge
  | fail text =>
    simp only [ClientCall.step] at hs
    split at hs <;> cases hs
    exact sent_failAttempt.ge
  | wake =>
    simp only [ClientCall.step] at hs
    split at hs <;> cases hs
    exact le_rfl
  | cancel =>
    simp only [ClientCall.step] at hs
    split at hs <;> cases hs
    exact le_rfl

end Calls

theorem stepClient_some {c : Nat} {event : ClientEvent String}
    (hs : w.stepClient lower p c event = some w') :
    ∃ a call, w.calls[c]? = some a ∧
      a.call.step lower p (p.maxAttempts (some p.allocateAppMaxRetries)) event = some call ∧
      w' = { w with calls := w.calls.set c { a with call := call } } := by
  obtain ⟨a, ha, hs⟩ := Option.bind_eq_some_iff.mp hs
  obtain ⟨call, hcall, rfl⟩ := Option.map_eq_some_iff.mp hs
  exact ⟨a, call, ha, hcall, rfl⟩

/-- A step of a call in which it sends nothing. -/
theorem inv_stepClient {c : Nat} {event : ClientEvent String} (hw : w.Inv)
    (hs : w.stepClient lower p c event = some w')
    (hown : ∀ a call, w.calls[c]? = some a →
      a.call.step lower p (p.maxAttempts (some p.allocateAppMaxRetries)) event = some call →
      ∀ g ∈ w.handlers, ∀ n attempt via leaseId, g.request? = some (c, n) →
        a.call.phase = .awaiting attempt via n → g.leaseId? = some leaseId →
        ∃ out, call.phase = .returned out ∧ out.body = some leaseId) : w'.Inv := by
  obtain ⟨a, call, ha, hcall, rfl⟩ := stepClient_some hs
  obtain ⟨hreturned, hle⟩ := step_call hcall
  exact inv_call hw ha hle hreturned hw.requests (fun _ _ hmem => .inl hmem) (hown a call ha hcall)

/-- A request is sent. -/
theorem inv_send {c : Nat} {a : AllocateCall} (hw : w.Inv) (ha : w.calls[c]? = some a)
    (hs : w.stepClient lower p c .send = some w') :
    Inv { w' with inFlight := w.inFlight ++ [(c, a.call.sent)] } := by
  obtain ⟨b, call, hb, hcall, rfl⟩ := stepClient_some hs
  obtain rfl : a = b := Option.some.inj (ha.symm.trans hb)
  obtain ⟨hreturned, hle⟩ := step_call hcall
  simp only [ClientCall.step] at hcall
  split at hcall
  · rename_i hphase
    cases hcall
    have hfresh : (c, a.call.sent) ∉ w.requests := by
      intro hmem
      obtain ⟨b, hb, hn⟩ := hw.sent c a.call.sent hmem
      obtain rfl : a = b := Option.some.inj (ha.symm.trans hb)
      exact Nat.lt_irrefl _ hn
    refine inv_call hw ha hle hreturned ?_ ?_ ?_
    · rw [List.append_assoc]
      apply (List.perm_middle.nodup_iff).mpr
      exact List.nodup_cons.mpr ⟨hfresh, hw.requests⟩
    · intro c' n hmem
      rcases List.mem_append.mp hmem with hmem | hmem
      · exact .inl hmem
      · cases List.mem_singleton.mp hmem
        exact .inr ⟨rfl, Nat.lt_succ_self _⟩
    · intro g _ n attempt via leaseId _ hawaiting
      rw [hphase] at hawaiting
      cases hawaiting
  · cases hcall

/-- A reply of the pool reaches its client. -/
theorem inv_reply {c : Nat} {out : Response String} (hw : w.Inv) (hd : w.delivers c out = true)
    (hs : w.stepClient lower p c (.reply out) = some w') : w'.Inv := by
  apply inv_stepClient hw hs
  intro a call ha hcall g hg n attempt via leaseId hrequest hphase hlease
  unfold delivers at hd
  rw [ha] at hd
  obtain ⟨image, ⟨phase, sent⟩⟩ := a
  change phase = .awaiting attempt via n at hphase
  subst hphase
  obtain ⟨d, hdmem, hd⟩ := List.any_eq_true.mp hd
  obtain ⟨hdrequest, hdreply⟩ := Bool.and_eq_true_iff.mp hd
  obtain rfl : g = d := by
    have hnodup := (List.nodup_append.mp hw.requests).2.1
    exact eq_of_nodup_filterMap hnodup hg hdmem hrequest (of_decide_eq_true hdrequest)
  split at hdreply
  · rename_i status out' hreply
    obtain ⟨hsame, -⟩ := Bool.and_eq_true_iff.mp hdreply
    obtain rfl := of_decide_eq_true hsame
    obtain ⟨-, hok, hbody⟩ := (hw.handlers g hg).reply status out' hreply
    rw [hlease] at hok hbody
    refine ⟨out', ?_, hbody hok⟩
    have hcall' : some (ClientCall.endAttempt lower (p.maxAttempts (some p.allocateAppMaxRetries))
      ⟨.awaiting attempt via n, sent⟩ attempt out') = some call := hcall
    have htrue : out'.ok = true := hok
    rw [← Option.some.inj hcall']
    unfold ClientCall.endAttempt
    rw [if_pos htrue]
  · cases hdreply

/-- A client gives up a request for which there is no lease. -/
theorem inv_giveUp {c : Nat} {event : ClientEvent String} (hw : w.Inv)
    (hk : ∀ h ∈ w.handlers, w.Awaits h → (h.request?).map (·.1) = some c → h.leaseId? = none)
    (hs : w.stepClient lower p c event = some w') : w'.Inv := by
  apply inv_stepClient hw hs
  intro a call ha hcall g hg n attempt via leaseId hrequest hphase hlease
  have hnone := hk g hg ⟨c, n, a, attempt, via, hrequest, ha, hphase⟩ (by rw [hrequest]; rfl)
  rw [hlease] at hnone
  cases hnone

theorem Inv.next {a : AllocationAction} (hw : w.Inv) (hk : w.Kept a)
    (hn : w.next lower p a = some w') : w'.Inv := by
  cases a with
  | allocate image =>
    cases hn
    exact inv_begin hw
  | client c event =>
    cases event with
    | send =>
      obtain ⟨a, ha, hn⟩ := Option.bind_eq_some_iff.mp hn
      obtain ⟨w₁, hstep, rfl⟩ := Option.map_eq_some_iff.mp hn
      exact inv_send hw ha hstep
    | reply out =>
      obtain ⟨hd, hs⟩ := Option.ite_none_right_eq_some.mp hn
      exact inv_reply hw hd hs
    | fail text => exact inv_giveUp hw hk hn
    | wake =>
      apply inv_stepClient hw hn
      intro a call ha hcall g hg n attempt via leaseId _ hphase
      simp only [ClientCall.step, hphase] at hcall
      cases hcall
    | cancel => exact inv_giveUp hw hk hn
  | lose c n =>
    obtain ⟨-, hn⟩ := Option.ite_none_right_eq_some.mp hn
    cases hn
    exact inv_lose hw
  | receive c n =>
    obtain ⟨hmem, hn⟩ := Option.ite_none_right_eq_some.mp hn
    obtain ⟨a, -, hn⟩ := Option.bind_eq_some_iff.mp hn
    obtain ⟨-, hn⟩ := Option.ite_none_right_eq_some.mp hn
    cases hn
    have hperm : List.Perm (w.inFlight.erase (c, n) ++ [(c, n)]) w.inFlight :=
      (List.perm_append_singleton _ _).trans (List.perm_cons_erase hmem).symm
    unfold Handler.allocate
    split_ifs
    · apply inv_add hw rfl _ (hw.state.add (fun _ => rfl) (fun _ => rfl) rfl rfl) hperm
      intro image k htask
      cases htask
    · apply inv_add hw rfl _ (hw.state.add (fun _ => rfl) (fun _ => rfl) rfl rfl) hperm
      intro image k htask
      cases htask
  | close leaseId =>
    cases hn
    have hperm : List.Perm (w.inFlight ++ (none : Option (Nat × Nat)).toList) w.inFlight := by
      rw [Option.toList_none, List.append_nil]
    apply inv_add hw rfl _ (hw.state.add (fun _ => rfl) (fun _ => rfl) rfl rfl) hperm
    intro image k htask
    cases htask
  | handler i event =>
    obtain ⟨h, hi, hn⟩ := Option.bind_eq_some_iff.mp hn
    exact inv_stepHandler hw hi hk hn
  | health k healthy =>
    cases hn
    exact inv_health hw

/-- A pool with distinct nodes, before the first allocate call. -/
theorem start_inv {urls : List String} (hurls : urls.Nodup)
    (maxContainersPerNode maxTotalLeases maxConcurrentAllocates : Int) :
    (start (.init urls maxContainersPerNode maxTotalLeases maxConcurrentAllocates)).Inv := by
  refine ⟨PoolState.init_inv hurls _ _ _, ?_, List.nodup_nil, ?_, ?_, ?_⟩
  · intro h hmem
    exact absurd hmem List.not_mem_nil
  · intro c n hmem
    exact absurd hmem List.not_mem_nil
  · intro leaseId hmem
    exact absurd hmem (AList.notMem_empty leaseId)
  · intro containerId hmem
    exact absurd hmem List.not_mem_nil

/-- Nothing is left behind in a run in which no reply with a container or a lease is given up, and
nothing is made for a request that has been given up. -/
theorem clean_of_kept (lower : String → String) (p : ClientParams) {urls : List String}
    (hurls : urls.Nodup) (maxContainersPerNode maxTotalLeases maxConcurrentAllocates : Int)
    {run : List AllocationAction}
    (h : Meets (next lower p) Kept
      (start (.init urls maxContainersPerNode maxTotalLeases maxConcurrentAllocates)) run) :
    Along (next lower p) (fun w => w.Settled → w.Clean)
      (start (.init urls maxContainersPerNode maxTotalLeases maxConcurrentAllocates)) run := by
  have hstart := start_inv hurls maxContainersPerNode maxTotalLeases maxConcurrentAllocates
  have hinvariant := along_of_meets (fun w a w' hw hk hn => Inv.next hw hk hn) hstart h
  exact hinvariant.mono fun w hw => clean_of_inv hw

def servingPool : SweEnvPool := .init ["http://n0"] 4 4 4

def allocateParams : ClientParams := ⟨3, 360, true, false⟩

/-- The first request is lost; the second gets a lease, and the client closes it. -/
def closedRun : List AllocationAction :=
  [.allocate "img", .client 0 .send, .lose 0 0, .client 0 (.fail "All connection attempts failed"),
    .client 0 .wake, .client 0 .send, .receive 0 1, .handler 0 .advance, .handler 0 .advance,
    .handler 0 .post, .handler 0 .receiveCreate, .handler 0 (.create "c"), .handler 0 (.take "l"),
    .handler 0 .advance, .handler 0 (.answer 200 ⟨true, false, "", some "l"⟩),
    .client 0 (.reply ⟨true, false, "", some "l"⟩), .close "l", .handler 1 .advance,
    .handler 1 .advance, .handler 1 (.destroy true true), .handler 1 .advance]

theorem awaits_iff : w.Awaits h ↔ ∃ request ∈ h.request?, ∃ a ∈ w.calls[request.1]?,
    a.call.phase.awaited? = some request.2 := by
  constructor
  · rintro ⟨c, n, a, attempt, via, hrequest, ha, hphase⟩
    refine ⟨(c, n), hrequest, a, ha, ?_⟩
    rw [hphase]
    rfl
  · rintro ⟨⟨c, n⟩, hrequest, a, ha, hawaited⟩
    cases hphase : a.call.phase with
    | awaiting attempt via m =>
      rw [hphase] at hawaited
      obtain rfl : m = n := Option.some.inj hawaited
      exact ⟨c, m, a, attempt, via, hrequest, ha, hphase⟩
    | posting | sleeping | returned | raised | cancelled =>
      rw [hphase] at hawaited
      cases hawaited

instance (w : AllocationWorld) (h : Handler) : Decidable (w.Awaits h) :=
  decidable_of_iff _ awaits_iff.symm

instance (w : AllocationWorld) : ∀ a, Decidable (w.Kept a)
  | .client c (.fail _) | .client c .cancel => inferInstanceAs (Decidable (∀ h ∈ w.handlers,
      w.Awaits h → (h.request?).map (·.1) = some c → h.leaseId? = none))
  | .handler i (.take _) => inferInstanceAs (Decidable (∀ h ∈ w.handlers[i]?, w.Awaits h))
  | .handler i .giveUp =>
    decidable_of_iff (∀ h ∈ w.handlers[i]?, h.node.isCreated = false) (by
      unfold Kept
      simp only [CreateStage.isCreated_eq_false_iff])
  | .handler i (.create _) =>
    inferInstanceAs (Decidable (∀ h ∈ w.handlers[i]?, h.isCreating = true))
  | .client _ .send | .client _ (.reply _) | .client _ .wake | .handler _ .advance
  | .handler _ .post | .handler _ .loseCreate | .handler _ .receiveCreate
  | .handler _ .failCreate | .handler _ (.answer _ _) | .handler _ (.destroy _ _)
  | .allocate _ | .lose _ _ | .receive _ _ | .close _ | .health _ _ => .isTrue trivial

theorem clean_of_kept_closedRun :
    Along (next String.toLower allocateParams) (fun w => w.Settled → w.Clean)
      (start servingPool) closedRun :=
  clean_of_kept String.toLower allocateParams (List.nodup_singleton _) 4 4 4 (by decide +kernel)

/-- The pool gives up a create and the exec server goes on with it; the retry of the client gets a
lease, which is closed, and the first container stays. -/
def lateRun : List AllocationAction :=
  [.allocate "img", .client 0 .send, .receive 0 0, .handler 0 .advance, .handler 0 .advance,
    .handler 0 .post, .handler 0 .receiveCreate, .handler 0 .giveUp, .handler 0 .advance,
    .handler 0 .advance, .handler 0 (.answer 500 ⟨false, false, "Read timed out.", none⟩),
    .client 0 (.fail "Server error '500 INTERNAL SERVER ERROR' for url"), .client 0 .wake,
    .client 0 .send, .receive 0 1, .handler 1 .advance, .handler 1 .advance, .handler 1 .post,
    .handler 1 .receiveCreate, .handler 1 (.create "c1"), .handler 1 (.take "l1"),
    .handler 1 .advance, .handler 1 (.answer 200 ⟨true, false, "", some "l1"⟩),
    .client 0 (.reply ⟨true, false, "", some "l1"⟩), .close "l1", .handler 2 .advance,
    .handler 2 .advance, .handler 2 (.destroy true true), .handler 2 .advance,
    .handler 0 (.create "c0")]

theorem clean_fails :
    ¬∀ run, Along (next String.toLower allocateParams) (fun w => w.Settled → w.Clean)
      (start servingPool) run := by
  intro h
  have hfacts : ∀ w ∈ exec (next String.toLower allocateParams) (start servingPool) lateRun,
      (∀ a ∈ w.calls, a.call.phase.isEnded = true) ∧ w.inFlight = [] ∧
        (∀ h ∈ w.handlers, h.isFinished = true ∧ h.isNodeSettled = true) ∧
          w.pool.leases.keys = [] ∧ w.activeContainers = ["c0"] := by
    decide +kernel
  obtain ⟨w, hw⟩ : ∃ w, exec (next String.toLower allocateParams) (start servingPool) lateRun =
      some w := Option.isSome_iff_exists.mp (by decide +kernel)
  obtain ⟨hcalls, hflight, hhandlers, hkeys, hactive⟩ := hfacts w hw
  have hsettled : w.Settled := by
    refine ⟨hcalls, hflight, hhandlers, ?_⟩
    intro leaseId _ hmem
    have hkey : leaseId ∈ w.pool.leases.keys := AList.mem_keys.mpr hmem
    rw [hkeys] at hkey
    exact absurd hkey List.not_mem_nil
  have hclean := (h lateRun).last hw hsettled
  rw [hclean.activeContainers] at hactive
  cases hactive

end AllocationWorld

end Belayer.Client
