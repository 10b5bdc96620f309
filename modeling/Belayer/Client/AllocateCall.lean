import Belayer.Client.SweEnvClient
import Belayer.Pool.Capacity

namespace Belayer.Client

open Belayer.Framework Belayer.Pool

/-- The pool's request for a container, and its handler in the exec server. -/
inductive CreateStage where
  | unsent
  | inFlight
  | creating
  | created (containerId : String)
  | failed
  | lost
  deriving DecidableEq

/-- A handler of the pool server. One for `allocate` has the request of the client that it is for
(the call and the number of the request), the state of the container, the lease it has made, and
what it has replied. -/
structure Handler where
  task : PoolTask
  request? : Option (Nat × Nat)
  node : CreateStage
  leaseId? : Option String
  reply? : Option (Nat × Response String)
  deriving DecidableEq

inductive HandlerEvent where
  | advance
  | post
  | loseCreate
  | receiveCreate
  | create (containerId : String)
  | failCreate
  | take (leaseId : String)
  | giveUp
  | answer (status : Nat) (out : Response String)
  | destroy (isDone isAnswered : Bool)

structure AllocateCall where
  image : String
  call : ClientCall String

/-- The allocate calls of the clients, their requests on the way to the pool, the pool with its
handlers, and the containers that are active on the exec nodes. -/
structure AllocationWorld where
  calls : List AllocateCall
  inFlight : List (Nat × Nat)
  pool : SweEnvPool
  handlers : List Handler
  activeContainers : List String

inductive AllocationAction where
  | allocate (image : String)
  | client (c : Nat) (event : ClientEvent String)
  | lose (c n : Nat)
  | receive (c n : Nat)
  | close (leaseId : String)
  | handler (i : Nat) (event : HandlerEvent)
  | health (k : Nat) (healthy : Bool)

namespace Handler

/-- A handler for `allocate`; without an image it ends at once. -/
def allocate (image : String) (c n : Nat) : Handler :=
  ⟨.allocate image (if image = "" then .raised else .entered), some (c, n), .unsent, none, none⟩

def close (leaseId : String) : Handler := ⟨.close leaseId .started, none, .unsent, none, none⟩

/-- The handler waits for the reply to its request for a container. -/
def isCreating (h : Handler) : Bool :=
  match h.task with
  | .allocate _ (.creating _) => true
  | _ => false

/-- The handler waits for the reply to its request to destroy a container. -/
def isDestroying (h : Handler) : Bool :=
  match h.task with
  | .close _ .destroying => true
  | _ => false

/-- The reply of the handler; one after an exception is not ok. -/
def answers (h : Handler) (status : Nat) (out : Response String) : Bool :=
  match h.task with
  | .allocate _ .returned => status = 200 && out = ⟨true, false, "", h.leaseId?⟩
  | .allocate _ .raised => !out.ok
  | _ => false

end Handler

namespace AllocationWorld

def state (w : AllocationWorld) : PoolState := ⟨w.pool, w.handlers.map (·.task)⟩

/-- The reply of the pool that the client of a call gets; slime raises on an error status. -/
def delivers (w : AllocationWorld) (c : Nat) (out : Response String) : Bool :=
  match w.calls[c]? with
  | some ⟨_, ⟨.awaiting _ via n, _⟩⟩ =>
    w.handlers.any fun h => h.request? = some (c, n) && match h.reply? with
      | some (status, out') => out' = out && (via = .urllib || status < 400)
      | none => false
  | _ => false

/-- A handler of the pool takes its next step. -/
def stepTask (w : AllocationWorld) (i : Nat) (h : Handler) (reply : Pool.ExecReply) :
    Option AllocationWorld :=
  (w.state.taskStep reply h.task).map fun r =>
    { w with pool := r.1, handlers := w.handlers.set i { h with task := r.2 } }

/-- What happens to a handler. The exec server goes on with a create that the pool has given up, and
can hand out a container again; a lease id is a new one. -/
def stepHandler (w : AllocationWorld) (i : Nat) (h : Handler) :
    HandlerEvent → Option AllocationWorld
  | .advance => if h.isCreating || h.isDestroying then none else w.stepTask i h .failed
  | .post =>
    if h.isCreating ∧ h.node = .unsent then
      some { w with handlers := w.handlers.set i { h with node := .inFlight } }
    else none
  | .loseCreate =>
    if h.node = .inFlight then
      some { w with handlers := w.handlers.set i { h with node := .lost } }
    else none
  | .receiveCreate =>
    if h.node = .inFlight then
      some { w with handlers := w.handlers.set i { h with node := .creating } }
    else none
  | .create containerId =>
    if h.node = .creating then
      some { w with
        handlers := w.handlers.set i { h with node := .created containerId }
        activeContainers := w.activeContainers.insert containerId }
    else none
  | .failCreate =>
    if h.node = .creating then
      some { w with handlers := w.handlers.set i { h with node := .failed } }
    else none
  | .take leaseId =>
    match h.node with
    | .created containerId =>
      if h.isCreating ∧ ∀ h' ∈ w.handlers, h'.leaseId? ≠ some leaseId then
        w.stepTask i { h with leaseId? := some leaseId } (.ok containerId leaseId)
      else none
    | _ => none
  | .giveUp => if h.isCreating then w.stepTask i h .failed else none
  | .answer status out =>
    if h.reply? = none ∧ h.answers status out then
      some { w with handlers := w.handlers.set i { h with reply? := some (status, out) } }
    else none
  | .destroy isDone isAnswered =>
    match h.task with
    | .close leaseId .destroying =>
      if isAnswered → isDone then
        (w.stepTask i h (if isAnswered then .ok "" "" else .failed)).map fun w' =>
          { w' with
            activeContainers :=
              if isDone then
                match w.pool.leases.lookup leaseId with
                | some lease => w.activeContainers.filter (· ≠ lease.containerId)
                | none => w.activeContainers
              else w.activeContainers }
      else none
    | _ => none

section Lower

-- `lower` is `str.lower`
variable (lower : String → String) (p : ClientParams)

def stepClient (w : AllocationWorld) (c : Nat) (event : ClientEvent String) :
    Option AllocationWorld :=
  (w.calls[c]?).bind fun a =>
    (a.call.step lower p (p.maxAttempts (some p.allocateAppMaxRetries)) event).map fun call =>
      { w with calls := w.calls.set c { a with call := call } }

def next (w : AllocationWorld) : AllocationAction → Option AllocationWorld
  | .allocate image => some { w with calls := w.calls ++ [⟨image, .begin p⟩] }
  | .client c .send =>
    (w.calls[c]?).bind fun a =>
      (w.stepClient lower p c .send).map fun w' =>
        { w' with inFlight := w.inFlight ++ [(c, a.call.sent)] }
  | .client c (.reply out) =>
    if w.delivers c out then w.stepClient lower p c (.reply out) else none
  | .client c event => w.stepClient lower p c event
  | .lose c n =>
    if (c, n) ∈ w.inFlight then some { w with inFlight := w.inFlight.erase (c, n) } else none
  | .receive c n =>
    if (c, n) ∈ w.inFlight then
      (w.calls[c]?).bind fun a =>
        if a.image = "" ∨ (w.state.next (.allocate a.image)).isSome then
          some { w with
            inFlight := w.inFlight.erase (c, n)
            handlers := w.handlers ++ [.allocate a.image c n] }
        else none
    else none
  | .close leaseId => some { w with handlers := w.handlers ++ [.close leaseId] }
  | .handler i event => (w.handlers[i]?).bind fun h => w.stepHandler i h event
  | .health k healthy => some { w with pool := w.pool.setHealthy k healthy }

end Lower

def start (pool : SweEnvPool) : AllocationWorld := ⟨[], [], pool, [], []⟩

end AllocationWorld

end Belayer.Client
