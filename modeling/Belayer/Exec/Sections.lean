import Belayer.Framework.Dict

namespace Belayer.Exec

open Belayer.Framework

/-- `_ContainerDockerGate`. -/
structure Gate where
  activeExecs : Nat
  waitingExecs : Nat
  exclusiveActive : Bool
  deriving DecidableEq

/-- What a request waits to enter. `drain` is the second wait of
`_maintenance_docker_section`, `worker` that of a checkpoint for a thread of the
dispatcher. -/
inductive Entry where
  | exec (containerId : String)
  | exclusive (containerId : String)
  | foreground
  | commit
  | maintenance
  | drain
  | worker
  deriving DecidableEq

/-- An entry with the gate object that the request has fetched for it. -/
inductive Lock where
  | exec (containerId : String) (gate : Nat)
  | exclusive (containerId : String) (gate : Nat)
  | foreground
  | commit
  | maintenance
  | drain
  | worker
  deriving DecidableEq

/-- The condition variables. -/
inductive Cond where
  | gate (gate : Nat)
  | maintenance
  | commit
  deriving DecidableEq

namespace Entry

/-- The container whose gate is fetched first. -/
def containerId? : Entry → Option String
  | .exec containerId | .exclusive containerId => some containerId
  | _ => none

def lock (gate : Nat) : Entry → Lock
  | .exec containerId => .exec containerId gate
  | .exclusive containerId => .exclusive containerId gate
  | .foreground => .foreground
  | .commit => .commit
  | .maintenance => .maintenance
  | .drain => .drain
  | .worker => .worker

end Entry

namespace Lock

/-- The condition variable of the wait. A worker thread is waited for in a queue. -/
def cond : Lock → Option Cond
  | .exec _ gate | .exclusive _ gate => some (.gate gate)
  | .foreground | .maintenance | .drain => some .maintenance
  | .commit => some .commit
  | .worker => none

end Lock

/-- The locks of the exec server. Gate objects are numbered as they are created; one
that is not created yet stands as `__init__` leaves it. -/
structure Server where
  checkpointMaxInflight : Int
  gates : Nat → Gate
  numGates : Nat
  containerOpGates : Dict String Nat
  maintenanceActive : Bool
  foregroundDockerOps : Nat
  activeCommitOps : Nat
  busyWorkers : Nat

namespace Server

def init (checkpointMaxInflight : Int) : Server :=
  ⟨checkpointMaxInflight, fun _ => ⟨0, 0, false⟩, 0, ∅, false, 0, 0, 0⟩

/-- The bound on commit sections, which is also the number of dispatcher threads. -/
def commitLimit (s : Server) : Nat := (max 1 s.checkpointMaxInflight).toNat

def setGate (s : Server) (gate : Nat) (f : Gate → Gate) : Server :=
  { s with gates := Function.update s.gates gate (f (s.gates gate)) }

/-- `_get_container_op_gate`. -/
def getContainerOpGate (s : Server) (containerId : String) : Nat × Server :=
  match s.containerOpGates.lookup containerId with
  | some gate => (gate, s)
  | none =>
    (s.numGates,
      { s with
        numGates := s.numGates + 1
        containerOpGates := s.containerOpGates.insert containerId s.numGates })

/-- `_drop_container_op_gate`. -/
def dropContainerOpGate (s : Server) (containerId : String) : Server :=
  { s with containerOpGates := s.containerOpGates.erase containerId }

/-- The condition of the `while` loop before the entry. -/
def blocks (s : Server) : Lock → Bool
  | .exec _ gate => (s.gates gate).exclusiveActive
  | .exclusive _ gate =>
    (s.gates gate).exclusiveActive || decide (0 < (s.gates gate).activeExecs) ||
      decide (0 < (s.gates gate).waitingExecs)
  | .foreground | .maintenance => s.maintenanceActive
  | .commit => decide (s.commitLimit ≤ s.activeCommitOps)
  | .drain => decide (0 < s.foregroundDockerOps)
  | .worker => decide (s.commitLimit ≤ s.busyWorkers)

/-- What is done before the loop. -/
def arrive (s : Server) : Lock → Server
  | .exec _ gate => s.setGate gate fun g => { g with waitingExecs := g.waitingExecs + 1 }
  | _ => s

/-- What is done after the loop. -/
def enter (s : Server) : Lock → Server
  | .exec _ gate =>
    s.setGate gate fun g =>
      { g with waitingExecs := g.waitingExecs - 1, activeExecs := g.activeExecs + 1 }
  | .exclusive _ gate => s.setGate gate fun g => { g with exclusiveActive := true }
  | .foreground => { s with foregroundDockerOps := s.foregroundDockerOps + 1 }
  | .commit => { s with activeCommitOps := s.activeCommitOps + 1 }
  | .maintenance => { s with maintenanceActive := true }
  | .drain => s
  | .worker => { s with busyWorkers := s.busyWorkers + 1 }

/-- What is done in the `finally` clause, and the condition it notifies. Once drained,
a maintenance section has nothing more to give back than its claim. -/
def leave (s : Server) : Lock → Server × Option Cond
  | .exec _ gate =>
    (s.setGate gate fun g => { g with activeExecs := g.activeExecs - 1 },
      if (s.gates gate).activeExecs - 1 = 0 then some (.gate gate) else none)
  | .exclusive _ gate =>
    (s.setGate gate fun g => { g with exclusiveActive := false }, some (.gate gate))
  | .foreground =>
    ({ s with foregroundDockerOps := s.foregroundDockerOps - 1 },
      if s.foregroundDockerOps - 1 = 0 then some .maintenance else none)
  | .commit => ({ s with activeCommitOps := s.activeCommitOps - 1 }, some .commit)
  | .maintenance => ({ s with maintenanceActive := false }, some .maintenance)
  | .drain => (s, none)
  | .worker => ({ s with busyWorkers := s.busyWorkers - 1 }, none)

end Server

/-- A docker call: the command of an exec or a diff, one of an evaluation, or any other. -/
inductive Call where
  | command (containerId : String)
  | evaluate (containerId : String)
  | other
  deriving DecidableEq

inductive Instr where
  | enter (entry : Entry)
  | leave
  | dropGate (containerId : String)
  | docker (call : Call)
  deriving DecidableEq

/-- Where a request stands in its next instruction. -/
inductive Pos where
  | running
  | calling
  | fetched (lock : Lock)
  | parked (lock : Lock)
  | woken (lock : Lock)
  deriving DecidableEq

namespace Pos

def isParked : Pos → Bool
  | .parked _ => true
  | _ => false

/-- The lock that the request is about to enter, once it has its gate. -/
def lock? : Pos → Option Lock
  | .running | .calling => none
  | .fetched lock | .parked lock | .woken lock => some lock

end Pos

/-- A request: what it has left to do and what it has entered, the innermost first. -/
structure Thread where
  program : List Instr
  held : List Lock
  pos : Pos
  deriving DecidableEq

namespace Thread

def start (program : List Instr) : Thread := ⟨program, [], .running⟩

/-- `notify_all`. -/
def wake (notified : Option Cond) (t : Thread) : Thread :=
  match t.pos with
  | .parked lock =>
    if notified.isSome ∧ lock.cond = notified then { t with pos := .woken lock } else t
  | _ => t

end Thread

namespace Server

/-- One turn of the `while` loop: enter, or sleep until notified. -/
def wait (s : Server) (t : Thread) (lock : Lock) : Option (Server × Thread × Option Cond) :=
  if s.blocks lock then
    if lock.cond.isSome then some (s, { t with pos := .parked lock }, none) else none
  else some (s.enter lock, ⟨t.program.tail, lock :: t.held, .running⟩, none)

/-- The start of an instruction. -/
def run (s : Server) (t : Thread) (rest : List Instr) :
    Instr → Option (Server × Thread × Option Cond)
  | .enter entry =>
    match entry.containerId? with
    | some containerId =>
      let fetched := s.getContainerOpGate containerId
      some (fetched.2, { t with pos := .fetched (entry.lock fetched.1) }, none)
    | none => s.wait t (entry.lock 0)
  | .leave =>
    match t.held with
    | [] => none
    | lock :: held => some ((s.leave lock).1, ⟨rest, held, .running⟩, (s.leave lock).2)
  | .dropGate containerId =>
    some (s.dropContainerOpGate containerId, { t with program := rest }, none)
  | .docker _ => some (s, { t with pos := .calling }, none)

/-- The next atomic step of a request, and the condition it notifies. -/
def step (s : Server) (t : Thread) : Option (Server × Thread × Option Cond) :=
  match t.pos with
  | .running =>
    match t.program with
    | [] => none
    | i :: rest => s.run t rest i
  | .calling => some (s, { t with program := t.program.tail, pos := .running }, none)
  | .fetched lock => (s.arrive lock).wait t lock
  | .parked _ => none
  | .woken lock => s.wait t lock

end Server

/-- The exec server with all requests it has ever been sent. -/
structure Node where
  server : Server
  threads : List Thread

end Belayer.Exec
