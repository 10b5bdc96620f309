import Belayer.Exec.Sections
import Belayer.Framework.Run

namespace Belayer.Exec

open Belayer.Framework

/-- What becomes of an exec request: a fault kills the container before the command,
the random fault does so in its own section, or the command is run. -/
inductive ExecScript where
  | killedBefore
  | killedAtRandom (raised : Bool)
  | command (killedMeanwhile : Bool)
  deriving DecidableEq

/-- What becomes of a checkpoint. `aborted`: its container is not running any more, or
the preparation raises. -/
inductive CheckpointScript where
  | notStarted
  | aborted
  | killedBefore
  | commit (killedAfter : Bool)
  | full (killedAfter recovers : Bool)
  deriving DecidableEq

/-- How far a rerun gets. -/
inductive RerunScript where
  | createRaised
  | restoreRaised
  | destroyRaised
  | updateRaised
  | done
  deriving DecidableEq

/-- The requests to the exec server, each with what becomes of it. -/
inductive Request where
  | exec (containerId : String) (script : ExecScript)
  | faultKill (containerId : String)
  | diff (containerId : String)
  | evaluate (containerId : String) (applied : Bool)
  | destroy (containerId : String) (raised : Bool)
  | checkpointCreate (containerId : String) (script : CheckpointScript)
  | rerun (full : Bool) (oldContainerId : Option String) (newContainerId : String)
      (script : RerunScript) (cleanUpRaised : Bool)
  | checkpointDelete
  | checkpointGc
  | unguarded
  deriving DecidableEq

/-- A `with` block. -/
def within (entry : Entry) (body : List Instr) : List Instr :=
  .enter entry :: (body ++ [.leave])

/-- Docker calls other than the command of a request, in a row. -/
def dockerCalls : List Instr := [.docker .other]

def foregroundSection (body : List Instr) : List Instr := within .foreground body

def commitSection (body : List Instr) : List Instr :=
  foregroundSection (within .commit body)

def maintenanceSection (body : List Instr) : List Instr :=
  within .maintenance (within .drain body)

/-- `docker rm` as `destroy` does it. -/
def destroySection (containerId : String) : List Instr :=
  within (.exclusive containerId) (foregroundSection dockerCalls)

def dropUnless (raised : Bool) (containerId : String) : List Instr :=
  if raised then [] else [.dropGate containerId]

/-- `_inject_fail_stop_fault` with `drop_gate=True`. -/
def killAndDrop (containerId : String) : List Instr :=
  dockerCalls ++ [.dropGate containerId]

/-- The command of an exec or a diff, and the last sample of
`_action_stats_sampling_section`. -/
def commandSection (containerId : String) : List Instr :=
  within (.exec containerId)
    (foregroundSection [.docker (.command containerId)] ++ dockerCalls)

/-- A command of an evaluation, with its last sample: it enters no section. -/
def evaluateCommand (containerId : String) : List Instr :=
  .docker (.evaluate containerId) :: dockerCalls

/-- `container_exec`. -/
def execProgram (containerId : String) : ExecScript → List Instr
  | .killedBefore => killAndDrop containerId
  | .killedAtRandom raised => destroySection containerId ++ dropUnless raised containerId
  | .command killedMeanwhile =>
    commandSection containerId ++ dropUnless (!killedMeanwhile) containerId

/-- `_checkpoint_create_worker` and `_full_checkpoint_create_worker`. -/
def checkpointProgram (containerId : String) : CheckpointScript → List Instr
  | .notStarted => []
  | .aborted => within (.exclusive containerId) dockerCalls
  | .killedBefore => within (.exclusive containerId) (dockerCalls ++ killAndDrop containerId)
  | .commit killedAfter =>
    within (.exclusive containerId) (dockerCalls ++ commitSection dockerCalls) ++
      if killedAfter then killAndDrop containerId else []
  | .full killedAfter recovers =>
    within (.exclusive containerId)
      (dockerCalls ++
        commitSection
          (dockerCalls ++ if killedAfter then killAndDrop containerId else dockerCalls) ++
        if recovers then dockerCalls else [])

/-- The removal of the old container in a rerun. -/
def destroyOld (raised : Bool) : Option String → List Instr
  | none => []
  | some containerId => destroySection containerId ++ dropUnless raised containerId

/-- `container_rerun` and, with `full`, `_full_checkpoint_rerun`, which restores and
checks in one section and cleans up without the gate of the new container. -/
def rerunProgram (full : Bool) (oldContainerId : Option String) (newContainerId : String)
    (script : RerunScript) (cleanUpRaised : Bool) : List Instr :=
  let create := foregroundSection dockerCalls
  let restore := if full then [] else foregroundSection dockerCalls
  let cleanUp :=
    (if full then foregroundSection dockerCalls else destroySection newContainerId) ++
      dropUnless cleanUpRaised newContainerId
  match script with
  | .createRaised => create ++ if full then foregroundSection dockerCalls else []
  | .restoreRaised => create ++ restore ++ cleanUp
  | .destroyRaised => create ++ restore ++ destroyOld true oldContainerId ++ cleanUp
  | .updateRaised => create ++ restore ++ destroyOld false oldContainerId ++ cleanUp
  | .done => create ++ restore ++ destroyOld false oldContainerId

/-- The sections that a request enters, in order. `checkpointGc` is the thread that
deletes, `unguarded` stands for the requests that enter no section. -/
def Request.program : Request → List Instr
  | .exec containerId script => execProgram containerId script
  | .faultKill _ => dockerCalls
  | .diff containerId => commandSection containerId
  | .evaluate containerId applied =>
    evaluateCommand containerId ++ if applied then evaluateCommand containerId else []
  | .destroy containerId raised => destroySection containerId ++ dropUnless raised containerId
  | .checkpointCreate containerId script => within .worker (checkpointProgram containerId script)
  | .rerun full oldContainerId newContainerId script cleanUpRaised =>
    rerunProgram full oldContainerId newContainerId script cleanUpRaised
  | .checkpointDelete | .checkpointGc => maintenanceSection dockerCalls
  | .unguarded => dockerCalls

inductive NodeAction where
  | receive (request : Request)
  | step (i : Nat)
  deriving DecidableEq

namespace Node

def init (checkpointMaxInflight : Int) : Node := ⟨.init checkpointMaxInflight, []⟩

def next (n : Node) : NodeAction → Option Node
  | .receive request =>
    some { n with threads := n.threads ++ [Thread.start request.program] }
  | .step i =>
    match n.threads[i]? with
    | none => none
    | some t =>
      match n.server.step t with
      | none => none
      | some (server, t', notified) =>
        some ⟨server, (n.threads.set i t').map (Thread.wake notified)⟩

end Node

end Belayer.Exec
