import Belayer.Framework.Dict
import Belayer.Framework.Run
import Belayer.Framework.Text
import Mathlib.Data.Rat.Floor

namespace Belayer.Exec

open Belayer.Framework

/-- The part of the server's configuration that the pool reads. -/
structure PoolConfig where
  useContainerPool : Bool
  poolMaxSizePerImage : Int
  poolMaxTotalSize : Int
  poolPrewarmRatio : ℚ
  poolPrewarmMaxConcurrency : Int
  maxContainersPerNode : Int
  prewarmImages : List String

structure IdleMeta where
  name : String
  image : String
  deriving DecidableEq

structure ContainerPool where
  config : PoolConfig
  idleByImage : Dict String (List String)
  idleMeta : Dict String IdleMeta
  pendingCreateCount : Nat
  pendingByImage : Dict String Nat
  prewarmQueue : List String
  prewarmRrIndex : Nat

namespace PoolConfig

/-- `_target_total_count`; `int` rounds what is negative up to zero at most. -/
def targetTotalCount (c : PoolConfig) : Int :=
  let base := c.poolPrewarmMaxConcurrency
  let base := if base ≤ 0 then c.maxContainersPerNode else base
  let base := if base ≤ 0 ∧ 0 < c.poolMaxTotalSize then c.poolMaxTotalSize else base
  if base ≤ 0 then 0 else max 0 ⌊base * c.poolPrewarmRatio⌋

/-- `_effective_total_cap`; 0 is no cap. -/
def effectiveTotalCap (c : PoolConfig) : Int :=
  if 0 < c.poolMaxTotalSize ∧ 0 < c.targetTotalCount then min c.poolMaxTotalSize c.targetTotalCount
  else if 0 < c.poolMaxTotalSize then c.poolMaxTotalSize
  else c.targetTotalCount

end PoolConfig

namespace ContainerPool

def init (config : PoolConfig) : ContainerPool := ⟨config, ∅, ∅, 0, ∅, [], 0⟩

/-- The queue of an image. -/
def queue (p : ContainerPool) (image : String) : List String := Dict.getD p.idleByImage image []

/-- How many creates of an image are pending. -/
def pending (p : ContainerPool) (image : String) : Nat := Dict.getD p.pendingByImage image 0

/-- `_image_has_capacity_unlocked`. -/
def imageHasCapacity (p : ContainerPool) (image : String) : Bool :=
  ((p.queue image).length + p.pending image : Int) < max 0 p.config.poolMaxSizePerImage

/-- `_total_known_containers_unlocked` has reached the cap. -/
def isFull (p : ContainerPool) (activeCount : Nat) : Bool :=
  let cap := p.config.effectiveTotalCap
  0 < cap && cap ≤ (p.idleMeta.entries.length + p.pendingCreateCount + activeCount : Int)

/-- The turns of the loop over the images, from the one that is next. -/
def nextImage (p : ContainerPool) : Nat → ContainerPool × Option String
  | 0 => (p, none)
  | n + 1 =>
    let images := p.config.prewarmImages
    let image := images[p.prewarmRrIndex % images.length]?
    let advanced := { p with prewarmRrIndex := p.prewarmRrIndex + 1 }
    match image.filter p.imageHasCapacity with
    | some image => (advanced, some image)
    | none => nextImage advanced n

/-- `_pick_next_image_unlocked`. -/
def pickNextImage (p : ContainerPool) (preferredImage : Option String) :
    ContainerPool × Option String :=
  let candidates := p.config.prewarmImages
  match preferredImage.filter fun image =>
      image ≠ "" && image ∈ candidates && p.imageHasCapacity image with
  | some image => (p, some image)
  | none => p.nextImage candidates.length

/-- `_enqueue_prewarm_unlocked`. -/
def enqueuePrewarm (p : ContainerPool) (activeCount : Nat) (preferredImage : Option String) :
    ContainerPool :=
  if p.isFull activeCount then p
  else
    match p.pickNextImage preferredImage with
    | (p, none) => p
    | (p, some image) =>
      if image = "" then p
      else
        { p with
          prewarmQueue := p.prewarmQueue ++ [image]
          pendingCreateCount := p.pendingCreateCount + 1
          pendingByImage := AList.insert image (p.pending image + 1) p.pendingByImage }

/-- `_pop_idle_candidate`. -/
def popIdleCandidate (p : ContainerPool) (image : String) :
    ContainerPool × Option (String × IdleMeta) :=
  match p.queue image with
  | [] => (p, none)
  | containerId :: rest =>
    ({ p with
        idleByImage :=
          if rest = [] then AList.erase image p.idleByImage
          else AList.insert image rest p.idleByImage
        idleMeta := AList.erase containerId p.idleMeta },
      (p.idleMeta.lookup containerId).map fun info => (containerId, info))

/-- A container joins the queue of its image. -/
def addIdle (p : ContainerPool) (containerId : String) (info : IdleMeta) : ContainerPool :=
  { p with
    idleByImage := AList.insert info.image (p.queue info.image ++ [containerId]) p.idleByImage
    idleMeta := AList.insert containerId info p.idleMeta }

/-- A create of the prewarm loop is not pending any more. -/
def settleCreate (p : ContainerPool) (image : String) : ContainerPool :=
  { p with
    pendingCreateCount := p.pendingCreateCount - 1
    pendingByImage :=
      if p.pending image - 1 = 0 then AList.erase image p.pendingByImage
      else AList.insert image (p.pending image - 1) p.pendingByImage }

end ContainerPool

/-- What `docker ps` shows of a running container. -/
structure DockerContainer where
  name : String
  image : String
  command : String
  deriving DecidableEq

/-- The thread of `_prewarm_loop`: it waits for the queue, runs `docker run` for an image, which
makes the container before it returns, and has to record the outcome. -/
inductive PrewarmThread where
  | notStarted
  | waiting
  | creating (image : String) (container? : Option (String × String))
  | created (image containerId name : String)
  | failed (image : String)
  deriving DecidableEq

/-- A request to `container_create`, with `acquire` inside. -/
inductive AcquireCall where
  | looking (image : String)
  | popped (image containerId : String) (info : IdleMeta)
  | healthy (image containerId name : String)
  | discarding (image containerId : String)
  | missed (image : String)
  | creating (image : String) (container? : Option (String × String))
  | acquired (image containerId name : String) (pooled : Bool)
  | registered (containerId name : String) (pooled : Bool)
  | failed
  deriving DecidableEq

/-- A request that destroys an active container; after an injected fault the container is dropped
from the active ones even if destroying it has failed. -/
inductive ReleaseCall where
  | destroying (containerId image : String) (isFault : Bool)
  | refilling (containerId image : String)
  | untracking (containerId : String)
  | finished
  deriving DecidableEq

/-- `_sync_existing_prewarmed_containers` with what is left of the list it goes through. -/
inductive SyncScan where
  | listed (containers : List (String × DockerContainer))
  | scanning (containers : List (String × DockerContainer)) (activeIds : List String)
  | checking (container : String × DockerContainer) (rest : List (String × DockerContainer))
      (activeIds : List String)
  | healthy (container : String × DockerContainer) (rest : List (String × DockerContainer))
      (activeIds : List String)
  | finished
  deriving DecidableEq

/-- The pool, the active containers with their images, docker with all the ids it has given out,
and the threads that are under way. -/
structure ContainerHost where
  pool : ContainerPool
  activeContainers : Dict String String
  docker : Dict String DockerContainer
  issued : List String
  prewarm : PrewarmThread
  acquires : List AcquireCall
  releases : List ReleaseCall
  syncs : List SyncScan

inductive PoolAction where
  | start
  | refill
  | prewarmTake
  | prewarmRun (containerId name command : String)
  | prewarmReturn (succeeds : Bool)
  | prewarmRecord
  | acquire (image : String)
  | popIdle (i : Nat)
  | checkHealth (i : Nat) (isHealthy : Bool)
  | reuse (i : Nat)
  | discard (i : Nat) (succeeds : Bool)
  | miss (i : Nat)
  | acquireRun (i : Nat) (containerId name command : String)
  | acquireReturn (i : Nat) (succeeds : Bool)
  | register (i : Nat)
  | release (containerId : String) (isFault : Bool)
  | destroy (k : Nat) (succeeds : Bool)
  | releaseRefill (k : Nat)
  | untrack (k : Nat)
  | syncList (containers : List (String × DockerContainer))
  | syncActive (j : Nat)
  | syncCheck (j : Nat)
  | syncHealth (j : Nat) (isHealthy : Bool)
  | syncAdopt (j : Nat)
  | appear (containerId : String) (container : DockerContainer)
  | vanish (containerId : String)
  | track (containerId image : String)

section Lower

-- `lower` is `str.lower`
variable (lower : String → String)

/-- `_looks_like_prewarmed_container`. -/
def DockerContainer.looksLikePrewarmed (container : DockerContainer) : Bool :=
  let command := lower container.command
  (Text.find "sleep infinity" command).isSome || (Text.find "tail -f /dev/null" command).isSome

namespace ContainerHost

def init (config : PoolConfig) (docker : Dict String DockerContainer) : ContainerHost :=
  ⟨.init config, ∅, docker, docker.keys, .notStarted, [], [], []⟩

def activeCount (s : ContainerHost) : Nat := s.activeContainers.entries.length

/-- One call of `_enqueue_prewarm_unlocked`. -/
def enqueue (s : ContainerHost) (preferredImage : Option String) : ContainerHost :=
  { s with pool := s.pool.enqueuePrewarm s.activeCount preferredImage }

def setAcquire (s : ContainerHost) (i : Nat) (call : AcquireCall) : ContainerHost :=
  { s with acquires := s.acquires.set i call }

def setRelease (s : ContainerHost) (k : Nat) (call : ReleaseCall) : ContainerHost :=
  { s with releases := s.releases.set k call }

def setSync (s : ContainerHost) (j : Nat) (scan : SyncScan) : ContainerHost :=
  { s with syncs := s.syncs.set j scan }

/-- Docker makes a container under an id that it has never given out. -/
def dockerRun (s : ContainerHost) (containerId : String) (container : DockerContainer) :
    Option ContainerHost :=
  if containerId ∈ s.issued then none
  else
    some { s with
      docker := AList.insert containerId container s.docker
      issued := containerId :: s.issued }

def dockerRemove (s : ContainerHost) (containerId : String) : ContainerHost :=
  { s with docker := AList.erase containerId s.docker }

/-- The end of a turn of the prewarm loop. -/
def recordCreate (s : ContainerHost) : Option ContainerHost :=
  match s.prewarm with
  | .created image containerId name =>
    some { s with
      pool := (s.pool.settleCreate image).addIdle containerId ⟨name, image⟩
      prewarm := .waiting }
  | .failed image => some { s with pool := s.pool.settleCreate image, prewarm := .waiting }
  | _ => none

/-- The first part of `acquire`: the container at the head of the queue. -/
def popIdle (s : ContainerHost) (i : Nat) : Option ContainerHost :=
  match s.acquires[i]? with
  | some (.looking image) =>
    if s.pool.config.useContainerPool then
      match s.pool.popIdleCandidate image with
      | (pool, some (containerId, info)) =>
        some ({ s with pool := pool }.setAcquire i (.popped image containerId info))
      | (pool, none) => some ({ s with pool := pool }.setAcquire i (.missed image))
    else some (s.setAcquire i (.missed image))
  | _ => none

/-- What a health check says; a container that is not there is not healthy. -/
def checkHealth (s : ContainerHost) (i : Nat) (isHealthy : Bool) : Option ContainerHost :=
  match s.acquires[i]? with
  | some (.popped image containerId info) =>
    if isHealthy then
      if containerId ∈ s.docker then
        some (s.setAcquire i (.healthy image containerId info.name))
      else none
    else some (s.setAcquire i (.discarding image containerId))
  | _ => none

/-- `container_create` after `acquire`. -/
def register (s : ContainerHost) (i : Nat) : Option ContainerHost :=
  match s.acquires[i]? with
  | some (.acquired image containerId name pooled) =>
    some ({ s with
      activeContainers := AList.insert containerId image s.activeContainers }.setAcquire i
        (.registered containerId name pooled))
  | _ => none

/-- A container of the list that the pool could take. -/
def isCandidate (s : ContainerHost) (container : String × DockerContainer) : Bool :=
  container.1 ≠ "" && container.2.image ≠ "" &&
    container.2.image ∈ s.pool.config.prewarmImages && container.2.looksLikePrewarmed lower

/-- The checks under the lock, before and after the health check: whether the scan goes on, and
whether it takes the container. -/
def admits (s : ContainerHost) (container : String × DockerContainer) (activeIds : List String) :
    Option Bool :=
  if s.pool.isFull s.activeCount then none
  else some (container.1 ∉ s.pool.idleMeta && container.1 ∉ activeIds &&
    s.pool.imageHasCapacity container.2.image)

def syncCheck (s : ContainerHost) (j : Nat) : Option ContainerHost :=
  match s.syncs[j]? with
  | some (.scanning [] _) => some (s.setSync j .finished)
  | some (.scanning (container :: rest) activeIds) =>
    if s.isCandidate lower container then
      match s.admits container activeIds with
      | none => some (s.setSync j .finished)
      | some false => some (s.setSync j (.scanning rest activeIds))
      | some true => some (s.setSync j (.checking container rest activeIds))
    else some (s.setSync j (.scanning rest activeIds))
  | _ => none

def syncAdopt (s : ContainerHost) (j : Nat) : Option ContainerHost :=
  match s.syncs[j]? with
  | some (.healthy container rest _) =>
    let activeIds := s.activeContainers.keys
    match s.admits container activeIds with
    | none => some (s.setSync j .finished)
    | some false => some (s.setSync j (.scanning rest activeIds))
    | some true =>
      some ({ s with
        pool := s.pool.addIdle container.1 ⟨container.2.name, container.2.image⟩ }.setSync j
          (.scanning rest activeIds))
  | _ => none

/-- The threads take one step at a time, each section under a lock and each command of docker
being one; `refill` is a turn of a loop over `_enqueue_prewarm_unlocked`. -/
def next (s : ContainerHost) : PoolAction → Option ContainerHost
  | .start =>
    if s.pool.config.useContainerPool ∧ s.prewarm = .notStarted then
      some { s with prewarm := .waiting }
    else none
  | .refill => some (s.enqueue none)
  | .prewarmTake =>
    match s.prewarm, s.pool.prewarmQueue with
    | .waiting, image :: rest =>
      some { s with
        pool := { s.pool with prewarmQueue := rest }
        prewarm := .creating image none }
    | _, _ => none
  | .prewarmRun containerId name command =>
    match s.prewarm with
    | .creating image none =>
      (s.dockerRun containerId ⟨name, image, command⟩).map fun s =>
        { s with prewarm := .creating image (some (containerId, name)) }
    | _ => none
  | .prewarmReturn succeeds =>
    match s.prewarm with
    | .creating image container? =>
      match succeeds, container? with
      | true, some (containerId, name) =>
        some { s with prewarm := .created image containerId name }
      | true, none => none
      | false, _ => some { s with prewarm := .failed image }
    | _ => none
  | .prewarmRecord => s.recordCreate
  | .acquire image => some { s with acquires := s.acquires ++ [.looking image] }
  | .popIdle i => s.popIdle i
  | .checkHealth i isHealthy => s.checkHealth i isHealthy
  | .reuse i =>
    match s.acquires[i]? with
    | some (.healthy image containerId name) =>
      some ((s.enqueue (some image)).setAcquire i (.acquired image containerId name true))
    | _ => none
  | .discard i succeeds =>
    match s.acquires[i]? with
    | some (.discarding image containerId) =>
      if succeeds then some ((s.dockerRemove containerId).setAcquire i (.looking image))
      else some (s.setAcquire i .failed)
    | _ => none
  | .miss i =>
    match s.acquires[i]? with
    | some (.missed image) => some ((s.enqueue (some image)).setAcquire i (.creating image none))
    | _ => none
  | .acquireRun i containerId name command =>
    match s.acquires[i]? with
    | some (.creating image none) =>
      (s.dockerRun containerId ⟨name, image, command⟩).map fun s =>
        s.setAcquire i (.creating image (some (containerId, name)))
    | _ => none
  | .acquireReturn i succeeds =>
    match s.acquires[i]? with
    | some (.creating image container?) =>
      match succeeds, container? with
      | true, some (containerId, name) =>
        some (s.setAcquire i (.acquired image containerId name false))
      | true, none => none
      | false, _ => some (s.setAcquire i .failed)
    | _ => none
  | .register i => s.register i
  | .release containerId isFault =>
    (s.activeContainers.lookup containerId).map fun image =>
      { s with releases := s.releases ++ [.destroying containerId image isFault] }
  | .destroy k succeeds =>
    match s.releases[k]? with
    | some (.destroying containerId image isFault) =>
      if succeeds then
        some ((s.dockerRemove containerId).setRelease k (.refilling containerId image))
      else some (s.setRelease k (if isFault then .untracking containerId else .finished))
    | _ => none
  | .releaseRefill k =>
    match s.releases[k]? with
    | some (.refilling containerId image) =>
      let refilled := if s.pool.config.useContainerPool then s.enqueue (some image) else s
      some (refilled.setRelease k (.untracking containerId))
    | _ => none
  | .untrack k =>
    match s.releases[k]? with
    | some (.untracking containerId) =>
      some ({ s with
        activeContainers := AList.erase containerId s.activeContainers }.setRelease k .finished)
    | _ => none
  | .syncList containers =>
    if s.pool.config.useContainerPool ∧ s.pool.config.prewarmImages ≠ [] ∧
        ∀ container ∈ containers, s.docker.lookup container.1 = some container.2 then
      some { s with syncs := s.syncs ++ [.listed containers] }
    else none
  | .syncActive j =>
    match s.syncs[j]? with
    | some (.listed containers) =>
      some (s.setSync j (.scanning containers s.activeContainers.keys))
    | _ => none
  | .syncCheck j => s.syncCheck lower j
  | .syncHealth j isHealthy =>
    match s.syncs[j]? with
    | some (.checking container rest activeIds) =>
      if isHealthy then
        if container.1 ∈ s.docker then some (s.setSync j (.healthy container rest activeIds))
        else none
      else some (s.setSync j (.scanning rest activeIds))
    | _ => none
  | .syncAdopt j => s.syncAdopt j
  | .appear containerId container => s.dockerRun containerId container
  | .vanish containerId => some (s.dockerRemove containerId)
  | .track containerId image =>
    some { s with activeContainers := AList.insert containerId image s.activeContainers }

end ContainerHost

end Lower

end Belayer.Exec
