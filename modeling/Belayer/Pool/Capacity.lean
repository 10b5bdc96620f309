import Belayer.Pool.SweEnvPool
import Belayer.Framework.Run
import Belayer.Framework.Waiting

namespace Belayer.Pool

open Belayer.Framework

/-- Where `allocate` stands: from the semaphore to its return or its exception. -/
inductive AllocatePhase where
  | entered
  | reserved
  | creating (k : Nat)
  | failing (k : Nat)
  | releasing
  | committed
  | returned
  | raised
  deriving DecidableEq

/-- Where `close` stands; it holds the lifecycle lock of the lease while destroying. -/
inductive ClosePhase where
  | started
  | found
  | destroying
  | popped (url : String)
  | done
  deriving DecidableEq

/-- Where `rerun` stands; it holds the lifecycle lock of the lease while rerunning. -/
inductive RerunCallPhase where
  | started
  | found
  | rerunning
  | done
  deriving DecidableEq

inductive PoolTask where
  | allocate (image : String) (phase : AllocatePhase)
  | close (leaseId : String) (phase : ClosePhase)
  | rerun (leaseId : String) (phase : RerunCallPhase)
  deriving DecidableEq

structure PoolState where
  pool : SweEnvPool
  tasks : List PoolTask

/-- The reply of an exec server, with the id that a lease made from it gets; `failed` is
a reply that is not ok, or an exception. -/
inductive ExecReply where
  | ok (containerId leaseId : String)
  | failed
  deriving DecidableEq

inductive PoolAction where
  | allocate (image : String)
  | close (leaseId : String)
  | rerun (leaseId : String)
  | step (i : Nat) (reply : ExecReply)
  | health (k : Nat) (healthy : Bool)
  deriving DecidableEq

namespace PoolTask

/-- The task is inside the semaphore of `allocate`. -/
def isAllocating : PoolTask → Bool
  | .allocate _ .returned | .allocate _ .raised | .close _ _ | .rerun _ _ => false
  | .allocate _ _ => true

/-- The lease whose lifecycle lock the task holds. -/
def locks? : PoolTask → Option String
  | .close leaseId .destroying | .rerun leaseId .rerunning => some leaseId
  | _ => none

end PoolTask

namespace PoolState

def start (pool : SweEnvPool) : PoolState := ⟨pool, []⟩

/-- The next step of `allocate`. -/
def allocateStep (p : SweEnvPool) (image : String) (reply : ExecReply) :
    AllocatePhase → Option (SweEnvPool × AllocatePhase)
  | .entered =>
    match p.reserveTotalSlot with
    | none => some (p, .raised)
    | some p' => some (p', .reserved)
  | .reserved =>
    match p.pickAndReserveNode with
    | none => some (p, .releasing)
    | some (k, p') => some (p', .creating k)
  | .creating k =>
    match reply, p.nodes[k]? with
    | .ok containerId leaseId, some node =>
      if leaseId ∈ p.leases then none
      else
        let lease := Lease.start node.url containerId image
        some ({ p with leases := AList.insert leaseId lease p.leases }, .committed)
    | _, _ => some (p, .failing k)
  | .failing k => some (p.unreserveNode k, .releasing)
  | .releasing => some (p.releaseTotalSlot, .raised)
  | .committed => some (p.releaseTotalSlot, .returned)
  | .returned | .raised => none

/-- The next step of `close`; the reply to the destroy request is not looked at. -/
def closeStep (p : SweEnvPool) (leaseId : String) (free : Bool) (reply : ExecReply) :
    ClosePhase → Option (SweEnvPool × ClosePhase)
  | .started => some (p, if leaseId ∈ p.leases then .found else .done)
  | .found =>
    if free then some (p, if leaseId ∈ p.leases then .destroying else .done) else none
  | .destroying =>
    match reply with
    | .failed => some (p, .done)
    | .ok _ _ =>
      match p.leases.lookup leaseId with
      | none => some (p, .done)
      | some lease =>
        some ({ p with leases := AList.erase leaseId p.leases }, .popped lease.nodeUrl)
  | .popped url =>
    match p.findNode url with
    | none => some (p, .done)
    | some k => some (p.unreserveNode k, .done)
  | .done => none

/-- The next step of `rerun`. -/
def rerunStep (p : SweEnvPool) (leaseId : String) (free : Bool) (reply : ExecReply) :
    RerunCallPhase → Option (SweEnvPool × RerunCallPhase)
  | .started => some (p, if leaseId ∈ p.leases then .found else .done)
  | .found =>
    if free then some (p, if leaseId ∈ p.leases then .rerunning else .done) else none
  | .rerunning =>
    match reply, p.leases.lookup leaseId with
    | .ok containerId _, some lease =>
      some ({ p with leases := AList.insert leaseId (lease.rerun containerId) p.leases }, .done)
    | _, _ => some (p, .done)
  | .done => none

/-- No task holds the lifecycle lock of the lease. -/
def isFree (s : PoolState) (leaseId : String) : Bool :=
  s.tasks.all (·.locks? ≠ some leaseId)

def taskStep (s : PoolState) (reply : ExecReply) : PoolTask → Option (SweEnvPool × PoolTask)
  | .allocate image phase =>
    (allocateStep s.pool image reply phase).map fun r => (r.1, .allocate image r.2)
  | .close leaseId phase =>
    (closeStep s.pool leaseId (s.isFree leaseId) reply phase).map fun r =>
      (r.1, .close leaseId r.2)
  | .rerun leaseId phase =>
    (rerunStep s.pool leaseId (s.isFree leaseId) reply phase).map fun r =>
      (r.1, .rerun leaseId r.2)

def next (s : PoolState) : PoolAction → Option PoolState
  | .allocate image =>
    if s.tasks.countP (·.isAllocating) < s.pool.maxConcurrentAllocates then
      some { s with tasks := s.tasks ++ [.allocate image .entered] }
    else none
  | .close leaseId => some { s with tasks := s.tasks ++ [.close leaseId .started] }
  | .rerun leaseId => some { s with tasks := s.tasks ++ [.rerun leaseId .started] }
  | .step i reply =>
    match s.tasks[i]? with
    | none => none
    | some t => (s.taskStep reply t).map fun r => ⟨r.1, s.tasks.set i r.2⟩
  | .health k healthy => some { s with pool := s.pool.setHealthy k healthy }

end PoolState

namespace PoolTask

/-- An allocation that is under way on the node and has no lease yet. -/
def reserves (k : Nat) : PoolTask → Nat
  | .allocate _ (.creating j) | .allocate _ (.failing j) => if k = j then 1 else 0
  | _ => 0

/-- A closed lease whose place on the node has not been given back. -/
def vacates (url : String) : PoolTask → Nat
  | .close _ (.popped u) => if url = u then 1 else 0
  | _ => 0

/-- An allocation that has a slot and no lease yet. -/
def uncommitted : PoolTask → Nat
  | .allocate _ .reserved | .allocate _ (.creating _) | .allocate _ (.failing _)
  | .allocate _ .releasing => 1
  | _ => 0

/-- An allocation that has a slot. -/
def slots (t : PoolTask) : Nat :=
  t.uncommitted + if t matches .allocate _ .committed then 1 else 0

end PoolTask

namespace SweEnvPool

variable {p p' : SweEnvPool} {k : Nat} {n : ExecNode}

theorem getElem?_setActive (p : SweEnvPool) (k : Nat) (count : Int) (j : Nat) :
    (p.setActive k count).nodes[j]? =
      p.nodes[j]?.map fun n => if k = j then { n with activeContainers := count } else n := by
  rw [setActive, List.getElem?_modify]
  cases p.nodes[j]? with
  | none => rfl
  | some n => by_cases h : k = j <;> simp [h]

/-- A health check leaves all else of the nodes alone. -/
theorem getElem?_setHealthy {healthy : Bool} {j : Nat} {m' : ExecNode}
    (h : (p.setHealthy k healthy).nodes[j]? = some m') :
    ∃ m, p.nodes[j]? = some m ∧ m'.url = m.url ∧ m'.activeContainers = m.activeContainers ∧
      m'.maxContainers = m.maxContainers := by
  rw [setHealthy, List.getElem?_modify] at h
  obtain ⟨m, hm, rfl⟩ := Option.map_eq_some_iff.mp h
  refine ⟨m, hm, ?_⟩
  split_ifs <;> exact ⟨rfl, rfl, rfl⟩

theorem active_eq (h : p.nodes[k]? = some n) : p.active k = n.activeContainers := by
  simp [active, h]

theorem pickNode_spec (h : p.pickNode = some k) :
    ∃ n, p.nodes[k]? = some n ∧ n.isCandidate = true := by
  have hmem := List.argmin_mem h
  obtain ⟨-, hk⟩ := List.mem_filter.mp hmem
  cases hn : p.nodes[k]? with
  | none => simp [hn] at hk
  | some n => exact ⟨n, rfl, by simpa [hn] using hk⟩

theorem findNode_spec {url : String} (h : p.findNode url = some k) :
    ∃ n, p.nodes[k]? = some n ∧ n.url = url := by
  obtain ⟨hlt, hu, -⟩ := List.findIdx?_eq_some_iff_getElem.mp h
  exact ⟨p.nodes[k], List.getElem?_eq_getElem hlt, by simpa using hu⟩

theorem setActive_setActive (p : SweEnvPool) (k : Nat) (a b : Int) :
    (p.setActive k a).setActive k b = p.setActive k b := by
  have hnodes : ((p.setActive k a).setActive k b).nodes = (p.setActive k b).nodes := by
    refine List.ext_getElem? fun j => ?_
    rw [getElem?_setActive, getElem?_setActive, getElem?_setActive]
    cases p.nodes[j]? with
    | none => rfl
    | some n => by_cases h : k = j <;> simp [h]
  simp only [setActive] at hnodes ⊢
  rw [hnodes]

theorem setActive_self (h : p.nodes[k]? = some n) : p.setActive k n.activeContainers = p := by
  have hnodes : (p.setActive k n.activeContainers).nodes = p.nodes := by
    refine List.ext_getElem? fun j => ?_
    rw [getElem?_setActive]
    by_cases hj : k = j
    · subst hj
      simp [h]
    · cases p.nodes[j]? <;> simp [hj]
  simp only [setActive] at hnodes ⊢
  rw [hnodes]

/-- What is given back is what was taken: giving back undoes a reservation. -/
def Restores (p : SweEnvPool) : Prop :=
  (∀ p', p.reserveTotalSlot = some p' → p'.releaseTotalSlot = p) ∧
    ∀ k p', p.pickAndReserveNode = some (k, p') → p'.unreserveNode k = p

theorem restores_of_nonneg (hactive : ∀ n ∈ p.nodes, 0 ≤ n.activeContainers)
    (hpending : 0 ≤ p.pendingAllocations) : p.Restores := by
  constructor
  · intro p' h
    simp only [reserveTotalSlot] at h
    split_ifs at h with hmax hfull
    · cases h
      simp [releaseTotalSlot, hmax]
    · cases h
      have hcount : max 0 p.pendingAllocations = p.pendingAllocations := max_eq_right hpending
      simp [releaseTotalSlot, hmax, hcount]
  · intro k p' h
    obtain ⟨j, hj, he⟩ := Option.map_eq_some_iff.mp h
    cases he
    obtain ⟨n, hn, -⟩ := pickNode_spec hj
    have hnode : (p.setActive k (p.active k + 1)).nodes[k]? =
        some { n with activeContainers := p.active k + 1 } := by
      simp [getElem?_setActive, hn]
    have hcount : max 0 (p.active k + 1 - 1) = n.activeContainers := by
      rw [active_eq hn]
      have := hactive n (List.mem_of_getElem? hn)
      omega
    rw [unreserveNode, active_eq hnode, setActive_setActive, hcount, setActive_self hn]

end SweEnvPool

namespace PoolState

/-- What a task has taken is in the counters: giving it back, no `max(0, ...)` bites. -/
structure Covers (p : SweEnvPool) (t : PoolTask) : Prop where
  active : ∀ (k : Nat) (n : ExecNode), p.nodes[k]? = some n →
    (t.reserves k + t.vacates n.url : Nat) ≤ n.activeContainers
  pending : 0 < p.maxTotalLeases → (t.slots : Int) ≤ p.pendingAllocations

/-- The counters show the leases and the tasks between the sections that change them.
With a limit on the leases the slots are counted, without one they are not. -/
structure Accounted (s : PoolState) : Prop where
  active : ∀ (k : Nat) (n : ExecNode), s.pool.nodes[k]? = some n → n.activeContainers =
    s.pool.leasesOn n.url + tally (·.reserves k) s.tasks + tally (·.vacates n.url) s.tasks
  pending : s.pool.pendingAllocations =
    if 0 < s.pool.maxTotalLeases then (tally (·.slots) s.tasks : Int) else 0
  capacity : ∀ n ∈ s.pool.nodes, 0 < n.maxContainers → n.activeContainers ≤ n.maxContainers
  total : 0 < s.pool.maxTotalLeases →
    (s.pool.totalLeases + tally (·.uncommitted) s.tasks : Int) ≤ s.pool.maxTotalLeases
  covered : ∀ t ∈ s.tasks, Covers s.pool t
  restores : s.pool.Restores

/-- What a step changes in the counters, it changes in the leases and the tasks. -/
structure Balance (p : SweEnvPool) (t : PoolTask) (p' : SweEnvPool) (t' : PoolTask) : Prop where
  active : ∀ (k : Nat) (n' : ExecNode), p'.nodes[k]? = some n' → ∃ n, p.nodes[k]? = some n ∧
    n'.url = n.url ∧ n'.maxContainers = n.maxContainers ∧
    n'.activeContainers + (p.leasesOn n.url + t.reserves k + t.vacates n.url : Nat) =
      n.activeContainers + (p'.leasesOn n.url + t'.reserves k + t'.vacates n.url : Nat) ∧
    (n'.activeContainers ≤ n.activeContainers ∨ n.isCandidate ∧
      n'.activeContainers = n.activeContainers + 1)
  limit : p'.maxTotalLeases = p.maxTotalLeases
  pending : p'.pendingAllocations +
      (if 0 < p.maxTotalLeases then (t.slots : Int) else 0) =
    p.pendingAllocations + if 0 < p.maxTotalLeases then (t'.slots : Int) else 0
  total : 0 < p.maxTotalLeases →
    p'.totalLeases + t'.uncommitted ≤ p.totalLeases + t.uncommitted ∨
      p'.totalLeases = p.totalLeases ∧ t.uncommitted = 0 ∧ t'.uncommitted = 1 ∧
        (p.totalLeases + p.pendingAllocations : Int) < p.maxTotalLeases

namespace Balance

open PoolTask SweEnvPool

variable {p p' : SweEnvPool} {t t' : PoolTask} {k : Nat} {n : ExecNode} {image leaseId : String}

/-- The counters and the number of leases on each node stay, and so does what the task has
taken. -/
theorem same (hnodes : p'.nodes = p.nodes) (hlimit : p'.maxTotalLeases = p.maxTotalLeases)
    (hpending : p'.pendingAllocations = p.pendingAllocations)
    (hon : ∀ url, p'.leasesOn url = p.leasesOn url) (htotal : p'.totalLeases = p.totalLeases)
    (hreserves : ∀ k, t'.reserves k = t.reserves k)
    (hvacates : ∀ url, t'.vacates url = t.vacates url)
    (huncommitted : t'.uncommitted = t.uncommitted) (hslots : t'.slots = t.slots) :
    Balance p t p' t' := by
  refine ⟨?_, hlimit, ?_, ?_⟩
  · intro k n hn
    rw [hnodes] at hn
    exact ⟨n, hn, rfl, rfl, by rw [hon, hreserves, hvacates], .inl le_rfl⟩
  · rw [hpending, hslots]
  · intro _
    rw [htotal, huncommitted]
    exact .inl le_rfl

/-- The task moves on with what it has taken. -/
theorem stay (hreserves : ∀ k, t'.reserves k = t.reserves k)
    (hvacates : ∀ url, t'.vacates url = t.vacates url)
    (huncommitted : t'.uncommitted = t.uncommitted) (hslots : t'.slots = t.slots) :
    Balance p t p t' :=
  same rfl rfl rfl (fun _ => rfl) rfl hreserves hvacates huncommitted hslots

/-- One node is counted down, and the task gives that up. -/
theorem unreserve (hpos : ∀ n, p.nodes[k]? = some n → 0 < n.activeContainers)
    (hgives : ∀ (j : Nat) (m : ExecNode), p.nodes[j]? = some m →
      t.reserves j + t.vacates m.url =
        t'.reserves j + t'.vacates m.url + if k = j then 1 else 0)
    (huncommitted : t'.uncommitted = t.uncommitted) (hslots : t'.slots = t.slots) :
    Balance p t (p.unreserveNode k) t' := by
  refine ⟨?_, rfl, by rw [hslots]; rfl, fun _ => .inl (by rw [huncommitted]; rfl)⟩
  intro j m' hm'
  rw [unreserveNode, getElem?_setActive] at hm'
  obtain ⟨m, hm, rfl⟩ := Option.map_eq_some_iff.mp hm'
  have hg := hgives j m hm
  have hon : (p.unreserveNode k).leasesOn m.url = p.leasesOn m.url := rfl
  refine ⟨m, hm, ?_⟩
  by_cases hj : k = j
  · subst hj
    have hp := hpos m hm
    rw [if_pos rfl] at hg ⊢
    refine ⟨rfl, rfl, ?_, .inl ?_⟩
    · rw [hon, active_eq hm]
      dsimp only
      omega
    · rw [active_eq hm]
      dsimp only
      omega
  · rw [if_neg hj] at hg ⊢
    refine ⟨rfl, rfl, ?_, .inl le_rfl⟩
    rw [hon]
    omega

/-- The candidate is counted up for the task. -/
theorem pick (h : p.pickAndReserveNode = some (k, p')) :
    Balance p (.allocate image .reserved) p' (.allocate image (.creating k)) := by
  obtain ⟨j, hj, he⟩ := Option.map_eq_some_iff.mp h
  cases he
  obtain ⟨n, hn, hc⟩ := pickNode_spec hj
  refine ⟨?_, rfl, rfl, fun _ => .inl le_rfl⟩
  intro j m' hm'
  rw [active_eq hn, getElem?_setActive] at hm'
  obtain ⟨m, hm, rfl⟩ := Option.map_eq_some_iff.mp hm'
  have hon : (p.setActive k (n.activeContainers + 1)).leasesOn m.url = p.leasesOn m.url := rfl
  refine ⟨m, hm, ?_⟩
  rw [active_eq hn, hon]
  by_cases hjk : k = j
  · subst hjk
    obtain rfl : n = m := Option.some.inj (hn.symm.trans hm)
    rw [if_pos rfl]
    refine ⟨rfl, rfl, ?_, .inr ⟨hc, rfl⟩⟩
    simp only [reserves, vacates, if_true]
    omega
  · rw [if_neg hjk]
    refine ⟨rfl, rfl, ?_, .inl le_rfl⟩
    simp only [reserves, vacates, if_neg (Ne.symm hjk)]

theorem reserve (h : p.reserveTotalSlot = some p') :
    Balance p (.allocate image .entered) p' (.allocate image .reserved) := by
  simp only [SweEnvPool.reserveTotalSlot] at h
  split_ifs at h with hmax hfull
  · cases h
    refine ⟨fun k n hn => ⟨n, hn, rfl, rfl, rfl, .inl le_rfl⟩, rfl, ?_, fun h0 => ?_⟩
    · rw [if_neg (by omega), if_neg (by omega)]
    · omega
  · cases h
    refine ⟨fun k n hn => ⟨n, hn, rfl, rfl, rfl, .inl le_rfl⟩, rfl, ?_, fun _ => ?_⟩
    · rw [if_pos (by omega), if_pos (by omega)]
      simp [slots, uncommitted]
    · exact .inr ⟨rfl, rfl, rfl, by omega⟩

/-- A slot is given back. -/
theorem release (hcovers : Covers p t) (hslots : t.slots = 1) (hslots' : t'.slots = 0)
    (huncommitted : t'.uncommitted ≤ t.uncommitted)
    (hreserves : ∀ k, t'.reserves k = t.reserves k)
    (hvacates : ∀ url, t'.vacates url = t.vacates url) :
    Balance p t p.releaseTotalSlot t' := by
  have hnodes : p.releaseTotalSlot.nodes = p.nodes ∧
      p.releaseTotalSlot.leases = p.leases ∧
      p.releaseTotalSlot.maxTotalLeases = p.maxTotalLeases := by
    unfold releaseTotalSlot
    split_ifs <;> exact ⟨rfl, rfl, rfl⟩
  refine ⟨?_, hnodes.2.2, ?_, fun _ => .inl ?_⟩
  · intro k n hn
    rw [hnodes.1] at hn
    exact ⟨n, hn, rfl, rfl, by simp only [leasesOn, hnodes.2.1, hreserves, hvacates], .inl le_rfl⟩
  · rw [hslots, hslots']
    by_cases hmax : p.maxTotalLeases ≤ 0
    · rw [releaseTotalSlot, if_pos hmax, if_neg (by omega), if_neg (by omega)]
    · have hpos := hcovers.pending (by omega)
      rw [hslots] at hpos
      rw [releaseTotalSlot, if_neg hmax, if_pos (by omega), if_pos (by omega)]
      have hcount : max 0 (p.pendingAllocations - 1) = p.pendingAllocations - 1 := by omega
      simp only [hcount]
      omega
  · simp only [totalLeases, hnodes.2.1]
    omega

/-- A lease takes the place of a reservation. -/
theorem commit {lease : Lease} (hnew : leaseId ∉ p.leases)
    (hurl : ∀ (j : Nat) (m : ExecNode), p.nodes[j]? = some m →
      (lease.nodeUrl = m.url ↔ j = k)) :
    Balance p (.allocate image (.creating k))
      { p with leases := AList.insert leaseId lease p.leases } (.allocate image .committed) := by
  have herase : AList.erase leaseId p.leases = p.leases :=
    Dict.erase_of_lookup_none (AList.lookup_eq_none.mpr hnew)
  refine ⟨?_, rfl, rfl, fun _ => .inl ?_⟩
  · intro j m hm
    refine ⟨m, hm, rfl, rfl, ?_, .inl le_rfl⟩
    simp only [leasesOn, Dict.count_insert, herase, reserves, vacates, hurl j m hm]
    by_cases hj : j = k <;> simp [hj]
  · simp [totalLeases, Dict.count_insert, herase, uncommitted]

/-- A lease leaves a place to be given back. -/
theorem pop {lease : Lease} (hl : p.leases.lookup leaseId = some lease) :
    Balance p (.close leaseId .destroying)
      { p with leases := AList.erase leaseId p.leases }
      (.close leaseId (.popped lease.nodeUrl)) := by
  refine ⟨?_, rfl, rfl, fun _ => .inl ?_⟩
  · intro j m hm
    refine ⟨m, hm, rfl, rfl, ?_, .inl le_rfl⟩
    have hc := Dict.count_erase hl fun lease => lease.nodeUrl = m.url
    simp only [leasesOn, ← hc, reserves, vacates]
    by_cases hu : lease.nodeUrl = m.url
    · simp [hu]
    · simp [hu, Ne.symm hu]
  · have hc := Dict.count_erase hl fun _ => true
    simp only [totalLeases, uncommitted, ← hc]
    omega

/-- A rerun leaves its lease on its node. -/
theorem restart {lease lease' : Lease} (hl : p.leases.lookup leaseId = some lease)
    (hurl : lease'.nodeUrl = lease.nodeUrl) :
    Balance p (.rerun leaseId .rerunning)
      { p with leases := AList.insert leaseId lease' p.leases } (.rerun leaseId .done) := by
  refine same rfl rfl rfl ?_ ?_ (fun _ => rfl) (fun _ => rfl) rfl rfl
  · intro url
    have hc := Dict.count_erase hl fun lease => lease.nodeUrl = url
    simp only [leasesOn, Dict.count_insert, hurl, hc]
  · have hc := Dict.count_erase hl fun _ => true
    simp only [totalLeases, Dict.count_insert, hc]

theorem allocate {reply : ExecReply} {phase phase' : AllocatePhase}
    (hurls : ∀ (i j : Nat) (m n : ExecNode), p.nodes[i]? = some m → p.nodes[j]? = some n →
      m.url = n.url → i = j)
    (hcovers : Covers p (.allocate image phase))
    (h : allocateStep p image reply phase = some (p', phase')) :
    Balance p (.allocate image phase) p' (.allocate image phase') := by
  cases phase with
  | entered =>
    simp only [allocateStep] at h
    split at h
    · cases h
      exact stay (fun _ => rfl) (fun _ => rfl) rfl rfl
    · rename_i hr
      cases h
      exact reserve hr
  | reserved =>
    simp only [allocateStep] at h
    split at h
    · cases h
      exact stay (fun _ => rfl) (fun _ => rfl) rfl rfl
    · rename_i hr
      cases h
      exact pick hr
  | creating k =>
    simp only [allocateStep] at h
    split at h
    · rename_i containerId leaseId node hn
      split_ifs at h with hmem
      cases h
      refine commit hmem ?_
      intro j m hm
      constructor
      · intro hu
        exact hurls j k m node hm hn hu.symm
      · intro hj
        subst hj
        rw [hm] at hn
        cases hn
        rfl
    · cases h
      exact stay (fun _ => rfl) (fun _ => rfl) rfl rfl
  | failing k =>
    cases h
    refine unreserve ?_ ?_ rfl rfl
    · intro n hn
      have hc := hcovers.active k n hn
      simp only [reserves, vacates, if_true] at hc
      omega
    · intro j m hm
      simp [reserves, vacates, eq_comm]
  | releasing =>
    cases h
    exact release hcovers rfl rfl (Nat.zero_le _) (fun _ => rfl) fun _ => rfl
  | committed =>
    cases h
    exact release hcovers rfl rfl (Nat.zero_le _) (fun _ => rfl) fun _ => rfl
  | returned => cases h
  | raised => cases h

theorem close {reply : ExecReply} {free : Bool} {phase phase' : ClosePhase}
    (hurls : ∀ (i j : Nat) (m n : ExecNode), p.nodes[i]? = some m → p.nodes[j]? = some n →
      m.url = n.url → i = j)
    (hcovers : Covers p (.close leaseId phase))
    (h : closeStep p leaseId free reply phase = some (p', phase')) :
    Balance p (.close leaseId phase) p' (.close leaseId phase') := by
  cases phase with
  | started =>
    cases h
    split_ifs <;> exact stay (fun _ => rfl) (fun _ => rfl) rfl rfl
  | found =>
    simp only [closeStep] at h
    split_ifs at h <;> cases h <;> exact stay (fun _ => rfl) (fun _ => rfl) rfl rfl
  | destroying =>
    simp only [closeStep] at h
    split at h
    · cases h
      exact stay (fun _ => rfl) (fun _ => rfl) rfl rfl
    · split at h
      · cases h
        exact stay (fun _ => rfl) (fun _ => rfl) rfl rfl
      · rename_i hl
        cases h
        exact pop hl
  | popped url =>
    simp only [closeStep] at h
    split at h
    · rename_i hf
      cases h
      refine ⟨?_, rfl, rfl, fun _ => .inl le_rfl⟩
      intro j m hm
      refine ⟨m, hm, rfl, rfl, ?_, .inl le_rfl⟩
      have hne : m.url ≠ url := by
        have hall := List.findIdx?_eq_none_iff.mp hf m (List.mem_of_getElem? hm)
        simpa using hall
      simp [reserves, vacates, hne]
    · rename_i k hf
      cases h
      obtain ⟨n, hn, hu⟩ := findNode_spec hf
      refine unreserve ?_ ?_ rfl rfl
      · intro m hm
        have hc := hcovers.active k m hm
        rw [hn] at hm
        cases hm
        simp only [reserves, vacates, hu, if_true] at hc
        omega
      · intro j m hm
        have hiff : m.url = url ↔ k = j := by
          constructor
          · intro hmu
            exact hurls k j n m hn hm (hu.trans hmu.symm)
          · intro hkj
            subst hkj
            rw [hn] at hm
            cases hm
            exact hu
        simp [reserves, vacates, hiff]
  | done => cases h

theorem rerun {reply : ExecReply} {free : Bool} {phase phase' : RerunCallPhase}
    (h : rerunStep p leaseId free reply phase = some (p', phase')) :
    Balance p (.rerun leaseId phase) p' (.rerun leaseId phase') := by
  cases phase with
  | started =>
    cases h
    split_ifs <;> exact stay (fun _ => rfl) (fun _ => rfl) rfl rfl
  | found =>
    simp only [rerunStep] at h
    split_ifs at h <;> cases h <;> exact stay (fun _ => rfl) (fun _ => rfl) rfl rfl
  | rerunning =>
    simp only [rerunStep] at h
    split at h
    · rename_i hl
      cases h
      exact restart hl rfl
    · cases h
      exact stay (fun _ => rfl) (fun _ => rfl) rfl rfl
  | done => cases h

end Balance

/-- No two nodes have the same url. -/
def Distinct (p : SweEnvPool) : Prop :=
  ∀ (i j : Nat) (m n : ExecNode), p.nodes[i]? = some m → p.nodes[j]? = some n →
    m.url = n.url → i = j

variable {s s' : PoolState} {p' : SweEnvPool} {t t' : PoolTask}

theorem balance_of_taskStep {reply : ExecReply} (hurls : Distinct s.pool)
    (hcovers : Covers s.pool t) (h : s.taskStep reply t = some (p', t')) :
    Balance s.pool t p' t' := by
  cases t with
  | allocate image phase =>
    obtain ⟨r, hr, he⟩ := Option.map_eq_some_iff.mp h
    cases he
    exact .allocate hurls hcovers hr
  | close leaseId phase =>
    obtain ⟨r, hr, he⟩ := Option.map_eq_some_iff.mp h
    cases he
    exact .close hurls hcovers hr
  | rerun leaseId phase =>
    obtain ⟨r, hr, he⟩ := Option.map_eq_some_iff.mp h
    cases he
    exact .rerun hr

/-- The sums over leases and tasks that the counters show. -/
structure Counted (s : PoolState) : Prop where
  active : ∀ (k : Nat) (n : ExecNode), s.pool.nodes[k]? = some n → n.activeContainers =
    s.pool.leasesOn n.url + tally (·.reserves k) s.tasks + tally (·.vacates n.url) s.tasks
  pending : s.pool.pendingAllocations =
    if 0 < s.pool.maxTotalLeases then (tally (·.slots) s.tasks : Int) else 0

theorem Counted.covers (h : s.Counted) (ht : t ∈ s.tasks) : Covers s.pool t := by
  refine ⟨?_, ?_⟩
  · intro k n hn
    have ha := h.active k n hn
    have hr := le_tally (·.reserves k) ht
    have hv := le_tally (·.vacates n.url) ht
    omega
  · intro hmax
    have hp := h.pending
    rw [if_pos hmax] at hp
    have hs := le_tally (·.slots) ht
    omega

theorem Counted.restores (h : s.Counted) : s.pool.Restores := by
  refine SweEnvPool.restores_of_nonneg ?_ ?_
  · intro n hn
    obtain ⟨k, hk⟩ := List.mem_iff_getElem?.mp hn
    have ha := h.active k n hk
    omega
  · have hp := h.pending
    split_ifs at hp <;> omega

theorem Counted.step {i : Nat} (h : s.Counted) (hi : s.tasks[i]? = some t)
    (hb : Balance s.pool t p' t') : Counted ⟨p', s.tasks.set i t'⟩ := by
  refine ⟨?_, ?_⟩
  · intro k n' hn'
    obtain ⟨n, hn, hurl, -, hactive, -⟩ := hb.active k n' hn'
    have ha := h.active k n hn
    have hr := tally_set (·.reserves k) hi t'
    have hv := tally_set (·.vacates n.url) hi t'
    rw [hurl]
    dsimp only at hr hv ⊢
    omega
  · have hp := h.pending
    have hbp := hb.pending
    have hs := tally_set (·.slots) hi t'
    dsimp only at hs ⊢
    rw [hb.limit]
    split_ifs at hp hbp ⊢ <;> omega

/-- What holds in every run. -/
structure Inv (s : PoolState) : Prop where
  urls : Distinct s.pool
  counted : s.Counted
  capacity : ∀ n ∈ s.pool.nodes, 0 < n.maxContainers → n.activeContainers ≤ n.maxContainers
  total : 0 < s.pool.maxTotalLeases →
    (s.pool.totalLeases + tally (·.uncommitted) s.tasks : Int) ≤ s.pool.maxTotalLeases

theorem Inv.keeps_account (h : s.Inv) : s.Accounted :=
  ⟨h.counted.active, h.counted.pending, h.capacity, h.total, fun _ ht => h.counted.covers ht,
    h.counted.restores⟩

theorem Inv.step {i : Nat} (h : s.Inv) (hi : s.tasks[i]? = some t)
    (hb : Balance s.pool t p' t') : Inv ⟨p', s.tasks.set i t'⟩ := by
  refine ⟨?_, h.counted.step hi hb, ?_, ?_⟩
  · intro j k m n hm hn hu
    obtain ⟨m₀, hm₀, hmu, -⟩ := hb.active j m hm
    obtain ⟨n₀, hn₀, hnu, -⟩ := hb.active k n hn
    exact h.urls j k m₀ n₀ hm₀ hn₀ (hmu.symm.trans (hu.trans hnu))
  · intro n' hn' hmax
    obtain ⟨k, hk⟩ := List.mem_iff_getElem?.mp hn'
    obtain ⟨n, hn, -, hlimit, -, hle⟩ := hb.active k n' hk
    rw [hlimit] at hmax ⊢
    have hcap := h.capacity n (List.mem_of_getElem? hn) hmax
    rcases hle with hle | ⟨hc, he⟩
    · exact hle.trans hcap
    · simp only [ExecNode.isCandidate, Bool.and_eq_true, Bool.or_eq_true, decide_eq_true_eq] at hc
      omega
  · intro hmax
    rw [hb.limit] at hmax ⊢
    have htotal := h.total hmax
    have hp := h.counted.pending
    rw [if_pos hmax] at hp
    have hu := tally_set (·.uncommitted) hi t'
    have hle : tally (·.uncommitted) s.tasks ≤ tally (·.slots) s.tasks :=
      tally_mono (fun t => Nat.le_add_right _ _) _
    dsimp only at hu ⊢
    rcases hb.total hmax with hle | ⟨he, hz, hone, hlt⟩ <;> omega

/-- A task that has nothing in the counters begins. -/
theorem Inv.add {t : PoolTask} (h : s.Inv) (hr : ∀ k, t.reserves k = 0)
    (hv : ∀ url, t.vacates url = 0) (hu : t.uncommitted = 0) (hs : t.slots = 0) :
    Inv { s with tasks := s.tasks ++ [t] } := by
  refine ⟨h.urls, ⟨?_, ?_⟩, h.capacity, ?_⟩
  · simpa [hr, hv] using h.counted.active
  · simpa [hs] using h.counted.pending
  · simpa [hu] using h.total

theorem Inv.next {a : PoolAction} (h : s.Inv) (hn : s.next a = some s') : s'.Inv := by
  cases a with
  | allocate image =>
    simp only [PoolState.next] at hn
    split_ifs at hn
    cases hn
    exact h.add (fun _ => rfl) (fun _ => rfl) rfl rfl
  | close leaseId =>
    cases hn
    exact h.add (fun _ => rfl) (fun _ => rfl) rfl rfl
  | rerun leaseId =>
    cases hn
    exact h.add (fun _ => rfl) (fun _ => rfl) rfl rfl
  | step i reply =>
    simp only [PoolState.next] at hn
    split at hn
    · cases hn
    · rename_i t hi
      obtain ⟨r, hr, rfl⟩ := Option.map_eq_some_iff.mp hn
      exact h.step hi
        (balance_of_taskStep h.urls (h.counted.covers (List.mem_of_getElem? hi)) hr)
  | health k healthy =>
    cases hn
    refine ⟨?_, ⟨?_, h.counted.pending⟩, ?_, h.total⟩
    · intro i j m n hm hn hu
      obtain ⟨m₀, hm₀, hmu, -⟩ := SweEnvPool.getElem?_setHealthy hm
      obtain ⟨n₀, hn₀, hnu, -⟩ := SweEnvPool.getElem?_setHealthy hn
      exact h.urls i j m₀ n₀ hm₀ hn₀ (hmu.symm.trans (hu.trans hnu))
    · intro j m hm
      obtain ⟨m₀, hm₀, hmu, hactive, -⟩ := SweEnvPool.getElem?_setHealthy hm
      rw [hactive, hmu]
      exact h.counted.active j m₀ hm₀
    · intro m hm hmax
      obtain ⟨j, hj⟩ := List.mem_iff_getElem?.mp hm
      obtain ⟨m₀, hm₀, -, hactive, hlimit⟩ := SweEnvPool.getElem?_setHealthy hj
      rw [hactive, hlimit]
      rw [hlimit] at hmax
      exact h.capacity m₀ (List.mem_of_getElem? hm₀) hmax

theorem init_inv {urls : List String} (hurls : urls.Nodup)
    (maxContainersPerNode maxTotalLeases maxConcurrentAllocates : Int) :
    (start (.init urls maxContainersPerNode maxTotalLeases maxConcurrentAllocates)).Inv := by
  have hnode : ∀ (k : Nat) (n : ExecNode),
      (urls.map (ExecNode.start · maxContainersPerNode))[k]? = some n →
      ∃ u, urls[k]? = some u ∧ n = .start u maxContainersPerNode := by
    intro k n hn
    rw [List.getElem?_map] at hn
    obtain ⟨u, hu, rfl⟩ := Option.map_eq_some_iff.mp hn
    exact ⟨u, hu, rfl⟩
  refine ⟨?_, ⟨?_, ?_⟩, ?_, ?_⟩
  · intro i j m n hm hn hu
    obtain ⟨u, hi, rfl⟩ := hnode i m hm
    obtain ⟨v, hj, rfl⟩ := hnode j n hn
    obtain rfl : u = v := hu
    obtain ⟨hlt, -⟩ := List.getElem?_eq_some_iff.mp hi
    exact (List.getElem?_inj hlt hurls).mp (hi.trans hj.symm)
  · intro k n hn
    obtain ⟨u, -, rfl⟩ := hnode k n hn
    rfl
  · simp [start, SweEnvPool.init]
  · intro n hn hmax
    obtain ⟨k, hk⟩ := List.mem_iff_getElem?.mp hn
    obtain ⟨u, -, rfl⟩ := hnode k n hk
    exact hmax.le
  · intro hmax
    exact hmax.le

/-- In every run of a pool of nodes with distinct urls the counters are right. -/
theorem accounted {urls : List String} (hurls : urls.Nodup)
    (maxContainersPerNode maxTotalLeases maxConcurrentAllocates : Int) (run : List PoolAction) :
    Along next Accounted
      (start (.init urls maxContainersPerNode maxTotalLeases maxConcurrentAllocates)) run :=
  (along_of_meets (G := fun _ _ => True) (fun _ _ _ h _ hn => h.next hn)
    (init_inv hurls maxContainersPerNode maxTotalLeases maxConcurrentAllocates)
    (meets_of_forall (fun _ _ => trivial) _ _)).mono fun _ h => h.keeps_account

/-- An allocation that gets a container and one that does not, and a close. -/
def servingRun : List PoolAction :=
  [.allocate "img", .step 0 .failed, .step 0 .failed, .step 0 (.ok "c" "l"), .step 0 .failed,
    .allocate "img", .step 1 .failed, .step 1 .failed, .close "l", .step 2 .failed,
    .step 2 .failed, .step 2 (.ok "" ""), .step 1 .failed, .step 2 .failed, .step 1 .failed,
    .step 1 .failed]

theorem accounted_servingRun :
    Along next Accounted (start (.init ["m", "n"] 1 2 1)) servingRun :=
  accounted (by decide) 1 2 1 servingRun

/-- The counters as if every request changed all of them at once, whatever the limits. -/
structure CountedAtOnce (s : PoolState) : Prop where
  active : ∀ (k : Nat) (n : ExecNode), s.pool.nodes[k]? = some n →
    n.activeContainers = s.pool.leasesOn n.url + tally (·.reserves k) s.tasks
  pending : s.pool.pendingAllocations = tally (·.slots) s.tasks
  capacity : ∀ n ∈ s.pool.nodes, n.activeContainers ≤ n.maxContainers
  total : (s.pool.totalLeases + tally (·.slots) s.tasks : Int) ≤ s.pool.maxTotalLeases

/-- Up to the first reservation. -/
def reservingRun : List PoolAction := [.allocate "img", .step 0 .failed]

/-- Up to the lease of an allocation that has not given its slot back. -/
def committingRun : List PoolAction := reservingRun ++ [.step 0 .failed, .step 0 (.ok "c" "l")]

/-- Up to a closed lease whose place has not been given back. -/
def closingRun : List PoolAction :=
  committingRun ++ [.step 0 .failed, .close "l", .step 1 .failed, .step 1 .failed,
    .step 1 (.ok "" "")]

theorem countedAtOnce_fails :
    ¬Along next CountedAtOnce (start (.init ["n"] 1 0 1)) reservingRun ∧
      ¬Along next CountedAtOnce (start (.init ["n"] 1 1 1)) committingRun ∧
      ¬Along next CountedAtOnce (start (.init ["n"] 1 2 1)) closingRun := by
  refine ⟨?_, ?_, ?_⟩
  · intro h
    exact absurd (h.last rfl).pending (by decide)
  · intro h
    exact absurd (h.last rfl).total (by decide)
  · intro h
    exact absurd ((h.last rfl).active 0 _ rfl) (by decide)

end PoolState

end Belayer.Pool
