import Belayer.Framework.Json
import Belayer.Framework.Text
import Belayer.Pool.Capacity

namespace Belayer.Pool

open Belayer.Framework

inductive ResponseBody where
  | json (body : Json)
  | text (text : String)

/-- A response of an exec server; `errorText` is what `raise_for_status` says of its status. -/
structure ExecResponse where
  status : Nat
  errorText : String
  body : ResponseBody

/-- An exception by the clauses that catch it: `RuntimeError`, the timeouts of requests, its other
exceptions, and all else. -/
inductive PoolException where
  | runtimeError (text : String)
  | timeout (text : String)
  | requestException (text : String)
  | other (text : String)

/-- A reply of the pool server. -/
structure RouteReply where
  status : Nat
  body : JsonObject

/-- `lower` is `str.lower`: it is the usual one on ASCII texts. -/
def LowersAscii (lower : String → String) : Prop :=
  ∀ s : String, Text.IsAscii s → lower s = String.ofList (s.toList.map Char.toLower)

section Texts

-- `lower` is `str.lower`, the other two are `repr` of a text and of a JSON value
variable (lower reprStr : String → String) (repr : Json → String)

/-- `_post_exec`, where the request may raise. -/
def postExec (post : Except PoolException ExecResponse) : Except PoolException JsonObject :=
  match post with
  | .error e => .error e
  | .ok response =>
    let isError := 400 ≤ response.status ∧ response.status < 600
    match response.body with
    | .text text =>
      if isError then .error (.requestException response.errorText)
      else
        .error (.runtimeError
          ("Exec server returned a non-JSON response: " ++ Text.take text 200))
    | .json (.obj body) => .ok body
    | .json body =>
      if isError then .error (.requestException response.errorText)
      else
        .error (.runtimeError ("Exec server returned an unexpected JSON payload: " ++ repr body))

/-- An entry of the nodes in the text of a refusal. -/
def ExecNode.entryText (n : ExecNode) : String :=
  "(" ++ reprStr n.url ++ ", " ++ toString n.activeContainers ++ ", " ++
    (if n.healthy then "True" else "False") ++ ")"

/-- What `_pick_and_reserve_node` says when it has no candidate. -/
def fullText (nodes : List ExecNode) : String :=
  "All exec nodes are full or unhealthy. nodes=[" ++
    String.intercalate ", " (nodes.map (·.entryText reprStr)) ++ "]"

/-- The markers that `/allocate` knows a refusal for lack of capacity by. -/
def isCapacityText (err : String) : Bool :=
  Text.contains "global lease limit reached" (lower err) ||
    Text.contains "no healthy exec nodes available" (lower err)

def transportMarkers : List String :=
  ["timed out", "connection aborted", "connection reset", "remote disconnected"]

namespace RouteReply

def error (status : Nat) (err : String) : RouteReply :=
  ⟨status, [("ok", .bool false), ("error", .str err)]⟩

/-- An error that the client may retry. -/
def retryable (err errorCode : String) (retryAfterSec : Rat) : RouteReply :=
  ⟨200, [("ok", .bool false), ("error", .str err), ("error_code", .str errorCode),
    ("retryable", .bool true), ("retry_after_sec", .float retryAfterSec)]⟩

/-- What `/allocate` answers to an exception. -/
def ofException : PoolException → RouteReply
  | .runtimeError err =>
    if isCapacityText lower err then retryable err "capacity_limited" 1 else error 500 err
  | .timeout err => retryable err "create_timeout" 2
  | .requestException err =>
    if transportMarkers.any fun marker => Text.contains marker (lower err) then
      retryable err "create_transport_error" 2
    else error 500 err
  | .other err => error 500 err

end RouteReply

namespace SweEnvPool

/-- Leases, and allocations that have a slot. -/
def inflight (p : SweEnvPool) : Int := p.totalLeases + p.pendingAllocations

/-- What `_reserve_total_slot` says at the limit. -/
def limitText (p : SweEnvPool) : String :=
  "Global lease limit reached (" ++ toString p.inflight ++ ">=" ++ toString p.maxTotalLeases ++
    "). Please lower rollout concurrency or increase SWE_POOL_MAX_TOTAL_LEASES."

/-- The container of a create. -/
def createdContainer (url : String) (post : Except PoolException ExecResponse) :
    Except PoolException String := do
  let result ← postExec repr post
  if (result.get "ok").any Json.truthy then
    match result.get "container_id" with
    | some (.str containerId) => .ok containerId
    | _ => .error (.other "'container_id'")
  else
    .error (.runtimeError ("Container create failed on " ++ url ++ ": " ++ repr (.obj result)))

/-- The part of `allocate` on a node that has been reserved. -/
def allocateOn (p : SweEnvPool) (k : Nat) (image : String)
    (post : Except PoolException ExecResponse) (leaseId : String) :
    SweEnvPool × Except PoolException Lease :=
  let url := ((p.nodes[k]?).map (·.url)).getD ""
  match createdContainer repr url post with
  | .error e => ((p.unreserveNode k).releaseTotalSlot, .error e)
  | .ok containerId =>
    let lease := Lease.start url containerId image
    ({ p with leases := AList.insert leaseId lease p.leases }.releaseTotalSlot, .ok lease)

/-- `allocate`; `post` is what becomes of its request for a container. -/
def allocate (p : SweEnvPool) (image : String) (post : Except PoolException ExecResponse)
    (leaseId : String) : SweEnvPool × Except PoolException Lease :=
  match p.reserveTotalSlot with
  | none => (p, .error (.runtimeError p.limitText))
  | some reserved =>
    match reserved.pickAndReserveNode with
    | none => (reserved.releaseTotalSlot, .error (.runtimeError (fullText reprStr reserved.nodes)))
    | some (k, picked) => picked.allocateOn repr k image post leaseId

/-- The route `/allocate`. -/
def allocateRoute (p : SweEnvPool) (image : String) (post : Except PoolException ExecResponse)
    (leaseId : String) : SweEnvPool × RouteReply :=
  if image = "" then (p, .error 400 "image is required")
  else
    match p.allocate reprStr repr image post leaseId with
    | (p', .ok lease) =>
      (p', ⟨200, [("ok", .bool true), ("lease_id", .str leaseId),
        ("container_id", .str lease.containerId), ("node_url", .str lease.nodeUrl)]⟩)
    | (p', .error e) => (p', .ofException lower e)

/-- The limit on all leases is on and reached. -/
def AtLimit (p : SweEnvPool) : Prop :=
  0 < p.maxTotalLeases ∧ p.maxTotalLeases ≤ p.inflight

/-- A request cannot be placed: the limit is reached, or every node is full or unhealthy. -/
def LacksCapacity (p : SweEnvPool) : Prop :=
  p.AtLimit ∨ ∀ n ∈ p.nodes, n.isCandidate = false

/-- The reply is the retryable one, and the pool is as it was. -/
structure RefusedCleanly (p : SweEnvPool) (answered : SweEnvPool × RouteReply) : Prop where
  unchanged : answered.1 = p
  status : answered.2.status = 200
  errorCode : answered.2.body.get "error_code" = some (.str "capacity_limited")
  retryable : answered.2.body.get "retryable" = some (.bool true)

variable {p p' : SweEnvPool} {image leaseId : String} {post : Except PoolException ExecResponse}

theorem reserveTotalSlot_eq_none : p.reserveTotalSlot = none ↔ p.AtLimit := by
  rw [reserveTotalSlot, AtLimit, inflight]
  split_ifs with hoff hfull
  · exact iff_of_false (by simp) fun h => absurd h.1 (by omega)
  · exact iff_of_true rfl ⟨by omega, hfull⟩
  · exact iff_of_false (by simp) fun h => hfull h.2

theorem pickAndReserveNode_eq_none :
    p.pickAndReserveNode = none ↔ ∀ n ∈ p.nodes, n.isCandidate = false := by
  rw [pickAndReserveNode, Option.map_eq_none_iff, pickNode, List.argmin_eq_none,
    List.filter_eq_nil_iff]
  constructor
  · intro h n hn
    obtain ⟨k, hk, hget⟩ := List.getElem_of_mem hn
    have hnone := h k (List.mem_range.mpr hk)
    rw [List.getElem?_eq_getElem hk, hget, Option.any_some, Bool.not_eq_true] at hnone
    exact hnone
  · intro h k hk
    rw [List.getElem?_eq_getElem (List.mem_range.mp hk), Option.any_some, Bool.not_eq_true]
    exact h _ (List.getElem_mem _)

/-- A reservation changes the counter of pending allocations only. -/
theorem frame_of_reserveTotalSlot (h : p.reserveTotalSlot = some p') :
    p' = { p with pendingAllocations := p'.pendingAllocations } := by
  simp only [reserveTotalSlot] at h
  split_ifs at h
  · rw [← Option.some.inj h]
  · rw [← Option.some.inj h]

theorem nodes_of_reserveTotalSlot (h : p.reserveTotalSlot = some p') : p'.nodes = p.nodes := by
  rw [frame_of_reserveTotalSlot h]

theorem nonneg_of_reserveTotalSlot (hpending : 0 ≤ p.pendingAllocations)
    (h : p.reserveTotalSlot = some p') : 0 ≤ p'.pendingAllocations := by
  simp only [reserveTotalSlot] at h
  split_ifs at h
  · rw [← Option.some.inj h]
    exact hpending
  · rw [← Option.some.inj h]
    exact Int.add_nonneg hpending (by decide)

/-- A slot that is given back at once leaves the pool as it was, unless the count was negative. -/
theorem releaseTotalSlot_reserved (h : p.reserveTotalSlot = some p') :
    p'.releaseTotalSlot = p ↔ p.maxTotalLeases ≤ 0 ∨ 0 ≤ p.pendingAllocations := by
  simp only [reserveTotalSlot] at h
  split_ifs at h with hoff hfull
  · rw [← Option.some.inj h, releaseTotalSlot, if_pos hoff]
    exact iff_of_true rfl (.inl hoff)
  · rw [← Option.some.inj h, releaseTotalSlot, if_neg hoff]
    constructor
    · intro heq
      have hpending := congrArg SweEnvPool.pendingAllocations heq
      dsimp only at hpending
      omega
    · intro hpending
      have hcount : max 0 (p.pendingAllocations + 1 - 1) = p.pendingAllocations := by omega
      simp only [hcount]

/-- The reply that the task of an allocation gets. -/
def replyOf (post : Except PoolException ExecResponse) (leaseId : String) : ExecReply :=
  match createdContainer repr "" post with
  | .ok containerId => .ok containerId leaseId
  | .error _ => .failed

/-- The url of a node is only in the text of an error. -/
theorem createdContainer_ok_iff {url url' containerId : String} :
    createdContainer repr url post = .ok containerId ↔
      createdContainer repr url' post = .ok containerId := by
  unfold createdContainer
  cases postExec repr post with
  | error e => exact Iff.rfl
  | ok result =>
    simp only [bind, Except.bind]
    split_ifs <;> simp

theorem replyOf_of_ok {url containerId : String}
    (h : createdContainer repr url post = .ok containerId) :
    replyOf repr post leaseId = .ok containerId leaseId := by
  rw [replyOf, (createdContainer_ok_iff repr).mp h]

theorem replyOf_of_error {url : String} {e : PoolException}
    (h : createdContainer repr url post = .error e) : replyOf repr post leaseId = .failed := by
  rw [replyOf]
  cases hempty : createdContainer repr "" post with
  | error e' => rfl
  | ok containerId =>
    rw [(createdContainer_ok_iff repr).mp hempty] at h
    cases h

theorem leases_of_reserveTotalSlot (h : p.reserveTotalSlot = some p') : p'.leases = p.leases := by
  rw [frame_of_reserveTotalSlot h]

theorem leases_of_pickAndReserveNode {k : Nat} (h : p.pickAndReserveNode = some (k, p')) :
    p'.leases = p.leases := by
  obtain ⟨j, -, he⟩ := Option.map_eq_some_iff.mp h
  cases he
  rfl

theorem exists_node_of_pickAndReserveNode {k : Nat} (h : p.pickAndReserveNode = some (k, p')) :
    ∃ n, p'.nodes[k]? = some n := by
  obtain ⟨j, hj, he⟩ := Option.map_eq_some_iff.mp h
  cases he
  obtain ⟨n, hn, -⟩ := pickNode_spec hj
  rw [getElem?_setActive, hn]
  exact ⟨_, rfl⟩

theorem next_allocate {phase phase' : AllocatePhase} {reply : ExecReply}
    (h : PoolState.allocateStep p image reply phase = some (p', phase')) :
    PoolState.next ⟨p, [.allocate image phase]⟩ (.step 0 reply) =
      some ⟨p', [.allocate image phase']⟩ := by
  simp [PoolState.next, PoolState.taskStep, h]

/-- The task of an allocation that runs by itself does what `allocate` does. -/
theorem exec_allocate (hfresh : leaseId ∉ p.leases) : ∃ n phase,
    exec PoolState.next ⟨p, [.allocate image .entered]⟩
        (List.replicate n (.step 0 (replyOf repr post leaseId))) =
      some ⟨(p.allocate reprStr repr image post leaseId).1, [.allocate image phase]⟩ ∧
    (phase = .returned ∨ phase = .raised) := by
  have hentered : ∀ reply, PoolState.allocateStep p image reply .entered =
      match p.reserveTotalSlot with
      | none => some (p, .raised)
      | some p' => some (p', .reserved) := fun _ => rfl
  rw [allocate]
  cases hreserve : p.reserveTotalSlot with
  | none =>
    rw [hreserve] at hentered
    exact ⟨1, .raised, exec_cons_some (next_allocate (hentered _)) [], .inr rfl⟩
  | some reserved =>
    rw [hreserve] at hentered
    have hreserved : ∀ reply, PoolState.allocateStep reserved image reply .reserved =
        match reserved.pickAndReserveNode with
        | none => some (reserved, .releasing)
        | some (k, p') => some (p', .creating k) := fun _ => rfl
    dsimp only
    cases hpick : reserved.pickAndReserveNode with
    | none =>
      rw [hpick] at hreserved
      refine ⟨3, .raised, ?_, .inr rfl⟩
      rw [List.replicate_succ, exec_cons_some (next_allocate (hentered _)), List.replicate_succ,
        exec_cons_some (next_allocate (hreserved _))]
      exact exec_cons_some (next_allocate rfl) []
    | some r =>
      obtain ⟨k, picked⟩ := r
      rw [hpick] at hreserved
      obtain ⟨node, hnode⟩ := exists_node_of_pickAndReserveNode hpick
      have hleases : picked.leases = p.leases :=
        (leases_of_pickAndReserveNode hpick).trans (leases_of_reserveTotalSlot hreserve)
      dsimp only [allocateOn]
      rw [hnode, Option.map_some, Option.getD_some]
      cases hcreated : createdContainer repr node.url post with
      | error e =>
        have hreply : replyOf repr post leaseId = .failed := replyOf_of_error repr hcreated
        refine ⟨5, .raised, ?_, .inr rfl⟩
        rw [List.replicate_succ, exec_cons_some (next_allocate (hentered _)), List.replicate_succ,
          exec_cons_some (next_allocate (hreserved _)), hreply, List.replicate_succ,
          exec_cons_some (next_allocate rfl), List.replicate_succ,
          exec_cons_some (next_allocate rfl)]
        exact exec_cons_some (next_allocate rfl) []
      | ok containerId =>
        have hreply : replyOf repr post leaseId = .ok containerId leaseId :=
          replyOf_of_ok repr hcreated
        have hcreating : PoolState.allocateStep picked image (.ok containerId leaseId)
            (.creating k) = some ({ picked with
              leases := AList.insert leaseId (Lease.start node.url containerId image)
                picked.leases }, .committed) := by
          have hnew : leaseId ∉ picked.leases := hleases ▸ hfresh
          simp only [PoolState.allocateStep, hnode, if_neg hnew]
        refine ⟨4, .returned, ?_, .inl rfl⟩
        rw [List.replicate_succ, exec_cons_some (next_allocate (hentered _)), List.replicate_succ,
          exec_cons_some (next_allocate (hreserved _)), hreply, List.replicate_succ,
          exec_cons_some (next_allocate hcreating)]
        exact exec_cons_some (next_allocate rfl) []

/-- An allocation that fails leaves the pool as it was. -/
theorem allocate_of_error (hactive : ∀ n ∈ p.nodes, 0 ≤ n.activeContainers)
    (hpending : 0 ≤ p.pendingAllocations) {e : PoolException}
    (h : p.allocate reprStr repr image post leaseId = (p', .error e)) : p' = p := by
  have hslot := (restores_of_nonneg hactive hpending).1
  rw [allocate] at h
  cases hreserve : p.reserveTotalSlot with
  | none =>
    rw [hreserve] at h
    exact (Prod.mk.inj h).1.symm
  | some reserved =>
    rw [hreserve] at h
    dsimp only at h
    cases hpick : reserved.pickAndReserveNode with
    | none =>
      rw [hpick] at h
      exact (Prod.mk.inj h).1.symm.trans (hslot reserved hreserve)
    | some r =>
      obtain ⟨k, picked⟩ := r
      rw [hpick] at h
      dsimp only [allocateOn] at h
      have hnodes := nodes_of_reserveTotalSlot hreserve
      have hnode : picked.unreserveNode k = reserved := by
        refine (restores_of_nonneg ?_ ?_).2 k picked hpick
        · rw [hnodes]
          exact hactive
        · exact nonneg_of_reserveTotalSlot hpending hreserve
      split at h
      · rw [hnode] at h
        exact (Prod.mk.inj h).1.symm.trans (hslot reserved hreserve)
      · cases (Prod.mk.inj h).2

theorem allocateRoute_of_error (himage : image ≠ "") {e : PoolException}
    (h : p.allocate reprStr repr image post leaseId = (p', .error e)) :
    p.allocateRoute lower reprStr repr image post leaseId = (p', .ofException lower e) := by
  rw [allocateRoute, if_neg himage, h]

/-- The refusal at the limit is known by its marker. -/
theorem isCapacityText_limitText (hlower : LowersAscii lower) :
    isCapacityText lower p.limitText = true := by
  have hhead : Text.IsAscii "Global lease limit reached (" := Text.isAscii_of_all rfl
  have hmiddle : Text.IsAscii ">=" := Text.isAscii_of_all rfl
  have htail : Text.IsAscii
      "). Please lower rollout concurrency or increase SWE_POOL_MAX_TOTAL_LEASES." :=
    Text.isAscii_of_all rfl
  have hascii : Text.IsAscii p.limitText := by
    have h1 := hhead.append (Text.isAscii_toString p.inflight)
    have h2 := h1.append hmiddle
    have h3 := h2.append (Text.isAscii_toString p.maxTotalLeases)
    exact h3.append htail
  have hlowered : "Global lease limit reached (".toList.map Char.toLower =
      "global lease limit reached".toList ++ [' ', '('] := by decide +kernel
  obtain ⟨tail, hsplit⟩ : ∃ tail, p.limitText = "Global lease limit reached (" ++ tail := by
    refine ⟨toString p.inflight ++ (">=" ++ (toString p.maxTotalLeases ++
      "). Please lower rollout concurrency or increase SWE_POOL_MAX_TOTAL_LEASES.")), ?_⟩
    change "Global lease limit reached (" ++ toString p.inflight ++ ">=" ++
      toString p.maxTotalLeases ++ _ = _
    rw [String.append_assoc, String.append_assoc, String.append_assoc]
  have hrest : (lower p.limitText).toList =
      "global lease limit reached".toList ++ ([' ', '('] ++ tail.toList.map Char.toLower) := by
    rw [hlower _ hascii, String.toList_ofList, hsplit, String.toList_append, List.map_append,
      hlowered, List.append_assoc]
  have hmarker : "global lease limit reached".toList <:+: (lower p.limitText).toList := by
    rw [hrest]
    exact (List.prefix_append _ _).isInfix
  rw [isCapacityText, Bool.or_eq_true]
  exact .inl (Text.contains_iff.mpr hmarker)

/-- A runtime error is answered as a refusal exactly when its text has a marker. -/
theorem refusedCleanly_runtimeError {err : String} :
    p.RefusedCleanly (p', .ofException lower (.runtimeError err)) ↔
      p' = p ∧ isCapacityText lower err = true := by
  rw [RouteReply.ofException]
  split_ifs with hmarker
  · exact ⟨fun h => ⟨h.unchanged, hmarker⟩, fun h => ⟨h.1, rfl, rfl, rfl⟩⟩
  · exact ⟨fun h => absurd h.status (by simp [RouteReply.error]), fun h => absurd h.2 hmarker⟩

/-- Where there is no capacity, a request is refused cleanly iff the limit is what refuses it, or
the nodes in the text of the refusal happen to have one of the markers. -/
theorem refusedCleanly_iff (hlower : LowersAscii lower) (himage : image ≠ "")
    (hcapacity : p.LacksCapacity) :
    p.RefusedCleanly (p.allocateRoute lower reprStr repr image post leaseId) ↔
      p.AtLimit ∨ isCapacityText lower (fullText reprStr p.nodes) = true ∧
        (p.maxTotalLeases ≤ 0 ∨ 0 ≤ p.pendingAllocations) := by
  cases hreserve : p.reserveTotalSlot with
  | none =>
    have hlimit := reserveTotalSlot_eq_none.mp hreserve
    have hrefused : p.allocate reprStr repr image post leaseId =
        (p, .error (.runtimeError p.limitText)) := by rw [allocate, hreserve]
    rw [allocateRoute_of_error lower reprStr repr himage hrefused]
    refine iff_of_true ?_ (.inl hlimit)
    exact (refusedCleanly_runtimeError lower).mpr ⟨rfl, isCapacityText_limitText lower hlower⟩
  | some reserved =>
    have hlimit : ¬p.AtLimit := fun h => by
      rw [reserveTotalSlot_eq_none.mpr h] at hreserve
      cases hreserve
    have hnodes := nodes_of_reserveTotalSlot hreserve
    have hpick : reserved.pickAndReserveNode = none := by
      rw [pickAndReserveNode_eq_none, hnodes]
      exact hcapacity.resolve_left hlimit
    have hrefused : p.allocate reprStr repr image post leaseId =
        (reserved.releaseTotalSlot, .error (.runtimeError (fullText reprStr p.nodes))) := by
      rw [allocate, hreserve]
      dsimp only
      rw [hpick, hnodes]
    rw [allocateRoute_of_error lower reprStr repr himage hrefused,
      refusedCleanly_runtimeError, releaseTotalSlot_reserved hreserve, or_iff_right hlimit,
      and_comm]

end SweEnvPool

end Texts

theorem lowersAscii_toLower : LowersAscii String.toLower := fun s _ => by
  rw [← String.toList_inj, String.toList_ofList]
  exact String.toList_map

namespace SweEnvPool

/-- The only node of the pool is full. -/
def fullPool : SweEnvPool := ⟨[⟨"http://node-1:5000", 1, 1, true⟩], ∅, 0, 1, 0⟩

def quoted (s : String) : String := "'" ++ s ++ "'"

/-- The limit is one lease, and an allocation is under way. -/
def limitedPool : SweEnvPool := { fullPool with maxTotalLeases := 1, pendingAllocations := 1 }

theorem refusedCleanly_iff_limitedPool :
    limitedPool.RefusedCleanly (limitedPool.allocateRoute String.toLower quoted (fun _ => "{}")
        "img" (.error (.timeout "")) "l") ↔
      limitedPool.AtLimit ∨
        isCapacityText String.toLower (fullText quoted limitedPool.nodes) = true ∧
          (limitedPool.maxTotalLeases ≤ 0 ∨ 0 ≤ limitedPool.pendingAllocations) :=
  refusedCleanly_iff String.toLower quoted (fun _ => "{}") lowersAscii_toLower (by decide)
    (.inl ⟨by decide, by decide⟩)

/-- A full node is answered with a server error. -/
theorem not_refusedCleanly_fullPool :
    fullPool.LacksCapacity ∧
      ¬fullPool.RefusedCleanly (fullPool.allocateRoute String.toLower quoted (fun _ => "{}")
        "img" (.error (.timeout "")) "l") := by
  refine ⟨.inr (by decide), fun h => ?_⟩
  have hstatus : (fullPool.allocateRoute String.toLower quoted (fun _ => "{}")
      "img" (.error (.timeout "")) "l").2.status = 500 := by decide +kernel
  rw [h.status] at hstatus
  exact absurd hstatus (by decide)

end SweEnvPool

end Belayer.Pool
