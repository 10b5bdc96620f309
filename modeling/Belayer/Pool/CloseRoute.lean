import Belayer.Pool.AllocateRoute

namespace Belayer.Pool

open Belayer.Framework

/-- What a docker command ends with. -/
structure DockerResult where
  returncode : Int
  stdout : String
  stderr : String

section Exec

-- `lower` is `str.lower`, `page` the page of a server error
variable (lower : String → String) (page : String → String)

/-- `_docker_destroy_container` with the result of its `docker rm`; a container that is absent is
destroyed. -/
def dockerDestroyContainer (containerId : String) (result : DockerResult) : Except String Unit :=
  if result.returncode = 0 then .ok ()
  else
    let errorText := Text.strip
      (String.intercalate "\n" ([result.stdout, result.stderr].filter (· ≠ "")))
    if Text.contains "no such container" (lower errorText) then .ok ()
    else .error (if errorText ≠ "" then errorText else "docker rm -f failed for " ++ containerId)

/-- The route `/container/destroy` of an exec server, with the reason of the release of an active
container. An exception becomes a server error. -/
def containerDestroy (containerId : String) (releaseReason : Option String)
    (result : Except String DockerResult) : ExecResponse :=
  if containerId = "" then
    ⟨400, "400 Client Error",
      .json (.obj [("ok", .bool false), ("error", .str "container_id is required")])⟩
  else
    match result.bind (dockerDestroyContainer lower containerId) with
    | .error err => ⟨500, "500 Server Error", .text (page err)⟩
    | .ok () =>
      match releaseReason with
      | none => ⟨200, "", .json (.obj
          [("ok", .bool true), ("destroyed", .bool true), ("pooled", .bool false)])⟩
      | some reason => ⟨200, "", .json (.obj
          [("ok", .bool true), ("pooled", .bool false), ("destroyed", .bool true),
            ("reason", .str reason)])⟩

end Exec

/-- The call has given a JSON object, under any status. -/
def HasReply (post : Except PoolException ExecResponse) : Prop :=
  ∃ response body, post = .ok response ∧ response.body = .json (.obj body)

/-- The exec server confirms that the container is gone: the reply is no error, it is ok, and it
does not say that the container was not destroyed. -/
def Confirms (post : Except PoolException ExecResponse) : Prop :=
  ∃ response body, post = .ok response ∧ response.body = .json (.obj body) ∧
    response.status < 400 ∧ (JsonObject.get body "ok").any Json.truthy ∧
      (JsonObject.get body "destroyed").all Json.truthy

namespace SweEnvPool

-- `repr` is `repr` of a JSON value
variable (repr : Json → String)

/-- `close`; `post` is what becomes of its request to destroy the container. -/
def close (p : SweEnvPool) (leaseId : String) (post : Except PoolException ExecResponse) :
    SweEnvPool × Except PoolException Unit :=
  match p.leases.lookup leaseId with
  | none => (p, .ok ())
  | some lease =>
    match postExec repr post with
    | .error e => (p, .error e)
    | .ok _ =>
      let popped := { p with leases := AList.erase leaseId p.leases }
      match popped.findNode lease.nodeUrl with
      | none => (popped, .ok ())
      | some k => (popped.unreserveNode k, .ok ())

/-- The route `/close`. -/
def closeRoute (p : SweEnvPool) (leaseId : String) (post : Except PoolException ExecResponse) :
    SweEnvPool × RouteReply :=
  if leaseId = "" then (p, .error 400 "lease_id required")
  else
    match p.close repr leaseId post with
    | (p', .ok ()) => (p', ⟨200, [("ok", .bool true)]⟩)
    | (p', .error (.runtimeError err)) | (p', .error (.timeout err))
    | (p', .error (.requestException err)) | (p', .error (.other err)) => (p', .error 500 err)

/-- Without a confirmation the leases and the counts of the nodes are as before. -/
def ClosesLosslessly (p : SweEnvPool) (leaseId : String)
    (post : Except PoolException ExecResponse) : Prop :=
  ¬Confirms post → (p.close repr leaseId post).1 = p

end SweEnvPool

/-- Of what becomes of a request only a JSON object gets through. -/
theorem exists_postExec_ok_iff (repr : Json → String)
    {post : Except PoolException ExecResponse} :
    (∃ body, postExec repr post = .ok body) ↔ HasReply post := by
  constructor
  · rintro ⟨body, h⟩
    cases post with
    | error e => cases h
    | ok response =>
      obtain ⟨status, errorText, rbody⟩ := response
      simp only [postExec] at h
      split at h
      · split_ifs at h
      · exact ⟨_, _, rfl, rfl⟩
      · split_ifs at h
  · rintro ⟨response, body, rfl, hbody⟩
    refine ⟨body, ?_⟩
    simp only [postExec, hbody]

/-- The exec server confirms a destroy exactly when docker has removed the container, or does not
know it. -/
theorem confirms_containerDestroy (lower page : String → String) {containerId : String}
    {releaseReason : Option String} {result : Except String DockerResult} :
    Confirms (.ok (containerDestroy lower page containerId releaseReason result)) ↔
      containerId ≠ "" ∧ result.bind (dockerDestroyContainer lower containerId) = .ok () := by
  unfold containerDestroy
  split_ifs with hid
  · refine iff_of_false ?_ fun h => h.1 hid
    rintro ⟨response, body, hpost, -, hstatus, -⟩
    rw [← Except.ok.inj hpost] at hstatus
    exact absurd hstatus (by decide)
  · cases hremoved : result.bind (dockerDestroyContainer lower containerId) with
    | error err =>
      refine iff_of_false ?_ fun h => by cases h.2
      rintro ⟨response, body, hpost, -, hstatus, -⟩
      rw [← Except.ok.inj hpost] at hstatus
      exact absurd hstatus (by simp)
    | ok _ =>
      refine iff_of_true ?_ ⟨hid, rfl⟩
      have hstatus : (200 : Nat) < 400 := by decide
      cases releaseReason with
      | none => exact ⟨_, _, rfl, rfl, hstatus, rfl, rfl⟩
      | some reason => exact ⟨_, _, rfl, rfl, hstatus, rfl, rfl⟩

/-- The exec server answers with a JSON object when it confirms, and to a request without a
container. -/
theorem hasReply_containerDestroy (lower page : String → String) {containerId : String}
    {releaseReason : Option String} {result : Except String DockerResult}
    (hid : containerId ≠ "")
    (h : HasReply (.ok (containerDestroy lower page containerId releaseReason result))) :
    Confirms (.ok (containerDestroy lower page containerId releaseReason result)) := by
  rw [confirms_containerDestroy]
  refine ⟨hid, ?_⟩
  cases hremoved : result.bind (dockerDestroyContainer lower containerId) with
  | ok _ => rfl
  | error err =>
    obtain ⟨response, body, hpost, hbody⟩ := h
    rw [← Except.ok.inj hpost] at hbody
    simp only [containerDestroy, if_neg hid, hremoved] at hbody
    cases hbody

namespace SweEnvPool

variable {repr : Json → String} {p p' : SweEnvPool} {leaseId : String} {lease : Lease}
  {post : Except PoolException ExecResponse}

/-- A lease that is not there stays away; a second close changes nothing. -/
theorem close_of_notMem (h : leaseId ∉ p.leases) : p.close repr leaseId post = (p, .ok ()) := by
  rw [close, AList.lookup_eq_none.mpr h]

/-- A call without a reply leaves the pool as it was. -/
theorem close_of_not_hasReply (h : ¬HasReply post) : (p.close repr leaseId post).1 = p := by
  rw [close]
  cases p.leases.lookup leaseId with
  | none => rfl
  | some lease =>
    cases hbody : postExec repr post with
    | error e => rfl
    | ok body => exact absurd ((exists_postExec_ok_iff repr).mp ⟨body, hbody⟩) h

/-- Any reply takes the lease away. -/
theorem close_of_hasReply (hlease : p.leases.lookup leaseId = some lease) (h : HasReply post) :
    (p.close repr leaseId post).1.leases = AList.erase leaseId p.leases := by
  obtain ⟨body, hbody⟩ := (exists_postExec_ok_iff repr).mpr h
  simp only [close, hlease, hbody]
  split
  · rfl
  · rfl

theorem notMem_close (h : HasReply post) : leaseId ∉ (p.close repr leaseId post).1.leases := by
  cases hlease : p.leases.lookup leaseId with
  | none =>
    have hout := AList.lookup_eq_none.mp hlease
    rw [close_of_notMem hout]
    exact hout
  | some lease =>
    rw [close_of_hasReply hlease h, AList.mem_erase]
    exact fun hmem => hmem.1 rfl

/-- A confirmed close gives back the slot on the node of the lease. -/
theorem active_close (hlease : p.leases.lookup leaseId = some lease) (h : HasReply post) {k : Nat}
    (hk : p.findNode lease.nodeUrl = some k) (j : Nat) :
    (p.close repr leaseId post).1.active j =
      if j = k then max 0 (p.active j - 1) else p.active j := by
  obtain ⟨body, hbody⟩ := (exists_postExec_ok_iff repr).mpr h
  obtain ⟨n, hn, -⟩ := findNode_spec hk
  have hfound : findNode { p with leases := AList.erase leaseId p.leases } lease.nodeUrl = some k :=
    hk
  have hclosed : (p.close repr leaseId post).1.nodes = (p.unreserveNode k).nodes := by
    simp only [close, hlease, hbody, hfound]
    rfl
  rw [active, hclosed, unreserveNode, getElem?_setActive]
  by_cases hj : j = k
  · rw [hj, hn, if_pos rfl, active_eq hn]
    simp
  · cases hm : p.nodes[j]? with
    | none => simp [active, hm, hj]
    | some m => simp [active, hm, hj, Ne.symm hj]

/-- With the replies of the exec server itself a close is lossless. -/
theorem closesLosslessly_containerDestroy (lower page : String → String) {containerId : String}
    {releaseReason : Option String} {result : Except String DockerResult}
    (hid : containerId ≠ "") :
    p.ClosesLosslessly repr leaseId
      (.ok (containerDestroy lower page containerId releaseReason result)) := fun hunconfirmed =>
  close_of_not_hasReply fun h => hunconfirmed (hasReply_containerDestroy lower page hid h)

/-- The reply that the task of a close gets. -/
def closeReplyOf (repr : Json → String) (post : Except PoolException ExecResponse) : ExecReply :=
  match postExec repr post with
  | .ok _ => .ok "" ""
  | .error _ => .failed

theorem next_close {phase phase' : ClosePhase} {reply : ExecReply}
    (h : PoolState.closeStep p leaseId (PoolState.isFree ⟨p, [.close leaseId phase]⟩ leaseId)
      reply phase = some (p', phase')) :
    PoolState.next ⟨p, [.close leaseId phase]⟩ (.step 0 reply) =
      some ⟨p', [.close leaseId phase']⟩ := by
  simp [PoolState.next, PoolState.taskStep, h]

/-- The task of a close that runs by itself does what `close` does. -/
theorem exec_close : ∃ n,
    exec PoolState.next ⟨p, [.close leaseId .started]⟩
        (List.replicate n (.step 0 (closeReplyOf repr post))) =
      some ⟨(p.close repr leaseId post).1, [.close leaseId .done]⟩ := by
  cases hlease : p.leases.lookup leaseId with
  | none =>
    have hout := AList.lookup_eq_none.mp hlease
    refine ⟨1, ?_⟩
    rw [close_of_notMem hout]
    refine exec_cons_some (next_close ?_) []
    rw [PoolState.closeStep, if_neg hout]
  | some lease =>
    have hmem : leaseId ∈ p.leases := AList.lookup_isSome.mp (by rw [hlease]; rfl)
    have hstarted : ∀ reply, PoolState.next ⟨p, [.close leaseId .started]⟩ (.step 0 reply) =
        some ⟨p, [.close leaseId .found]⟩ := fun reply => next_close (by
      rw [PoolState.closeStep, if_pos hmem])
    have hfound : ∀ reply, PoolState.next ⟨p, [.close leaseId .found]⟩ (.step 0 reply) =
        some ⟨p, [.close leaseId .destroying]⟩ := fun reply => next_close (by
      rw [PoolState.closeStep, if_pos hmem]
      rfl)
    cases hbody : postExec repr post with
    | error e =>
      have hreply : closeReplyOf repr post = .failed := by rw [closeReplyOf, hbody]
      have hclose : (p.close repr leaseId post).1 = p := by simp only [close, hlease, hbody]
      refine ⟨3, ?_⟩
      rw [List.replicate_succ, exec_cons_some (hstarted _), List.replicate_succ,
        exec_cons_some (hfound _), hreply, hclose]
      exact exec_cons_some (next_close rfl) []
    | ok body =>
      have hreply : closeReplyOf repr post = .ok "" "" := by rw [closeReplyOf, hbody]
      have hdestroying : PoolState.next ⟨p, [.close leaseId .destroying]⟩ (.step 0 (.ok "" "")) =
          some ⟨{ p with leases := AList.erase leaseId p.leases },
            [.close leaseId (.popped lease.nodeUrl)]⟩ := next_close (by
        simp only [PoolState.closeStep, hlease])
      refine ⟨4, ?_⟩
      rw [List.replicate_succ, exec_cons_some (hstarted _), List.replicate_succ,
        exec_cons_some (hfound _), hreply, List.replicate_succ, exec_cons_some hdestroying]
      refine exec_cons_some (next_close ?_) []
      simp only [PoolState.closeStep, close, hlease, hbody]
      cases findNode { p with leases := AList.erase leaseId p.leases } lease.nodeUrl with
      | none => rfl
      | some k => rfl

/-- A close is lossless iff there is nothing to close, the reply confirms it, or there is no
reply. -/
theorem closesLosslessly_iff : p.ClosesLosslessly repr leaseId post ↔
    leaseId ∉ p.leases ∨ Confirms post ∨ ¬HasReply post := by
  constructor
  · intro h
    by_contra hcond
    simp only [not_or, not_not] at hcond
    obtain ⟨hmem, hunconfirmed, hreply⟩ := hcond
    have hgone : leaseId ∉ (p.close repr leaseId post).1.leases := notMem_close hreply
    rw [h hunconfirmed] at hgone
    exact hgone hmem
  · rintro (hmem | hconfirms | hnone) hunconfirmed
    · rw [close_of_notMem hmem]
    · exact absurd hconfirms hunconfirmed
    · exact close_of_not_hasReply hnone

/-- A node with one lease. -/
def leasedPool : SweEnvPool :=
  ⟨[⟨"http://node-1:5000", 1, 16, true⟩], AList.insert "l" (.start "http://node-1:5000" "c" "img") ∅,
    0, 1, 0⟩

/-- A reply that says that the container was not removed. -/
def notDestroyed : ExecResponse :=
  ⟨200, "", .json (.obj [("ok", .bool false), ("destroyed", .bool false)])⟩

theorem not_closesLosslessly_notDestroyed :
    ¬leasedPool.ClosesLosslessly (fun _ => "{}") "l" (.ok notDestroyed) := by
  intro h
  have hunconfirmed : ¬Confirms (.ok notDestroyed) := by
    rintro ⟨response, body, hpost, hbody, -, hok, -⟩
    rw [← Except.ok.inj hpost] at hbody
    cases hbody
    exact absurd hok (by decide)
  have hgone : "l" ∉ (leasedPool.close (fun _ => "{}") "l" (.ok notDestroyed)).1.leases :=
    notMem_close ⟨_, _, rfl, rfl⟩
  rw [h hunconfirmed] at hgone
  exact hgone (by decide)

end SweEnvPool

end Belayer.Pool
