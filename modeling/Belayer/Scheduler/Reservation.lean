import Belayer.Scheduler.Prompts
import Belayer.Framework.Places

namespace Belayer.Scheduler

open Belayer.Framework

/-- The request of a call that has not returned, unless it is pending. -/
def AdmitCall.request? : AdmitCall → Option PendingPrompt
  | .requested request | .admitted request => some request
  | .waiting | .returned _ | .cancelled => none

namespace OnlineEnvDockerScheduler

/-- What the active prompts have been predicted to need together. -/
def predictedSum (activePrompts : Dict String ActivePrompt) : ResourceVector :=
  Dict.sum (·.predicted) activePrompts

/-- The reservation is what the active prompts have been admitted with. -/
def Exact (s : OnlineEnvDockerScheduler) : Prop :=
  s.activePredicted = predictedSum s.activePrompts

/-- The condition on a step. -/
def Regular (s : OnlineEnvDockerScheduler) : SchedulerAction → Prop
  | .admissionPass now fuel => ∀ passed ∈ s.admitNext now fuel, ∀ request ∈ passed.2,
      request.promptId ∉ s.activePrompts
  | .returnTicket i _ => ∀ call ∈ s.calls[i]?, ∀ request ∈ call.admitted?,
      request.promptId ∈ s.activePrompts
  | .finishPrompt promptId _ _ => promptId ∈ s.activePrompts →
      0 ≤ predictedSum (AList.erase promptId s.activePrompts)
  | _ => True

instance (s : OnlineEnvDockerScheduler) : ∀ a, Decidable (s.Regular a)
  | .admissionPass now fuel => inferInstanceAs (Decidable (∀ passed ∈ s.admitNext now fuel,
      ∀ request ∈ passed.2, request.promptId ∉ s.activePrompts))
  | .returnTicket i _ => inferInstanceAs (Decidable (∀ call ∈ s.calls[i]?,
      ∀ request ∈ call.admitted?, request.promptId ∈ s.activePrompts))
  | .finishPrompt promptId _ _ => inferInstanceAs (Decidable (promptId ∈ s.activePrompts →
      0 ≤ predictedSum (AList.erase promptId s.activePrompts)))
  | .admitPrompt _ _ _ _ _ _ _ _ _ | .enqueue _ | .cancelAdmit _ | .attachLease _ _
  | .detachLease _ | .recordLeaseStatsPayload _ _ _ | .recordLeaseStatsError _ _ _
  | .refreshResourceProfiles _ | .recordPromptSummary _ | .refreshServer _
  | .resetAdmissionWindow => .isTrue trivial

/-- Every prediction in the state is one of `P`, and no request is admitted before its
turn. -/
structure Stored (P : ResourceVector → Prop) (s : OnlineEnvDockerScheduler) : Prop where
  source : ∀ profile, P (s.config.predict profile).1
  pending : ∀ r ∈ s.pending, P r.predicted ∧ r.admitted = false
  calls : ∀ c ∈ s.calls, ∀ r ∈ c.request?, P r.predicted
  requested : ∀ r, .requested r ∈ s.calls → r.admitted = false
  active : ∀ promptId active, s.activePrompts.lookup promptId = some active → P active.predicted

/-- A step that leaves requests, reservation and predictions alone. -/
def Touched (s s' : OnlineEnvDockerScheduler) : Prop :=
  s'.config = s.config ∧ s'.pending = s.pending ∧ s'.calls = s.calls ∧
    s'.activePredicted = s.activePredicted ∧
    (s'.activePrompts = s.activePrompts ∨ ∃ promptId active active',
      s.activePrompts.lookup promptId = some active ∧ active'.predicted = active.predicted ∧
        s'.activePrompts = AList.insert promptId active' s.activePrompts)

variable {lower : String → String} {P : ResourceVector → Prop} {s s' : OnlineEnvDockerScheduler}
  {promptId : String} {active : ActivePrompt} {now : ℚ}
  {aggregated : List (String × RepoResourceProfile)}

theorem touched_setActive {active' : ActivePrompt}
    (h : s.activePrompts.lookup promptId = some active)
    (hp : active'.predicted = active.predicted) : s.Touched (s.setActive promptId active') :=
  ⟨rfl, rfl, rfl, rfl, .inr ⟨promptId, active, active', h, hp, rfl⟩⟩

theorem touched_refreshResourceProfiles : s.Touched (s.refreshResourceProfiles aggregated) := by
  unfold refreshResourceProfiles
  split_ifs <;> exact ⟨rfl, rfl, rfl, rfl, .inl rfl⟩

theorem touched_attachLease {leaseId : String} : s.Touched (s.attachLease promptId leaseId) := by
  unfold attachLease
  split_ifs
  · exact ⟨rfl, rfl, rfl, rfl, .inl rfl⟩
  · split
    · exact ⟨rfl, rfl, rfl, rfl, .inl rfl⟩
    · rename_i active hactive
      exact touched_setActive hactive rfl

theorem touched_detachLease {leaseId : String} : s.Touched (s.detachLease leaseId) := by
  unfold detachLease
  split_ifs
  · exact ⟨rfl, rfl, rfl, rfl, .inl rfl⟩
  · split
    · exact ⟨rfl, rfl, rfl, rfl, .inl rfl⟩
    · rename_i promptId _
      dsimp only
      split
      · exact ⟨rfl, rfl, rfl, rfl, .inl rfl⟩
      · rename_i active hactive
        exact touched_setActive hactive rfl

theorem touched_recordLeaseStatsPayload {leaseId : String} {payload : LeaseStatsPayload} :
    s.Touched (s.recordLeaseStatsPayload leaseId promptId payload) := by
  unfold recordLeaseStatsPayload
  split
  · exact ⟨rfl, rfl, rfl, rfl, .inl rfl⟩
  · rename_i active hactive
    exact touched_setActive hactive rfl

theorem touched_recordLeaseStatsError {leaseId : String} {isUnknownLease : Bool} :
    s.Touched (s.recordLeaseStatsError leaseId promptId isUnknownLease) := by
  unfold recordLeaseStatsError
  split
  · exact ⟨rfl, rfl, rfl, rfl, .inl rfl⟩
  · rename_i active hactive
    exact touched_setActive hactive rfl

theorem Touched.exact_iff (h : s.Touched s') : s'.Exact ↔ s.Exact := by
  obtain ⟨-, -, -, hreserved, hactive⟩ := h
  unfold Exact predictedSum
  rw [hreserved]
  rcases hactive with he | ⟨promptId, active, active', hl, hp, he⟩
  · rw [he]
  · rw [he, Dict.sum_replace hl hp]

theorem Stored.touched (h : s.Stored P) (ht : s.Touched s') : s'.Stored P := by
  obtain ⟨hconfig, hpending, hcalls, -, hactive⟩ := ht
  refine ⟨hconfig ▸ h.source, hpending ▸ h.pending, hcalls ▸ h.calls, hcalls ▸ h.requested, ?_⟩
  rcases hactive with he | ⟨promptId, active, active', hl, hp, he⟩
  · rw [he]
    exact h.active
  · intro id a ha
    rw [he, Dict.lookup_insert_ite] at ha
    split_ifs at ha
    · cases ha
      rw [hp]
      exact h.active promptId active hl
    · exact h.active id a ha

/-- The refresh of the profiles, then a prediction. -/
theorem Stored.predictForKey (h : s.Stored P) (dataKey : String)
    (aggregated : List (String × RepoResourceProfile)) :
    (s.predictForKey dataKey aggregated).1.Stored P ∧
      P (s.predictForKey dataKey aggregated).2.1 :=
  ⟨h.touched touched_refreshResourceProfiles, h.source _⟩

theorem Stored.admitPrompt (h : s.Stored P) {repo dataKey : String} {rolloutId : Option Int} :
    (s.admitPrompt promptId repo dataKey rolloutId now aggregated).Stored P := by
  obtain ⟨hs, hp⟩ := h.predictForKey dataKey aggregated
  refine ⟨hs.source, hs.pending, ?_, ?_, hs.active⟩
  · intro c hc r hr
    rcases List.mem_append.mp hc with hc | hc
    · exact hs.calls c hc r hr
    · rw [List.mem_singleton.mp hc] at hr
      cases hr
      exact hp
  · intro r hr
    rcases List.mem_append.mp hr with hr | hr
    · exact hs.requested r hr
    · cases List.mem_singleton.mp hr
      rfl

/-- A call moves on to where it has no request of its own. -/
theorem Stored.set_call (h : s.Stored P) {i : Nat} {call : AdmitCall}
    (hcall : call.request? = none) : Stored P { s with calls := s.calls.set i call } := by
  refine ⟨h.source, h.pending, ?_, ?_, h.active⟩
  · intro c hc r hr
    rcases mem_set_cases hc with rfl | ⟨j, -, hj⟩
    · rw [hcall] at hr
      cases hr
    · exact h.calls c (List.mem_of_getElem? hj) r hr
  · intro r hc
    rcases mem_set_cases hc with rfl | ⟨j, -, hj⟩
    · cases hcall
    · exact h.requested r (List.mem_of_getElem? hj)

theorem Stored.enqueue (h : s.Stored P) {i : Nat} {request : PendingPrompt}
    (hi : s.calls[i]? = some (.requested request)) :
    Stored P { s with pending := s.pending ++ [request], calls := s.calls.set i .waiting } := by
  have hc := List.mem_of_getElem? hi
  have hs : Stored P { s with calls := s.calls.set i .waiting } := h.set_call rfl
  refine ⟨hs.source, ?_, hs.calls, hs.requested, hs.active⟩
  intro r hr
  rcases List.mem_append.mp hr with hr | hr
  · exact h.pending r hr
  · rw [List.mem_singleton.mp hr]
    exact ⟨h.calls _ hc request rfl, h.requested request hc⟩

theorem Stored.markAdmitted (h : s.Stored P) {request : PendingPrompt}
    (hr : request ∈ s.pending) : (s.markAdmitted request now).Stored P := by
  obtain ⟨hp, hadmitted⟩ := h.pending request hr
  unfold OnlineEnvDockerScheduler.markAdmitted
  rw [if_neg (by simp [hadmitted])]
  have hcall : ∀ c ∈ s.calls.modify request.call (AdmitCall.grant request),
      c ∈ s.calls ∨ c = .admitted { request with admitted := true } := by
    intro c hc
    obtain ⟨j, hj⟩ := List.mem_iff_getElem?.mp hc
    rw [List.getElem?_modify] at hj
    obtain ⟨c₀, hc₀, rfl⟩ := Option.map_eq_some_iff.mp hj
    have hmem := List.mem_of_getElem? hc₀
    split_ifs
    · cases c₀ with
      | waiting => exact .inr rfl
      | _ => exact .inl hmem
    · exact .inl hmem
  refine ⟨h.source, ?_, ?_, ?_, ?_⟩
  · exact fun q hq => h.pending q (List.mem_of_mem_filter hq)
  · intro c hc q hq
    rcases hcall c hc with hc | rfl
    · exact h.calls c hc q hq
    · cases hq
      exact hp
  · intro q hq
    rcases hcall _ hq with hq | he
    · exact h.requested q hq
    · cases he
  · intro id a ha
    rw [Dict.lookup_insert_ite] at ha
    split_ifs at ha
    · cases ha
      exact hp
    · exact h.active id a ha

theorem Stored.requeue (h : s.Stored P) {pending : List PendingPrompt}
    (hp : Requeued s.pending pending) : Stored P { s with pending := pending } := by
  refine ⟨h.source, ?_, h.calls, h.requested, h.active⟩
  intro r hr
  obtain ⟨q, hq, he⟩ := hp.exists hr
  obtain ⟨hqp, hqa⟩ := h.pending q hq
  have hpredicted : q.unblocked.predicted = r.unblocked.predicted := congrArg _ he
  have hadmitted : q.unblocked.admitted = r.unblocked.admitted := congrArg _ he
  exact ⟨hpredicted.subst hqp, hadmitted.symm.trans hqa⟩

theorem Stored.passed (h : s.Stored P) {chosen : Option PendingPrompt}
    (hp : s.Passed now s' chosen) : s'.Stored P := by
  obtain ⟨pending, hq, ⟨-, rfl⟩ | ⟨request, hr, -, rfl⟩⟩ := hp
  · exact h.requeue hq
  · exact (h.requeue hq).markAdmitted hr

theorem Stored.returnTicket (h : s.Stored P) {i : Nat} {request : PendingPrompt}
    (hp : P request.predicted) : (s.returnTicket i request now).Stored P := by
  unfold OnlineEnvDockerScheduler.returnTicket
  split
  · exact h.set_call rfl
  · have hs : (s.setActive request.promptId (request.activate now)).Stored P := by
      refine ⟨h.source, h.pending, h.calls, h.requested, ?_⟩
      intro id a ha
      rw [setActive, Dict.lookup_insert_ite] at ha
      split_ifs at ha
      · cases ha
        exact hp
      · exact h.active id a ha
    exact hs.set_call rfl

/-- What is renewed has the new prediction. -/
theorem mem_renewPredictions {dataKey : String} {prediction : ResourceVector × Bool × ℚ} {n : Nat}
    {requests : List PendingPrompt} {r : PendingPrompt}
    (h : r ∈ renewPredictions dataKey prediction n requests) :
    ∃ q ∈ requests, r.admitted = q.admitted ∧
      (r.predicted = q.predicted ∨ r.predicted = prediction.1) := by
  induction requests generalizing n with
  | nil => cases n <;> cases h
  | cons q requests ih =>
    cases n with
    | zero => exact ⟨r, h, rfl, .inl rfl⟩
    | succ n =>
      have htail : ∀ m, r ∈ renewPredictions dataKey prediction m requests →
          ∃ q' ∈ q :: requests, r.admitted = q'.admitted ∧
            (r.predicted = q'.predicted ∨ r.predicted = prediction.1) := by
        intro m hm
        obtain ⟨q', hq', hrest⟩ := ih hm
        exact ⟨q', List.mem_cons_of_mem _ hq', hrest⟩
      simp only [renewPredictions] at h
      split_ifs at h
      · rcases List.mem_cons.mp h with rfl | h
        · exact ⟨q, List.mem_cons_self .., rfl, .inr rfl⟩
        · exact htail _ h
      · rcases List.mem_cons.mp h with rfl | h
        · exact ⟨r, List.mem_cons_self .., rfl, .inl rfl⟩
        · exact htail _ h

theorem Stored.release (h : s.Stored P) : (s.release promptId active).Stored P := by
  refine ⟨h.source, h.pending, h.calls, h.requested, ?_⟩
  intro id a ha
  rw [OnlineEnvDockerScheduler.release, Dict.lookup_erase_ite] at ha
  split_ifs at ha
  exact h.active id a ha

theorem Stored.refreshPendingPredictionsForKey (h : s.Stored P) {dataKey : String} :
    (s.refreshPendingPredictionsForKey dataKey aggregated).Stored P := by
  obtain ⟨hs, hp⟩ := h.predictForKey dataKey aggregated
  refine ⟨hs.source, ?_, hs.calls, hs.requested, hs.active⟩
  intro r hr
  obtain ⟨q, hq, hadmitted, hpredicted⟩ := mem_renewPredictions hr
  obtain ⟨hqp, hqa⟩ := hs.pending q hq
  refine ⟨?_, hadmitted.trans hqa⟩
  rcases hpredicted with he | he
  · rw [he]
    exact hqp
  · rw [he]
    exact hp

theorem Stored.finishPrompt (h : s.Stored P) :
    (s.finishPrompt lower promptId now aggregated).Stored P := by
  unfold OnlineEnvDockerScheduler.finishPrompt
  split
  · exact h
  · rename_i active _
    dsimp only
    split_ifs
    · have hupdated : ((s.release promptId active).updateRepoProfile lower
          (active.summary promptId now)).Stored P :=
        h.release.touched ⟨rfl, rfl, rfl, rfl, .inl rfl⟩
      exact hupdated.refreshPendingPredictionsForKey.touched ⟨rfl, rfl, rfl, rfl, .inl rfl⟩
    · exact h.release.touched ⟨rfl, rfl, rfl, rfl, .inl rfl⟩

theorem Stored.next (h : s.Stored P) {a : SchedulerAction} (hn : s.next lower a = some s') :
    s'.Stored P := by
  cases a with
  | admitPrompt =>
    cases hn
    exact h.admitPrompt
  | enqueue i =>
    simp only [OnlineEnvDockerScheduler.next] at hn
    split at hn
    · rename_i request hi
      cases hn
      exact h.enqueue hi
    · cases hn
  | admissionPass now fuel =>
    obtain ⟨⟨t, chosen⟩, ht, rfl⟩ := Option.map_eq_some_iff.mp hn
    exact h.passed (passed_of_admitNext ht)
  | returnTicket i now =>
    obtain ⟨request, hr, rfl⟩ := Option.map_eq_some_iff.mp hn
    obtain ⟨call, hc, hr⟩ := Option.bind_eq_some_iff.mp hr
    refine h.returnTicket (h.calls call (List.mem_of_getElem? hc) request ?_)
    cases call <;> cases hr
    rfl
  | cancelAdmit i =>
    simp only [OnlineEnvDockerScheduler.next] at hn
    split at hn
    · cases hn
    · cases hn
    · cases hn
    · cases hn
      exact h.set_call rfl
  | attachLease =>
    cases hn
    exact h.touched touched_attachLease
  | detachLease =>
    cases hn
    exact h.touched touched_detachLease
  | finishPrompt =>
    cases hn
    exact h.finishPrompt
  | recordLeaseStatsPayload =>
    cases hn
    exact h.touched touched_recordLeaseStatsPayload
  | recordLeaseStatsError =>
    cases hn
    exact h.touched touched_recordLeaseStatsError
  | refreshResourceProfiles =>
    cases hn
    exact h.touched touched_refreshResourceProfiles
  | recordPromptSummary =>
    cases hn
    exact h.touched ⟨rfl, rfl, rfl, rfl, .inl rfl⟩
  | refreshServer =>
    cases hn
    exact h.touched ⟨rfl, rfl, rfl, rfl, .inl rfl⟩
  | resetAdmissionWindow =>
    cases hn
    exact h.touched ⟨rfl, rfl, rfl, rfl, .inl rfl⟩

instance (s : OnlineEnvDockerScheduler) : Decidable s.Exact :=
  inferInstanceAs (Decidable (_ = _))

theorem mem_iff_lookup : promptId ∈ s.activePrompts ↔
    ∃ active, s.activePrompts.lookup promptId = some active := by
  rw [← AList.lookup_isSome, Option.isSome_iff_exists]

theorem predictedSum_activate (activePrompts : Dict String ActivePrompt) (request : PendingPrompt)
    (now : ℚ) :
    predictedSum (AList.insert request.promptId (request.activate now) activePrompts) =
      request.predicted + predictedSum (AList.erase request.promptId activePrompts) :=
  Dict.sum_insert ..

/-- The charge of a request is right unless it takes the place of an active prompt. -/
theorem exact_markAdmitted_iff (now : ℚ) (hs : s.Exact)
    (hactive : ∀ id a, s.activePrompts.lookup id = some a → 0 < a.predicted.memoryBytes)
    {request : PendingPrompt} (hr : request.admitted = false) :
    (s.markAdmitted request now).Exact ↔ request.promptId ∉ s.activePrompts := by
  unfold markAdmitted
  rw [if_neg (by simp [hr])]
  change s.activePredicted + request.predicted =
    predictedSum (AList.insert request.promptId (request.activate now) s.activePrompts) ↔ _
  rw [predictedSum_activate, hs, add_comm, add_right_inj]
  constructor
  · intro he hmem
    obtain ⟨active, hl⟩ := mem_iff_lookup.mp hmem
    exact ResourceVector.add_ne_right (hactive _ _ hl) ((Dict.sum_erase hl _).trans he)
  · intro hmem
    rw [Dict.erase_of_lookup_none (AList.lookup_eq_none.mpr hmem)]

/-- A repair adds a prompt that has not been reserved for. -/
theorem exact_returnTicket_iff (hs : s.Exact) {i : Nat} {request : PendingPrompt}
    (hp : 0 < request.predicted.memoryBytes) :
    (s.returnTicket i request now).Exact ↔ request.promptId ∈ s.activePrompts := by
  unfold returnTicket
  split
  · rename_i active hl
    exact ⟨fun _ => mem_iff_lookup.mpr ⟨active, hl⟩, fun _ => hs⟩
  · rename_i hl
    refine ⟨fun he => ?_, fun hmem => absurd hmem (AList.lookup_eq_none.mp hl)⟩
    have hsum : s.activePredicted = _ := he
    rw [predictedSum_activate, Dict.erase_of_lookup_none hl, ← hs] at hsum
    exact absurd hsum.symm (ResourceVector.add_ne_right hp)

theorem exact_release_iff (hs : s.Exact) (hl : s.activePrompts.lookup promptId = some active) :
    (s.release promptId active).Exact ↔
      0 ≤ predictedSum (AList.erase promptId s.activePrompts) := by
  have hsum := Dict.sum_erase hl ActivePrompt.predicted
  rw [Exact, release, hs, predictedSum, ← hsum]
  exact ResourceVector.add_minus_eq_iff

/-- After the release nothing touches the reservation. -/
theorem exact_finishPrompt_iff (hs : s.Exact) :
    (s.finishPrompt lower promptId now aggregated).Exact ↔
      (promptId ∈ s.activePrompts → 0 ≤ predictedSum (AList.erase promptId s.activePrompts)) := by
  unfold finishPrompt
  split
  · rename_i hl
    exact ⟨fun _ hmem => absurd hmem (AList.lookup_eq_none.mp hl), fun _ => hs⟩
  · rename_i active hl
    have hrelease : ∀ t : OnlineEnvDockerScheduler,
        t.activePredicted = (s.release promptId active).activePredicted →
        t.activePrompts = (s.release promptId active).activePrompts →
        (t.Exact ↔ (promptId ∈ s.activePrompts →
          0 ≤ predictedSum (AList.erase promptId s.activePrompts))) := by
      intro t hp ha
      rw [Exact, hp, ha]
      exact (exact_release_iff hs hl).trans ⟨fun h _ => h, fun h => h (mem_iff_lookup.mpr ⟨_, hl⟩)⟩
    dsimp only
    split_ifs
    · refine hrelease _ ?_ ?_
      all_goals
        simp only [refreshPendingPredictionsForKey, predictForKey, refreshResourceProfiles]
        split_ifs <;> rfl
    · exact hrelease _ rfl rfl

/-- A step keeps the reservation exact just when it is regular. -/
theorem exact_next_iff (hm : s.Stored (0 < ·.memoryBytes)) (hs : s.Exact) {a : SchedulerAction}
    (hn : s.next lower a = some s') : s'.Exact ↔ s.Regular a := by
  cases a with
  | admissionPass now fuel =>
    obtain ⟨⟨t, chosen⟩, ht, rfl⟩ := Option.map_eq_some_iff.mp hn
    have hregular : s.Regular (.admissionPass now fuel) ↔
        ∀ request ∈ chosen, request.promptId ∉ s.activePrompts := by
      simp [Regular, ht]
    rw [hregular]
    obtain ⟨pending, hq, ⟨rfl, rfl⟩ | ⟨request, hr, rfl, rfl⟩⟩ := passed_of_admitNext ht
    · exact iff_of_true hs (by simp)
    · have hrequeued := hm.requeue hq
      have hiff := exact_markAdmitted_iff (s := { s with pending := pending }) now hs hm.active
        (hrequeued.pending request hr).2
      simpa using hiff
  | returnTicket i now =>
    obtain ⟨request, hr, rfl⟩ := Option.map_eq_some_iff.mp hn
    obtain ⟨call, hc, hr⟩ := Option.bind_eq_some_iff.mp hr
    have hp : 0 < request.predicted.memoryBytes := by
      refine hm.calls call (List.mem_of_getElem? hc) request ?_
      cases call <;> cases hr
      rfl
    have hregular : s.Regular (.returnTicket i now) ↔ request.promptId ∈ s.activePrompts := by
      simp [Regular, hc, hr]
    rw [hregular]
    exact exact_returnTicket_iff hs hp
  | finishPrompt promptId now aggregated =>
    cases hn
    exact exact_finishPrompt_iff hs
  | admitPrompt =>
    cases hn
    exact iff_of_true (touched_refreshResourceProfiles.exact_iff.mpr hs) trivial
  | enqueue i =>
    simp only [OnlineEnvDockerScheduler.next] at hn
    split at hn
    · cases hn
      exact iff_of_true hs trivial
    · cases hn
  | cancelAdmit i =>
    simp only [OnlineEnvDockerScheduler.next] at hn
    split at hn
    · cases hn
    · cases hn
    · cases hn
    · cases hn
      exact iff_of_true hs trivial
  | attachLease =>
    cases hn
    exact iff_of_true (touched_attachLease.exact_iff.mpr hs) trivial
  | detachLease =>
    cases hn
    exact iff_of_true (touched_detachLease.exact_iff.mpr hs) trivial
  | recordLeaseStatsPayload =>
    cases hn
    exact iff_of_true (touched_recordLeaseStatsPayload.exact_iff.mpr hs) trivial
  | recordLeaseStatsError =>
    cases hn
    exact iff_of_true (touched_recordLeaseStatsError.exact_iff.mpr hs) trivial
  | refreshResourceProfiles =>
    cases hn
    exact iff_of_true (touched_refreshResourceProfiles.exact_iff.mpr hs) trivial
  | recordPromptSummary | refreshServer | resetAdmissionWindow =>
    cases hn
    exact iff_of_true hs trivial

theorem init_stored {config : SchedulerConfig} {repoResourceStats : Dict String RepoResourceProfile}
    {schedulerStartTs : ℚ} (hsource : ∀ profile, P (config.predict profile).1) :
    (init config repoResourceStats schedulerStartTs).Stored P := by
  refine ⟨hsource, ?_, ?_, ?_, ?_⟩
  · exact fun r hr => absurd hr List.not_mem_nil
  · exact fun c hc => absurd hc List.not_mem_nil
  · exact fun r hr => absurd hr List.not_mem_nil
  · intro id a ha
    cases ha

/-- The reservation is exact all along a run exactly when all its steps are regular. -/
theorem exact_iff_regular (lower : String → String) (config : SchedulerConfig)
    (repoResourceStats : Dict String RepoResourceProfile) (schedulerStartTs : ℚ)
    (run : List SchedulerAction) :
    Along (next lower) Exact (init config repoResourceStats schedulerStartTs) run ↔
      Meets (next lower) Regular (init config repoResourceStats schedulerStartTs) run :=
  along_iff_meets (H := fun _ _ => True) (fun _ _ _ hm _ hn => hm.next hn)
    (fun _ _ _ hm hs _ hn => exact_next_iff hm hs hn)
    (init_stored fun profile => zero_lt_one.trans_le (config.one_le_memory_predict profile)) rfl
    (meets_of_forall (fun _ _ => trivial) _ _)

/-- Without negative predictions no release is cut off. -/
theorem Stored.regular_finishPrompt (h : s.Stored (0 ≤ ·)) :
    s.Regular (.finishPrompt promptId now aggregated) := by
  intro _
  refine Dict.sum_induction (fun v : ResourceVector => 0 ≤ v) ⟨le_rfl, le_rfl, le_rfl, le_rfl⟩
    (fun v w => ResourceVector.nonneg_add) ?_
  intro id a ha
  rw [Dict.lookup_erase_ite] at ha
  split_ifs at ha
  exact h.active id a ha

/-- The condition on a step but for releases. -/
def Identified (s : OnlineEnvDockerScheduler) : SchedulerAction → Prop
  | .finishPrompt _ _ _ => True
  | a => s.Regular a

/-- When the defaults for the disks are not negative, only a prompt id that stands for two
prompts makes the reservation wrong. -/
theorem exact_iff_identified (lower : String → String) {config : SchedulerConfig}
    (hr : 0 ≤ config.defaultDiskReadBytes) (hw : 0 ≤ config.defaultDiskWriteBytes)
    (repoResourceStats : Dict String RepoResourceProfile) (schedulerStartTs : ℚ)
    (run : List SchedulerAction) :
    Along (next lower) Exact (init config repoResourceStats schedulerStartTs) run ↔
      Meets (next lower) Identified (init config repoResourceStats schedulerStartTs) run := by
  refine along_iff_meets (H := fun _ _ => True)
    (I := fun s => s.Stored (0 < ·.memoryBytes) ∧ s.Stored (0 ≤ ·)) ?_ ?_ ⟨?_, ?_⟩ rfl
    (meets_of_forall (fun _ _ => trivial) _ _)
  · exact fun s a s' hm _ hn => ⟨hm.1.next hn, hm.2.next hn⟩
  · intro s a s' hm hs _ hn
    rw [exact_next_iff hm.1 hs hn]
    cases a with
    | finishPrompt => exact iff_of_true hm.2.regular_finishPrompt trivial
    | _ => exact Iff.rfl
  · exact init_stored fun profile => zero_lt_one.trans_le (config.one_le_memory_predict profile)
  · exact init_stored (SchedulerConfig.predict_nonneg hr hw)

/-- A configuration that bounds nothing, with a default for disk reads. -/
def openConfig (defaultDiskReadBytes : ℚ) : SchedulerConfig where
  schedulerSafetyMargin := 1
  memoryOversellRatio := 1
  memoryPeakScale := 1
  cpuOversellRatio := 1
  diskReadOversellRatio := 1
  diskWriteOversellRatio := 1
  maxUnknownRepoConcurrency := 0
  coldStartMemoryMultiplier := 1
  coldStartCpuMultiplier := 1
  maxActivePrompts := 0
  startupMaxActivePrompts := 0
  startupCapDurationSec := 0
  defaultMemoryBytes := 1
  defaultCpuPercent := 1
  defaultDiskReadBytes := defaultDiskReadBytes
  defaultDiskWriteBytes := 1
  useResourceStatsDir := false
  disableLiveStatsPolling := false
  enableLiveProfileUpdates := false
  minLiveProfileSamples := 2
  minProfileMemoryBytes := 0
  useRealtimeServerMemory := false
  useRealtimeServerCpu := false
  useRealtimeServerDisk := false
  preservePromptOrder := false
  headBlockRequeueThreshold := 100
  headBlockRequeueOffset := 1
  maxRequestsPerResourceUpdate := 0
  realtimeLocalActiveDiscount := 1

/-- A prompt is admitted and returned. -/
def admittedRun (i : Nat) (suffix : String) : List SchedulerAction :=
  [.admitPrompt (some "a__b-1") (some 0) (some 0) none suffix "b" "a__b-1" 0 [], .enqueue i,
    .admissionPass 0 1, .returnTicket i 0]

/-- Two predictions with a negative disk and one release; a prompt id that is used again; a
prompt that is finished before its call returns. -/
theorem exact_fails :
    ¬Along (next String.toLower) Exact (init (openConfig (-1)) ∅ 0)
        (admittedRun 0 "x" ++ admittedRun 1 "y" ++ [.finishPrompt "a__b-1__g0__i0__x" 0 []]) ∧
      ¬Along (next String.toLower) Exact (init (openConfig 1) ∅ 0)
        (admittedRun 0 "x" ++ admittedRun 1 "x") ∧
      ¬Along (next String.toLower) Exact (init (openConfig 1) ∅ 0)
        ((admittedRun 0 "x").take 3 ++
          [.finishPrompt "a__b-1__g0__i0__x" 0 [], .returnTicket 0 0]) := by
  refine ⟨?_, ?_, ?_⟩ <;> decide +kernel

end OnlineEnvDockerScheduler

end Belayer.Scheduler
