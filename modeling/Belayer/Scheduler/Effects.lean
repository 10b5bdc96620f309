import Belayer.Scheduler.Reservation

namespace Belayer.Scheduler.OnlineEnvDockerScheduler

open Belayer.Framework

/-- A step that neither starts nor ends an active prompt. -/
structure Kept (s s' : OnlineEnvDockerScheduler) : Prop where
  config : s'.config = s.config
  activePredicted : s'.activePredicted = s.activePredicted
  activePrompts : s'.activePrompts = s.activePrompts ∨ ∃ promptId active active',
    s.activePrompts.lookup promptId = some active ∧ active'.hasHistory = active.hasHistory ∧
      s'.activePrompts = AList.insert promptId active' s.activePrompts
  admitted : s'.admittedSinceResourceRefresh = s.admittedSinceResourceRefresh ∨
    s'.admittedSinceResourceRefresh = 0

/-- What the pass has checked of the request that it admits. -/
structure Granted (s : OnlineEnvDockerScheduler) (now : ℚ) (request : PendingPrompt) : Prop where
  isOpen : s.isClosed now = false
  released : s.isHeldBack request = false
  fits : s.fits request.predicted s.effectiveBudget ∨
    s.isForced request.predicted s.effectiveBudget

/-- The prompt of a request becomes active. -/
structure Starts (s s' : OnlineEnvDockerScheduler) (request : PendingPrompt) (now : ℚ) : Prop where
  config : s'.config = s.config
  schedulerStartTs : s'.schedulerStartTs = s.schedulerStartTs
  activePrompts :
    s'.activePrompts = AList.insert request.promptId (request.activate now) s.activePrompts

/-- A prompt that is finished is not active. -/
def Misses (s : OnlineEnvDockerScheduler) : SchedulerAction → Prop
  | .finishPrompt promptId _ _ => promptId ∉ s.activePrompts
  | _ => True

/-- What a step does to the active prompts and their reservation. -/
inductive Moves (s s' : OnlineEnvDockerScheduler) : SchedulerAction → Prop
  | kept {a : SchedulerAction} (h : s.Kept s') (hm : s.Misses a) : Moves s s' a
  | admitted {now : ℚ} {fuel : Nat} {request : PendingPrompt}
      (h : s.admitNext now fuel = some (s', some request)) (hg : s.Granted now request)
      (hs : s.Starts s' request now)
      (hp : s'.activePredicted = s.activePredicted + request.predicted) :
      Moves s s' (.admissionPass now fuel)
  | repaired {i : Nat} {now : ℚ} {request : PendingPrompt}
      (hi : s.calls[i]? = some (.admitted request)) (hl : request.promptId ∉ s.activePrompts)
      (hs : s.Starts s' request now) (hp : s'.activePredicted = s.activePredicted) :
      Moves s s' (.returnTicket i now)
  | released {promptId : String} {now : ℚ} {aggregated : List (String × RepoResourceProfile)}
      {active : ActivePrompt} (hl : s.activePrompts.lookup promptId = some active)
      (hc : s'.config = s.config)
      (ha : s'.activePrompts = AList.erase promptId s.activePrompts)
      (hp : s'.activePredicted = s.activePredicted.minus active.predicted)
      (hw : s'.admittedSinceResourceRefresh = 0) :
      Moves s s' (.finishPrompt promptId now aggregated)

variable {lower : String → String} {P : ResourceVector → Prop}
  {s s' : OnlineEnvDockerScheduler} {promptId : String}
  {active : ActivePrompt} {now : ℚ} {aggregated : List (String × RepoResourceProfile)}

theorem Kept.refl : s.Kept s := ⟨rfl, rfl, .inl rfl, .inl rfl⟩

theorem kept_setActive (active' : ActivePrompt) {t : OnlineEnvDockerScheduler}
    (h : s.activePrompts.lookup promptId = some active)
    (hh : active'.hasHistory = active.hasHistory)
    (ht : t.activePrompts = (s.setActive promptId active').activePrompts)
    (hc : t.config = s.config) (hp : t.activePredicted = s.activePredicted)
    (hw : t.admittedSinceResourceRefresh = s.admittedSinceResourceRefresh) : s.Kept t :=
  ⟨hc, hp, .inr ⟨promptId, active, active', h, hh, ht⟩, .inl hw⟩

theorem kept_refreshResourceProfiles : s.Kept (s.refreshResourceProfiles aggregated) := by
  unfold refreshResourceProfiles
  split_ifs
  · exact ⟨rfl, rfl, .inl rfl, .inl rfl⟩
  · exact .refl

theorem kept_attachLease {leaseId : String} : s.Kept (s.attachLease promptId leaseId) := by
  unfold attachLease
  split_ifs
  · exact .refl
  · split
    · exact .refl
    · rename_i active hactive
      exact kept_setActive (active.addLease leaseId) hactive rfl rfl rfl rfl rfl

theorem kept_detachLease {leaseId : String} : s.Kept (s.detachLease leaseId) := by
  unfold detachLease
  split_ifs
  · exact .refl
  · split
    · exact .refl
    · rename_i promptId _
      dsimp only
      split
      · exact ⟨rfl, rfl, .inl rfl, .inl rfl⟩
      · rename_i active hactive
        exact kept_setActive (active.discardLease leaseId) hactive rfl rfl rfl rfl rfl

theorem kept_recordLeaseStatsPayload {leaseId : String} {payload : LeaseStatsPayload} :
    s.Kept (s.recordLeaseStatsPayload leaseId promptId payload) := by
  unfold recordLeaseStatsPayload
  split
  · exact .refl
  · rename_i active hactive
    exact kept_setActive (active.record leaseId payload) hactive rfl rfl rfl rfl rfl

theorem kept_recordLeaseStatsError {leaseId : String} {isUnknownLease : Bool} :
    s.Kept (s.recordLeaseStatsError leaseId promptId isUnknownLease) := by
  unfold recordLeaseStatsError
  split
  · exact .refl
  · rename_i active hactive
    exact kept_setActive (active.recordError leaseId
      (isUnknownLease || 3 ≤ active.failures leaseId)) hactive rfl rfl rfl rfl rfl

/-- A call that returns finds its prompt active, or makes it so. -/
theorem moves_returnTicket {i : Nat} {request : PendingPrompt}
    (hi : s.calls[i]? = some (.admitted request)) :
    s.Moves (s.returnTicket i request now) (.returnTicket i now) := by
  unfold returnTicket
  split
  · exact .kept ⟨rfl, rfl, .inl rfl, .inl rfl⟩ trivial
  · rename_i hl
    exact .repaired hi (AList.lookup_eq_none.mp hl) ⟨rfl, rfl, rfl⟩ rfl

theorem moves_finishPrompt :
    s.Moves (s.finishPrompt lower promptId now aggregated)
      (.finishPrompt promptId now aggregated) := by
  unfold finishPrompt
  split
  · rename_i hl
    exact .kept .refl (AList.lookup_eq_none.mp hl)
  · rename_i active hl
    dsimp only
    split_ifs
    · refine .released hl ?_ ?_ ?_ rfl
      all_goals
        simp only [refreshPendingPredictionsForKey, predictForKey, refreshResourceProfiles]
        split_ifs <;> rfl
    · exact .released hl rfl rfl rfl rfl

/-- The requests that a pass chooses from have all been checked. -/
theorem granted_of_choose {request : PendingPrompt} (hopen : s.isClosed now = false)
    (h : s.choose now = some request) : s.Granted now request := by
  simp only [choose] at h
  split_ifs at h
  · have hmem := List.argmin_mem h
    rw [List.mem_filter, List.mem_filter] at hmem
    obtain ⟨⟨-, hheld⟩, hforced⟩ := hmem
    rw [Bool.not_eq_eq_eq_not, Bool.not_true] at hheld
    rw [Bool.and_eq_true] at hforced
    exact ⟨hopen, hheld, .inr hforced.2⟩
  · have hmem := List.argmax_mem h
    rw [List.mem_filter, List.mem_filter] at hmem
    obtain ⟨⟨-, hheld⟩, hfits⟩ := hmem
    rw [Bool.not_eq_eq_eq_not, Bool.not_true] at hheld
    exact ⟨hopen, hheld, .inl hfits⟩

theorem granted_of_admitHeadOfLine {fuel : Nat} {request : PendingPrompt}
    (hopen : s.isClosed now = false)
    (h : s.admitHeadOfLine now fuel = some (s', some request)) : s.Granted now request := by
  induction fuel generalizing s with
  | zero => cases h
  | succ fuel ih =>
    simp only [admitHeadOfLine] at h
    split at h
    · cases h
    · rename_i head rest hpending
      split_ifs at h with hheld hfits
      · cases h
      · cases h
        rw [Bool.or_eq_true] at hfits
        have hreleased : s.isHeldBack head = false := Bool.eq_false_iff.mpr hheld
        exact ⟨hopen, hreleased, hfits⟩
      · -- the queue is another one, and no check looks at the queue
        obtain ⟨hopen', hheld', hfits'⟩ := ih (s := { s with
          pending := deferHead { head with headBlockCount := head.headBlockCount + 1 } rest
            (max 1 s.config.headBlockRequeueOffset) }) hopen h
        exact ⟨hopen', hheld', hfits'⟩
      · cases h

theorem granted_of_admitNext {fuel : Nat} {request : PendingPrompt}
    (h : s.admitNext now fuel = some (s', some request)) : s.Granted now request := by
  unfold admitNext at h
  split_ifs at h with hclosed horder
  · cases h
  · have hopen : s.isClosed now = false := Bool.eq_false_iff.mpr fun hc => hclosed (.inr hc)
    exact granted_of_admitHeadOfLine hopen h
  · have hopen : s.isClosed now = false := Bool.eq_false_iff.mpr fun hc => hclosed (.inr hc)
    split at h
    · cases h
    · rename_i chosen hchoose
      cases h
      exact granted_of_choose hopen hchoose

theorem markAdmitted_eq {request : PendingPrompt} (h : request.admitted = false) :
    s.markAdmitted request now =
      { s with
        pending := s.pending.filter (·.promptId ≠ request.promptId)
        activePredicted := s.activePredicted + request.predicted
        activePrompts := AList.insert request.promptId (request.activate now) s.activePrompts
        admittedSinceResourceRefresh := s.admittedSinceResourceRefresh + 1
        calls := s.calls.modify request.call (AdmitCall.grant request) } := by
  unfold markAdmitted
  rw [if_neg (by simp [h])]
  rfl

/-- The request that a pass admits has been pending. -/
theorem Stored.admitted (hm : s.Stored P) {fuel : Nat} {request : PendingPrompt}
    (h : s.admitNext now fuel = some (s', some request)) :
    P request.predicted ∧ request.admitted = false := by
  obtain ⟨pending, hq, ⟨hnone, -⟩ | ⟨r, hr, hchosen, -⟩⟩ := passed_of_admitNext h
  · cases hnone
  · cases hchosen
    exact (hm.requeue hq).pending request hr

/-- The request that a pass admits becomes active and is reserved for. -/
theorem starts_of_admitNext (hm : s.Stored P) {fuel : Nat} {request : PendingPrompt}
    (h : s.admitNext now fuel = some (s', some request)) :
    s.Starts s' request now ∧ s'.activePredicted = s.activePredicted + request.predicted := by
  have hadmitted : request.admitted = false := (hm.admitted h).2
  obtain ⟨pending, -, ⟨hnone, -⟩ | ⟨r, -, hchosen, rfl⟩⟩ := passed_of_admitNext h
  · cases hnone
  · cases hchosen
    rw [markAdmitted_eq hadmitted]
    exact ⟨⟨rfl, rfl, rfl⟩, rfl⟩

theorem moves_admissionPass (hm : s.Stored P) {fuel : Nat}
    {chosen : Option PendingPrompt} (h : s.admitNext now fuel = some (s', chosen)) :
    s.Moves s' (.admissionPass now fuel) := by
  cases chosen with
  | none =>
    obtain ⟨pending, hq, ⟨-, rfl⟩ | ⟨r, hr, hchosen, -⟩⟩ := passed_of_admitNext h
    · exact .kept ⟨rfl, rfl, .inl rfl, .inl rfl⟩ trivial
    · cases hchosen
  | some request =>
    obtain ⟨hstarts, hpredicted⟩ := starts_of_admitNext hm h
    exact .admitted h (granted_of_admitNext h) hstarts hpredicted

theorem moves_of_next (hm : s.Stored P) {a : SchedulerAction}
    (hn : s.next lower a = some s') : s.Moves s' a := by
  cases a with
  | admissionPass now fuel =>
    obtain ⟨⟨t, chosen⟩, ht, rfl⟩ := Option.map_eq_some_iff.mp hn
    exact moves_admissionPass hm ht
  | returnTicket i now =>
    obtain ⟨request, hr, rfl⟩ := Option.map_eq_some_iff.mp hn
    obtain ⟨call, hc, hr⟩ := Option.bind_eq_some_iff.mp hr
    refine moves_returnTicket ?_
    cases call <;> cases hr
    exact hc
  | finishPrompt promptId now aggregated =>
    cases hn
    exact moves_finishPrompt
  | admitPrompt iid groupIndex sampleIndex rolloutId suffix repo dataKey now aggregated =>
    cases hn
    have hkept : s.Kept (s.refreshResourceProfiles aggregated) := kept_refreshResourceProfiles
    exact .kept ⟨hkept.config, hkept.activePredicted, hkept.activePrompts, hkept.admitted⟩
      trivial
  | enqueue i =>
    simp only [next] at hn
    split at hn
    · cases hn
      exact .kept ⟨rfl, rfl, .inl rfl, .inl rfl⟩ trivial
    · cases hn
  | cancelAdmit i =>
    simp only [next] at hn
    split at hn
    · cases hn
    · cases hn
    · cases hn
    · cases hn
      exact .kept ⟨rfl, rfl, .inl rfl, .inl rfl⟩ trivial
  | attachLease =>
    cases hn
    exact .kept kept_attachLease trivial
  | detachLease =>
    cases hn
    exact .kept kept_detachLease trivial
  | recordLeaseStatsPayload =>
    cases hn
    exact .kept kept_recordLeaseStatsPayload trivial
  | recordLeaseStatsError =>
    cases hn
    exact .kept kept_recordLeaseStatsError trivial
  | refreshResourceProfiles =>
    cases hn
    exact .kept kept_refreshResourceProfiles trivial
  | recordPromptSummary | refreshServer =>
    cases hn
    exact .kept ⟨rfl, rfl, .inl rfl, .inl rfl⟩ trivial
  | resetAdmissionWindow =>
    cases hn
    exact .kept ⟨rfl, rfl, .inl rfl, .inr rfl⟩ trivial

end Belayer.Scheduler.OnlineEnvDockerScheduler
