import Belayer.Framework.Inverse
import Belayer.Scheduler.Presence

namespace Belayer.Scheduler

open Belayer.Framework

namespace OnlineEnvDockerScheduler

/-- The lease set of an active prompt. -/
def leasesOf (s : OnlineEnvDockerScheduler) (promptId : String) : Option (List String) :=
  (s.activePrompts.lookup promptId).map (·.leases)

/-- The prompt is active and its lease set has the lease. -/
def HasLease (s : OnlineEnvDockerScheduler) (promptId leaseId : String) : Prop :=
  ∃ active, s.activePrompts.lookup promptId = some active ∧ leaseId ∈ active.leases

/-- A lease is mapped to the active prompt that has it, and no two of them have it. -/
structure LeasesMapped (s : OnlineEnvDockerScheduler) : Prop where
  inverse : ∀ leaseId promptId,
    s.leaseToPrompt.lookup leaseId = some promptId ↔ s.HasLease promptId leaseId
  unique : ∀ leaseId p q, s.HasLease p leaseId → s.HasLease q leaseId → p = q

/-- The lease is mapped to no other prompt. -/
def IsOwn (s : OnlineEnvDockerScheduler) (promptId leaseId : String) : Prop :=
  ∀ owner ∈ s.leaseToPrompt.lookup leaseId, owner = promptId

/-- The condition on a step: a lease that a prompt gets, or loses for its failed samples, is no
other prompt's, and a prompt that is admitted replaces no active one that has leases. -/
def LeavesLeases (s : OnlineEnvDockerScheduler) : SchedulerAction → Prop
  | .attachLease promptId leaseId => s.config.disableLiveStatsPolling = false → leaseId ≠ "" →
      promptId ∈ s.activePrompts → s.IsOwn promptId leaseId
  | .recordLeaseStatsError leaseId promptId isUnknownLease =>
      ∀ active ∈ s.activePrompts.lookup promptId,
        (isUnknownLease || 3 ≤ active.failures leaseId) = true → s.IsOwn promptId leaseId
  | .admissionPass now fuel => ∀ passed ∈ s.admitNext now fuel, ∀ request ∈ passed.2,
      ∀ leases ∈ s.leasesOf request.promptId, leases = []
  | _ => True

/-- No lease set has a lease twice. -/
structure LeaseSets (s : OnlineEnvDockerScheduler) : Prop where
  stored : s.Stored fun _ => True
  nodup : ∀ promptId leases, s.leasesOf promptId = some leases → leases.Nodup

/-- What a step does with the leases. -/
inductive LeaseMoves (s s' : OnlineEnvDockerScheduler) (a : SchedulerAction) : Prop
  | kept (hl : ∀ q, s'.leasesOf q = s.leasesOf q) (hm : s'.leaseToPrompt = s.leaseToPrompt)
      (ha : s.LeavesLeases a) : LeaseMoves s s' a
  | attached {promptId leaseId : String} {leases : List String}
      (hp : s.leasesOf promptId = some leases)
      (hl : ∀ q, s'.leasesOf q = if q = promptId then some (leases.insert leaseId) else s.leasesOf q)
      (hm : s'.leaseToPrompt = AList.insert leaseId promptId s.leaseToPrompt)
      (ha : s.LeavesLeases a ↔ s.IsOwn promptId leaseId) : LeaseMoves s s' a
  | dropped (promptId leaseId : String)
      (hl : ∀ q, s'.leasesOf q =
        if q = promptId then (s.leasesOf q).map (·.erase leaseId) else s.leasesOf q)
      (hm : s'.leaseToPrompt = AList.erase leaseId s.leaseToPrompt)
      (ha : s.LeavesLeases a ↔ s.IsOwn promptId leaseId) : LeaseMoves s s' a
  | started (promptId : String)
      (hl : ∀ q, s'.leasesOf q = if q = promptId then some [] else s.leasesOf q)
      (hm : s'.leaseToPrompt = s.leaseToPrompt)
      (ha : s.LeavesLeases a ↔ ∀ leases ∈ s.leasesOf promptId, leases = []) : LeaseMoves s s' a
  | released {promptId : String} {leases : List String} (hp : s.leasesOf promptId = some leases)
      (hl : ∀ q, s'.leasesOf q = if q = promptId then none else s.leasesOf q)
      (hm : ∀ l, s'.leaseToPrompt.lookup l =
        if l ∈ leases then none else s.leaseToPrompt.lookup l)
      (ha : s.LeavesLeases a) : LeaseMoves s s' a

variable {lower : String → String} {s s' : OnlineEnvDockerScheduler} {promptId leaseId : String}
  {active : ActivePrompt} {now : ℚ} {aggregated : List (String × RepoResourceProfile)}
  {a : SchedulerAction}

theorem hasLease_iff : s.HasLease promptId leaseId ↔ ∃ leases ∈ s.leasesOf promptId,
    leaseId ∈ leases := by
  unfold HasLease leasesOf
  constructor
  · rintro ⟨active, hl, hmem⟩
    exact ⟨active.leases, by simp [hl], hmem⟩
  · rintro ⟨leases, hl, hmem⟩
    obtain ⟨active, hactive, rfl⟩ := Option.map_eq_some_iff.mp hl
    exact ⟨active, hactive, hmem⟩

theorem leasesMapped_iff :
    s.LeasesMapped ↔ IsInverse (fun l => s.leaseToPrompt.lookup l) s.HasLease := by
  constructor
  · intro h p l
    exact h.inverse l p
  · intro h
    refine ⟨fun l p => h p l, ?_⟩
    intro l p q hp hq
    exact h.unique hp hq

theorem leasesOf_of_lookup (h : s.activePrompts.lookup promptId = some active) :
    s.leasesOf promptId = some active.leases := by
  simp [leasesOf, h]

theorem leasesOf_setActive (q : String) : (s.setActive promptId active).leasesOf q =
    if q = promptId then some active.leases else s.leasesOf q := by
  unfold leasesOf
  rw [lookup_setActive]
  split_ifs <;> rfl

/-! What each step does -/

section Effects

theorem leaseMoves_attachLease :
    s.LeaseMoves (s.attachLease promptId leaseId) (.attachLease promptId leaseId) := by
  unfold attachLease
  split_ifs with hoff
  · refine .kept (fun q => rfl) rfl ?_
    intro hon hne
    rcases hoff with hoff | hempty
    · rw [hon] at hoff
      cases hoff
    · exact absurd hempty hne
  · rw [not_or, Bool.not_eq_true] at hoff
    split
    · rename_i hmissing
      refine .kept (fun q => rfl) rfl ?_
      intro _ _ hmem
      exact absurd hmem (AList.lookup_eq_none.mp hmissing)
    · rename_i active hactive
      refine .attached (leasesOf_of_lookup hactive) ?_ rfl ?_
      · intro q
        exact leasesOf_setActive q
      · have hmem : promptId ∈ s.activePrompts := by
          rw [← AList.lookup_isSome, hactive]
          rfl
        constructor
        · exact fun h => h hoff.1 hoff.2 hmem
        · exact fun h _ _ _ => h

theorem leaseMoves_detachLease :
    s.LeaseMoves (s.detachLease leaseId) (.detachLease leaseId) := by
  unfold detachLease
  split_ifs
  · exact .kept (fun q => rfl) rfl trivial
  · split
    · exact .kept (fun q => rfl) rfl trivial
    · rename_i promptId hmapped
      have hown : s.IsOwn promptId leaseId := by
        intro owner howner
        exact Option.some.inj (howner.symm.trans hmapped)
      dsimp only
      split
      · rename_i hmissing
        refine .dropped promptId leaseId ?_ rfl (iff_of_true trivial hown)
        intro q
        split_ifs with hq
        · rw [hq]
          change s.leasesOf promptId = _
          simp only [leasesOf, hmissing, Option.map_none]
        · rfl
      · rename_i active hactive
        refine .dropped promptId leaseId ?_ rfl (iff_of_true trivial hown)
        intro q
        refine (leasesOf_setActive q).trans ?_
        split_ifs with hq
        · rw [hq, leasesOf_of_lookup hactive]
          rfl
        · rfl

theorem leaseMoves_recordLeaseStatsPayload {payload : LeaseStatsPayload} :
    s.LeaseMoves (s.recordLeaseStatsPayload leaseId promptId payload)
      (.recordLeaseStatsPayload leaseId promptId payload) := by
  unfold recordLeaseStatsPayload
  split
  · exact .kept (fun q => rfl) rfl trivial
  · rename_i active hactive
    refine .kept ?_ rfl trivial
    intro q
    rw [leasesOf_setActive]
    split_ifs with hq
    · rw [hq, leasesOf_of_lookup hactive]
      rfl
    · rfl

theorem leaseMoves_recordLeaseStatsError {isUnknownLease : Bool} :
    s.LeaseMoves (s.recordLeaseStatsError leaseId promptId isUnknownLease)
      (.recordLeaseStatsError leaseId promptId isUnknownLease) := by
  unfold recordLeaseStatsError
  split
  · rename_i hmissing
    refine .kept (fun q => rfl) rfl ?_
    intro active hactive
    cases hmissing.symm.trans hactive
  · rename_i active hactive
    have hcondition : s.LeavesLeases (.recordLeaseStatsError leaseId promptId isUnknownLease) ↔
        ((isUnknownLease || 3 ≤ active.failures leaseId) = true → s.IsOwn promptId leaseId) := by
      constructor
      · exact fun h => h active hactive
      · intro h active' hactive'
        obtain rfl := Option.some.inj (hactive.symm.trans hactive')
        exact h
    cases hdropped : isUnknownLease || 3 ≤ active.failures leaseId with
    | true =>
      rw [hdropped] at hcondition
      refine .dropped promptId leaseId ?_ rfl (hcondition.trans ⟨fun h => h rfl, fun h _ => h⟩)
      intro q
      refine (leasesOf_setActive q).trans ?_
      split_ifs with hq
      · rw [hq, leasesOf_of_lookup hactive]
        rfl
      · rfl
    | false =>
      rw [hdropped] at hcondition
      refine .kept ?_ rfl (hcondition.mpr fun h => by cases h)
      intro q
      refine (leasesOf_setActive q).trans ?_
      split_ifs with hq
      · rw [hq, leasesOf_of_lookup hactive]
        rfl
      · rfl

theorem leaseMoves_finishPrompt : s.LeaseMoves (s.finishPrompt lower promptId now aggregated)
    (.finishPrompt promptId now aggregated) := by
  cases hl : s.activePrompts.lookup promptId with
  | none =>
    unfold finishPrompt
    rw [hl]
    exact .kept (fun q => rfl) rfl trivial
  | some active =>
    obtain ⟨-, -, hactive, hleases⟩ := keys_finishPrompt lower now aggregated hl
    refine .released (leasesOf_of_lookup hl) ?_ ?_ trivial
    · intro q
      unfold leasesOf
      rw [hactive]
      change Option.map _ ((AList.erase promptId s.activePrompts).lookup q) = _
      rw [Dict.lookup_erase_ite]
      split_ifs <;> rfl
    · intro l
      rw [hleases]
      exact lookup_foldl_erase active.leases s.leaseToPrompt l

theorem leaseMoves_returnTicket {i : Nat} {request : PendingPrompt} :
    s.LeaseMoves (s.returnTicket i request now) (.returnTicket i now) := by
  unfold returnTicket
  split
  · exact .kept (fun q => rfl) rfl trivial
  · rename_i hmissing
    refine .started request.promptId ?_ rfl (iff_of_true trivial ?_)
    · intro q
      unfold leasesOf
      rw [Dict.lookup_insert_ite]
      split_ifs <;> rfl
    · intro leases hleases
      simp [leasesOf, hmissing] at hleases

theorem leaseMoves_admissionPass (hs : s.Stored fun _ => True) {fuel : Nat}
    {chosen : Option PendingPrompt} (h : s.admitNext now fuel = some (s', chosen)) :
    s.LeaseMoves s' (.admissionPass now fuel) := by
  have hcondition : s.LeavesLeases (.admissionPass now fuel) ↔
      ∀ request ∈ chosen, ∀ leases ∈ s.leasesOf request.promptId, leases = [] := by
    constructor
    · exact fun hleaves => hleaves (s', chosen) h
    · intro hchosen passed hpassed
      obtain rfl := Option.some.inj (h.symm.trans hpassed)
      exact hchosen
  cases chosen with
  | none =>
    obtain ⟨pending, -, ⟨-, rfl⟩ | ⟨r, -, hchosen, -⟩⟩ := passed_of_admitNext h
    · refine .kept (fun q => rfl) rfl (hcondition.mpr ?_)
      intro request hrequest
      cases hrequest
    · cases hchosen
  | some request =>
    have hadmitted : request.admitted = false := (hs.admitted h).2
    obtain ⟨pending, -, ⟨hnone, -⟩ | ⟨r, -, hchosen, rfl⟩⟩ := passed_of_admitNext h
    · cases hnone
    · cases hchosen
      rw [markAdmitted_eq hadmitted]
      refine .started request.promptId ?_ rfl (hcondition.trans ?_)
      · intro q
        unfold leasesOf
        rw [Dict.lookup_insert_ite]
        split_ifs <;> rfl
      · constructor
        · exact fun hall => hall request rfl
        · intro hone r hr
          cases hr
          exact hone

theorem leaseMoves_of_next (hs : s.Stored fun _ => True) (hn : s.next lower a = some s') :
    s.LeaseMoves s' a := by
  cases a with
  | admissionPass now fuel =>
    obtain ⟨⟨t, chosen⟩, ht, rfl⟩ := Option.map_eq_some_iff.mp hn
    exact leaseMoves_admissionPass hs ht
  | returnTicket i now =>
    obtain ⟨request, -, rfl⟩ := Option.map_eq_some_iff.mp hn
    exact leaseMoves_returnTicket
  | finishPrompt =>
    cases hn
    exact leaseMoves_finishPrompt
  | attachLease =>
    cases hn
    exact leaseMoves_attachLease
  | detachLease =>
    cases hn
    exact leaseMoves_detachLease
  | recordLeaseStatsPayload =>
    cases hn
    exact leaseMoves_recordLeaseStatsPayload
  | recordLeaseStatsError =>
    cases hn
    exact leaseMoves_recordLeaseStatsError
  | enqueue i =>
    simp only [next] at hn
    split at hn
    · cases hn
      exact .kept (fun q => rfl) rfl trivial
    · cases hn
  | cancelAdmit i =>
    simp only [next] at hn
    split at hn
    · cases hn
    · cases hn
    · cases hn
    · cases hn
      exact .kept (fun q => rfl) rfl trivial
  | admitPrompt | refreshResourceProfiles =>
    cases hn
    refine .kept ?_ ?_ trivial
    · intro q
      simp only [leasesOf, admitPrompt, predictForKey, refreshResourceProfiles]
      split_ifs <;> rfl
    · simp only [admitPrompt, predictForKey, refreshResourceProfiles]
      split_ifs <;> rfl
  | recordPromptSummary | refreshServer | resetAdmissionWindow =>
    cases hn
    exact .kept (fun q => rfl) rfl trivial

end Effects

/-! The two sides of the relation -/

theorem LeaseMoves.nodup (h : s.LeaseMoves s' a)
    (hs : ∀ promptId leases, s.leasesOf promptId = some leases → leases.Nodup) :
    ∀ promptId leases, s'.leasesOf promptId = some leases → leases.Nodup := by
  intro q leases' hq
  cases h with
  | kept hl =>
    rw [hl] at hq
    exact hs q leases' hq
  | attached hp hl =>
    rw [hl] at hq
    split_ifs at hq
    · cases hq
      exact (hs _ _ hp).insert
    · exact hs q leases' hq
  | dropped _ _ hl =>
    rw [hl] at hq
    split_ifs at hq
    · obtain ⟨leases, hleases, rfl⟩ := Option.map_eq_some_iff.mp hq
      exact (hs q leases hleases).erase _
    · exact hs q leases' hq
  | started _ hl =>
    rw [hl] at hq
    split_ifs at hq
    · cases hq
      exact List.nodup_nil
    · exact hs q leases' hq
  | released hp hl =>
    rw [hl] at hq
    split_ifs at hq
    exact hs q leases' hq

/-- The leases are mapped after a step exactly if it meets the condition. -/
theorem LeaseMoves.leasesMapped_iff (h : s.LeaseMoves s' a) (hs : s.LeaseSets)
    (hmapped : s.LeasesMapped) : s'.LeasesMapped ↔ s.LeavesLeases a := by
  have hinverse := OnlineEnvDockerScheduler.leasesMapped_iff.mp hmapped
  rw [OnlineEnvDockerScheduler.leasesMapped_iff]
  cases h with
  | kept hl hm ha =>
    refine iff_of_true ((isInverse_congr ?_ ?_).mpr hinverse) ha
    · intro l
      rw [hm]
    · intro q l
      rw [hasLease_iff, hasLease_iff, hl]
  | @attached p l leases hp hl hm ha =>
    have hattach := isInverse_attach_iff hinverse p l
    refine Iff.trans (isInverse_congr ?_ ?_) (hattach.trans ha.symm)
    · intro m
      rw [hm]
      exact Dict.lookup_insert_ite _ _ _ _
    · intro q m
      rw [hasLease_iff, hasLease_iff, hl]
      split_ifs with hq
      · subst hq
        simp only [hp, Option.mem_some_iff, exists_eq_left', List.mem_insert_iff, true_and]
        exact or_comm
      · simp [hq]
  | dropped p l hl hm ha =>
    have hdetach := isInverse_detach_iff hinverse p l
    refine Iff.trans (isInverse_congr ?_ ?_) (hdetach.trans ha.symm)
    · intro m
      rw [hm]
      exact Dict.lookup_erase_ite _ _ _
    · intro q m
      rw [hasLease_iff, hasLease_iff, hl]
      split_ifs with hq
      · subst hq
        cases hleases : s.leasesOf q with
        | none => simp
        | some leases =>
          have herase : m ∈ leases.erase l ↔ m ≠ l ∧ m ∈ leases :=
            (hs.nodup q leases hleases).mem_erase_iff
          simp [herase, and_comm]
      · simp [hq]
  | started p hl hm ha =>
    have hnone : (∀ leases ∈ s.leasesOf p, leases = []) ↔ ∀ l, ¬s.HasLease p l := by
      constructor
      · intro hempty l hl
        obtain ⟨leases, hleases, hmem⟩ := hasLease_iff.mp hl
        rw [hempty leases hleases] at hmem
        cases hmem
      · intro hempty leases hleases
        refine List.eq_nil_iff_forall_not_mem.mpr ?_
        intro l hl
        exact hempty l (hasLease_iff.mpr ⟨leases, hleases, hl⟩)
    rw [ha, hnone, ← isInverse_clear_iff hinverse p]
    refine isInverse_congr ?_ ?_
    · intro m
      rw [hm]
    · intro q m
      rw [hasLease_iff, hasLease_iff, hl]
      split_ifs with hq <;> simp [hq]
  | @released p leases hp hl hm ha =>
    have hmem : ∀ m, s.HasLease p m ↔ m ∈ leases := by
      intro m
      simp [hasLease_iff, hp]
    have : DecidablePred (s.HasLease p) := fun m => decidable_of_iff _ (hmem m).symm
    refine iff_of_true ((isInverse_congr ?_ ?_).mpr (hinverse.release p)) ha
    · intro m
      rw [hm]
      simp only [hmem]
    · intro q m
      rw [hasLease_iff, hasLease_iff, hl]
      split_ifs with hq <;> simp [hq]

theorem LeaseSets.next (hs : s.LeaseSets) (hn : s.next lower a = some s') : s'.LeaseSets :=
  ⟨hs.stored.next hn, (leaseMoves_of_next hs.stored hn).nodup hs.nodup⟩

theorem leaseSets_init (config : SchedulerConfig)
    (repoResourceStats : Dict String RepoResourceProfile) (schedulerStartTs : ℚ) :
    (init config repoResourceStats schedulerStartTs).LeaseSets := by
  refine ⟨init_stored fun _ => trivial, ?_⟩
  intro promptId leases hleases
  simp [leasesOf, init] at hleases

theorem leasesMapped_init (config : SchedulerConfig)
    (repoResourceStats : Dict String RepoResourceProfile) (schedulerStartTs : ℚ) :
    (init config repoResourceStats schedulerStartTs).LeasesMapped := by
  rw [leasesMapped_iff]
  intro p l
  simp [hasLease_iff, leasesOf, init]

/-- The leases are mapped in every state of a run exactly if all its steps meet the condition. -/
theorem leasesMapped_along_iff (lower : String → String) (config : SchedulerConfig)
    (repoResourceStats : Dict String RepoResourceProfile) (schedulerStartTs : ℚ)
    (run : List SchedulerAction) :
    let start := init config repoResourceStats schedulerStartTs
    Along (next lower) LeasesMapped start run ↔ Meets (next lower) LeavesLeases start run := by
  refine along_iff_meets (H := fun _ _ => True) (I := LeaseSets) ?_ ?_
    (leaseSets_init _ _ _) (leasesMapped_init _ _ _) (meets_of_forall (fun _ _ => trivial) _ _)
  · intro s a s' hs _ hn
    exact hs.next hn
  · intro s a s' hs hmapped _ hn
    exact (leaseMoves_of_next hs.stored hn).leasesMapped_iff hs hmapped

/-- Two prompts are active, and a lease of the first is attached to the second. -/
def sharedLeaseRun : List SchedulerAction :=
  admittedRun 0 "x" ++ admittedRun 1 "y" ++
    [.attachLease "a__b-1__g0__i0__x" "lease", .attachLease "a__b-1__g0__i0__y" "lease"]

/-- The lease is in both lease sets, and is mapped to the second prompt. -/
theorem leasesMapped_fails :
    ¬Along (next String.toLower) LeasesMapped (init (openConfig 1) ∅ 0) sharedLeaseRun := by
  intro h
  have hrun : ∃ s ∈ exec (next String.toLower) (init (openConfig 1) ∅ 0) sharedLeaseRun,
      s.leasesOf "a__b-1__g0__i0__x" = some ["lease"] ∧
        s.leasesOf "a__b-1__g0__i0__y" = some ["lease"] := by
    decide +kernel
  obtain ⟨s, hs, hx, hy⟩ := hrun
  have hboth := (h.last hs).unique "lease" "a__b-1__g0__i0__x" "a__b-1__g0__i0__y"
    (hasLease_iff.mpr ⟨_, hx, by simp⟩) (hasLease_iff.mpr ⟨_, hy, by simp⟩)
  revert hboth
  decide

end OnlineEnvDockerScheduler

end Belayer.Scheduler
