import Belayer.Scheduler.Reservation
import Belayer.Framework.Ordered
import Mathlib.Data.List.Chain

namespace Belayer.Scheduler

open Belayer.Framework

/-- What is read of a file of the statistics directory; `dataKey` is its instance, or the one
that its image names. -/
structure ResourceStatsFile where
  dataKey : String
  memMbMax : ℚ
  cpuAvg : ℚ
  diskReadMbMax : ℚ
  diskWriteMbMax : ℚ
  durationSec : ℚ
  startTime : ℚ
  endTime : ℚ

def ResourceStatsFile.peakMemoryBytes (file : ResourceStatsFile) : ℚ :=
  max 0 (max 0 file.memMbMax * 1024 * 1024)

def RepoResourceProfile.aggregate (profile : RepoResourceProfile) (file : ResourceStatsFile) :
    RepoResourceProfile :=
  let n := profile.sampleCount
  let duration := max (max 0 file.durationSec) (file.endTime - file.startTime)
  ⟨n + 1, max profile.peakMemoryBytes file.peakMemoryBytes,
    rollingAvg profile.avgCpuPercent n (max 0 file.cpuAvg),
    rollingAvg profile.avgDiskReadBytes n (max 0 (max 0 file.diskReadMbMax * 1024 * 1024)),
    rollingAvg profile.avgDiskWriteBytes n (max 0 (max 0 file.diskWriteMbMax * 1024 * 1024)),
    rollingAvg profile.avgTotalTimeSec n (max 0 duration)⟩

/-- `_update_aggregated_profile`. -/
def updateAggregatedProfile (aggregated : Dict String RepoResourceProfile)
    (file : ResourceStatsFile) : Dict String RepoResourceProfile :=
  aggregated.set file.dataKey ((aggregated.getD file.dataKey .start).aggregate file)

/-- What `_refresh_resource_profiles` makes of the files. -/
def aggregated (files : List ResourceStatsFile) : Dict String RepoResourceProfile :=
  files.foldl updateAggregatedProfile ∅

/-- Count and peak of a profile are at least those of the other. -/
structure RepoResourceProfile.AtLeast (p q : RepoResourceProfile) : Prop where
  count : q.sampleCount ≤ p.sampleCount
  peak : q.peakMemoryBytes ≤ p.peakMemoryBytes

/-- No recorded count or peak is lower in the second map. -/
def Keeps (stats stats' : Dict String RepoResourceProfile) : Prop :=
  ∀ key profile, stats.lookup key = some profile →
    ∃ profile', stats'.lookup key = some profile' ∧ profile'.AtLeast profile

/-- Where a key is recorded and read, what is read is at least what is recorded. -/
def Covers (stats : Dict String RepoResourceProfile)
    (items : List (String × RepoResourceProfile)) : Prop :=
  ∀ key profile, stats.lookup key = some profile → ∀ read, items.reverse.lookup key = some read →
    read.AtLeast profile

/-- The map after a summary is recorded. -/
def recorded (lower : String → String) (stats : Dict String RepoResourceProfile)
    (summary : PromptResourceSummary) : Dict String RepoResourceProfile :=
  let key := summary.profileKey lower
  AList.insert key (((stats.lookup key).getD .start).update summary) stats

variable {stats stats' : Dict String RepoResourceProfile}
  {items : List (String × RepoResourceProfile)}

theorem RepoResourceProfile.AtLeast.trans {p q r : RepoResourceProfile} (hqp : q.AtLeast p)
    (hrq : r.AtLeast q) : r.AtLeast p :=
  ⟨hqp.count.trans hrq.count, hqp.peak.trans hrq.peak⟩

theorem RepoResourceProfile.atLeast_update (profile : RepoResourceProfile)
    (summary : PromptResourceSummary) : (profile.update summary).AtLeast profile := by
  refine ⟨?_, le_max_left _ _⟩
  change profile.sampleCount ≤ profile.sampleCount + 1
  omega

theorem Keeps.refl (stats : Dict String RepoResourceProfile) : Keeps stats stats :=
  fun _ profile h => ⟨profile, h, le_refl _, le_refl _⟩

theorem Keeps.trans {stats'' : Dict String RepoResourceProfile} (h : Keeps stats stats')
    (h' : Keeps stats' stats'') : Keeps stats stats'' := by
  intro key profile hl
  obtain ⟨profile', hl', hle⟩ := h key profile hl
  obtain ⟨profile'', hl'', hle'⟩ := h' key profile' hl'
  exact ⟨profile'', hl'', hle.trans hle'⟩

instance : IsTrans (Dict String RepoResourceProfile) Keeps := ⟨fun _ _ _ => Keeps.trans⟩

/-- A live update lowers nothing. -/
theorem keeps_recorded (lower : String → String) (stats : Dict String RepoResourceProfile)
    (summary : PromptResourceSummary) : Keeps stats (recorded lower stats summary) := by
  intro key profile hl
  simp only [recorded, Dict.lookup_insert_ite]
  by_cases hkey : key = summary.profileKey lower
  · rw [if_pos hkey, ← hkey, hl]
    exact ⟨_, rfl, profile.atLeast_update summary⟩
  · rw [if_neg hkey]
    exact ⟨profile, hl, le_refl _, le_refl _⟩

/-- `dict.update`: a key has its last new value, or else its old one. -/
theorem lookup_foldl_insert (items : List (String × RepoResourceProfile))
    (stats : Dict String RepoResourceProfile) (key : String) :
    (items.foldl (fun stats e => AList.insert e.1 e.2 stats) stats).lookup key =
      (items.reverse.lookup key).or (stats.lookup key) := by
  induction items using List.reverseRecOn with
  | nil => rfl
  | append_singleton items e ih =>
    rw [List.foldl_concat, Dict.lookup_insert_ite, ih, List.reverse_concat, List.lookup_cons]
    by_cases hkey : key = e.1
    · simp [hkey]
    · simp [hkey, beq_eq_false_iff_ne.mpr hkey]

theorem keeps_update_iff : Keeps stats (items.foldl (fun stats e => AList.insert e.1 e.2 stats) stats) ↔
    Covers stats items := by
  simp only [Keeps, Covers, lookup_foldl_insert]
  refine forall₃_congr fun key profile hl => ?_
  rw [hl]
  cases items.reverse.lookup key with
  | none => exact iff_of_true ⟨profile, rfl, le_refl _, le_refl _⟩ fun read hread => by cases hread
  | some read =>
    constructor
    · rintro ⟨profile', hl', hle⟩ read' hread
      cases hread
      cases hl'
      exact hle
    · exact fun h => ⟨read, rfl, h read rfl⟩

/-! The aggregate of the files -/

theorem lookup_aggregated (files : List ResourceStatsFile) (key : String) :
    (aggregated files).lookup key =
      if ∃ file ∈ files, file.dataKey = key then
        some ((files.filter (·.dataKey = key)).foldl RepoResourceProfile.aggregate .start)
      else none := by
  have hfold : aggregated files = Dict.accumulate RepoResourceProfile.aggregate .start
      (files.map fun file => (file.dataKey, file)) := by
    rw [Dict.accumulate, List.foldl_map]
    rfl
  have hvalues : Dict.valuesOf (files.map fun file => (file.dataKey, file)) key =
      files.filter (·.dataKey = key) := by
    rw [Dict.valuesOf, List.filter_map, List.map_map]
    exact List.map_id _
  rw [hfold, Dict.lookup_accumulate, hvalues]
  simp only [List.map_map, List.mem_map, Function.comp_apply]

theorem sampleCount_foldl_aggregate (files : List ResourceStatsFile)
    (profile : RepoResourceProfile) :
    (files.foldl RepoResourceProfile.aggregate profile).sampleCount =
      profile.sampleCount + files.length := by
  induction files generalizing profile with
  | nil => simp
  | cons file files ih =>
    rw [List.foldl_cons, ih]
    simp only [RepoResourceProfile.aggregate, List.length_cons]
    omega

theorem le_peakMemoryBytes_foldl_aggregate (files : List ResourceStatsFile)
    (profile : RepoResourceProfile) (peak : ℚ) :
    peak ≤ (files.foldl RepoResourceProfile.aggregate profile).peakMemoryBytes ↔
      peak ≤ profile.peakMemoryBytes ∨ ∃ file ∈ files, peak ≤ file.peakMemoryBytes := by
  induction files generalizing profile with
  | nil => simp
  | cons file files ih =>
    rw [List.foldl_cons, ih]
    simp only [RepoResourceProfile.aggregate, le_max_iff, List.mem_cons, exists_eq_or_imp, or_assoc]

/-- The files cover a record that has no more samples than there are files of its key and no
higher peak than one of them. -/
theorem covers_aggregated_iff (files : List ResourceStatsFile) :
    Covers stats (aggregated files).items ↔
      ∀ key profile, stats.lookup key = some profile → (∃ file ∈ files, file.dataKey = key) →
        profile.sampleCount ≤ (files.filter (·.dataKey = key)).length ∧
          (profile.peakMemoryBytes ≤ 0 ∨
            ∃ file ∈ files, file.dataKey = key ∧ profile.peakMemoryBytes ≤ file.peakMemoryBytes) := by
  simp only [Covers, Dict.lookup_reverse_items, lookup_aggregated]
  refine forall₃_congr fun key profile _ => ?_
  have hatLeast : ((files.filter (·.dataKey = key)).foldl RepoResourceProfile.aggregate
      .start).AtLeast profile ↔
      profile.sampleCount ≤ (files.filter (·.dataKey = key)).length ∧
        (profile.peakMemoryBytes ≤ 0 ∨
          ∃ file ∈ files, file.dataKey = key ∧ profile.peakMemoryBytes ≤ file.peakMemoryBytes) := by
    have hcount := sampleCount_foldl_aggregate (files.filter (·.dataKey = key)) .start
    have hpeak := le_peakMemoryBytes_foldl_aggregate (files.filter (·.dataKey = key)) .start
      profile.peakMemoryBytes
    simp only [RepoResourceProfile.start, List.mem_filter, decide_eq_true_eq, and_assoc, zero_add]
      at hcount hpeak
    constructor
    · exact fun h => ⟨hcount.subst (motive := fun n => profile.sampleCount ≤ n) h.count,
        hpeak.mp h.peak⟩
    · exact fun h => ⟨h.1.trans_eq hcount.symm, hpeak.mpr h.2⟩
  by_cases hread : ∃ file ∈ files, file.dataKey = key
  · simp only [if_pos hread, Option.some.injEq, forall_eq', hatLeast]
    exact ⟨fun h _ => h, fun h => h hread⟩
  · simp only [if_neg hread]
    exact iff_of_true (fun read h => by cases h) fun h => absurd h hread

namespace OnlineEnvDockerScheduler

variable (lower : String → String) (s : OnlineEnvDockerScheduler)

/-- The maps that a step writes, in their order. -/
def profileWrites : SchedulerAction → List (Dict String RepoResourceProfile)
  | .admitPrompt _ _ _ _ _ _ _ _ items | .refreshResourceProfiles items =>
    [(s.refreshResourceProfiles items).repoResourceStats]
  | .finishPrompt promptId now items =>
    match s.activePrompts.lookup promptId with
    | none => []
    | some active =>
      if s.config.enableLiveProfileUpdates then
        let updated := (s.release promptId active).updateRepoProfile lower
          (active.summary promptId now)
        [updated.repoResourceStats, (updated.refreshResourceProfiles items).repoResourceStats]
      else []
  | .recordPromptSummary summary => [(s.updateRepoProfile lower summary).repoResourceStats]
  | _ => []

/-- The maps of a run in the order in which they are written, the first one included. -/
def profileHistory : OnlineEnvDockerScheduler → List SchedulerAction →
    List (Dict String RepoResourceProfile)
  | s, [] => [s.repoResourceStats]
  | s, a :: as =>
    match s.next lower a with
    | none => [s.repoResourceStats]
    | some s' => s.repoResourceStats :: (s.profileWrites lower a ++ profileHistory s' as)

/-- Nothing that was recorded is lowered later in the run. -/
def ProfilesKept (actions : List SchedulerAction) : Prop :=
  (profileHistory lower s actions).Pairwise Keeps

/-- What a step reads from the directory covers what is recorded by then; when a prompt is
finished, its summary is recorded before the directory is read. -/
def ReadsNoOlder : SchedulerAction → Prop
  | .admitPrompt _ _ _ _ _ _ _ _ items | .refreshResourceProfiles items =>
    s.config.useResourceStatsDir = true → Covers s.repoResourceStats items
  | .finishPrompt promptId now items =>
    s.config.useResourceStatsDir = true → s.config.enableLiveProfileUpdates = true →
      ∀ active, s.activePrompts.lookup promptId = some active →
        Covers (recorded lower s.repoResourceStats (active.summary promptId now)) items
  | _ => True

variable {lower s} {s' : OnlineEnvDockerScheduler} {items : List (String × RepoResourceProfile)}

theorem keeps_refreshResourceProfiles_iff (s : OnlineEnvDockerScheduler)
    (items : List (String × RepoResourceProfile)) :
    Keeps s.repoResourceStats (s.refreshResourceProfiles items).repoResourceStats ↔
      (s.config.useResourceStatsDir = true → Covers s.repoResourceStats items) := by
  unfold refreshResourceProfiles
  by_cases hdir : s.config.useResourceStatsDir = true
  · rw [if_pos hdir, ← keeps_update_iff]
    exact ⟨fun h _ => h, fun h => h hdir⟩
  · rw [if_neg hdir]
    exact iff_of_true (.refl _) fun h => absurd h hdir

/-- The writes of a step lower nothing exactly when what it reads is no older than the record. -/
theorem isChain_profileWrites_iff (a : SchedulerAction) :
    (s.repoResourceStats :: s.profileWrites lower a).IsChain Keeps ↔ s.ReadsNoOlder lower a := by
  cases a with
  | admitPrompt => exact List.isChain_pair.trans (keeps_refreshResourceProfiles_iff s _)
  | refreshResourceProfiles => exact List.isChain_pair.trans (keeps_refreshResourceProfiles_iff s _)
  | recordPromptSummary summary =>
    exact List.isChain_pair.trans (iff_of_true (keeps_recorded lower _ summary) trivial)
  | finishPrompt promptId now items =>
    simp only [profileWrites, ReadsNoOlder]
    cases hl : s.activePrompts.lookup promptId with
    | none => simp
    | some active =>
      by_cases hlive : s.config.enableLiveProfileUpdates = true
      · simp only [if_pos hlive, List.isChain_cons_cons, List.isChain_singleton, and_true]
        have hkeeps := keeps_recorded lower s.repoResourceStats (active.summary promptId now)
        have hrefresh := keeps_refreshResourceProfiles_iff
          ((s.release promptId active).updateRepoProfile lower (active.summary promptId now)) items
        constructor
        · rintro ⟨-, h⟩ hdir - active' hactive
          cases hactive
          exact hrefresh.mp h hdir
        · exact fun h => ⟨hkeeps, hrefresh.mpr fun hdir => h hdir hlive active rfl⟩
      · simp [hlive]
  | _ => exact iff_of_true (.singleton _) trivial

theorem repoResourceStats_attachLease (promptId leaseId : String) :
    (s.attachLease promptId leaseId).repoResourceStats = s.repoResourceStats := by
  unfold attachLease
  split_ifs
  · rfl
  · cases s.activePrompts.lookup promptId <;> rfl

theorem repoResourceStats_detachLease (leaseId : String) :
    (s.detachLease leaseId).repoResourceStats = s.repoResourceStats := by
  unfold detachLease
  split_ifs
  · rfl
  · cases s.leaseToPrompt.lookup leaseId with
    | none => rfl
    | some promptId =>
      dsimp only
      cases s.activePrompts.lookup promptId <;> rfl

theorem repoResourceStats_recordLeaseStatsPayload (leaseId promptId : String)
    (payload : LeaseStatsPayload) :
    (s.recordLeaseStatsPayload leaseId promptId payload).repoResourceStats =
      s.repoResourceStats := by
  unfold recordLeaseStatsPayload
  cases s.activePrompts.lookup promptId <;> rfl

theorem repoResourceStats_recordLeaseStatsError (leaseId promptId : String)
    (isUnknownLease : Bool) :
    (s.recordLeaseStatsError leaseId promptId isUnknownLease).repoResourceStats =
      s.repoResourceStats := by
  unfold recordLeaseStatsError
  cases s.activePrompts.lookup promptId <;> rfl

theorem repoResourceStats_admitNext {now : ℚ} {fuel : Nat} {chosen : Option PendingPrompt}
    (h : s.admitNext now fuel = some (s', chosen)) :
    s'.repoResourceStats = s.repoResourceStats := by
  obtain ⟨pending, -, ⟨-, rfl⟩ | ⟨request, -, -, rfl⟩⟩ := passed_of_admitNext h
  · rfl
  · unfold markAdmitted
    split_ifs <;> rfl

/-- The map after a step is the last one that it writes. -/
theorem getLast?_profileWrites {a : SchedulerAction} (hn : s.next lower a = some s') :
    (s.repoResourceStats :: s.profileWrites lower a).getLast? = some s'.repoResourceStats := by
  cases a with
  | admitPrompt => cases hn; rfl
  | refreshResourceProfiles => cases hn; rfl
  | recordPromptSummary => cases hn; rfl
  | refreshServer => cases hn; rfl
  | resetAdmissionWindow => cases hn; rfl
  | attachLease promptId leaseId =>
    cases hn
    exact congrArg some (repoResourceStats_attachLease promptId leaseId).symm
  | detachLease leaseId =>
    cases hn
    exact congrArg some (repoResourceStats_detachLease leaseId).symm
  | recordLeaseStatsPayload leaseId promptId payload =>
    cases hn
    exact congrArg some (repoResourceStats_recordLeaseStatsPayload leaseId promptId payload).symm
  | recordLeaseStatsError leaseId promptId isUnknownLease =>
    cases hn
    exact congrArg some
      (repoResourceStats_recordLeaseStatsError leaseId promptId isUnknownLease).symm
  | finishPrompt promptId now items =>
    cases hn
    simp only [profileWrites, finishPrompt]
    cases s.activePrompts.lookup promptId with
    | none => rfl
    | some active =>
      by_cases hlive : s.config.enableLiveProfileUpdates = true
      · simp only [if_pos hlive]
        rfl
      · simp only [if_neg hlive]
        rfl
  | admissionPass now fuel =>
    obtain ⟨⟨t, chosen⟩, hpass, rfl⟩ := Option.map_eq_some_iff.mp hn
    exact congrArg some (repoResourceStats_admitNext hpass).symm
  | enqueue i =>
    simp only [next] at hn
    split at hn
    · cases hn; rfl
    · cases hn
  | returnTicket i now =>
    obtain ⟨request, -, rfl⟩ := Option.map_eq_some_iff.mp hn
    refine congrArg some ?_
    unfold returnTicket
    cases s.activePrompts.lookup request.promptId <;> rfl
  | cancelAdmit i =>
    simp only [next] at hn
    split at hn
    all_goals cases hn
    rfl

/-- What is recorded is kept exactly in the runs that never read an older aggregate. -/
theorem profilesKept_iff (lower : String → String) (s : OnlineEnvDockerScheduler)
    (actions : List SchedulerAction) :
    s.ProfilesKept lower actions ↔ Meets (next lower) (ReadsNoOlder lower) s actions := by
  unfold ProfilesKept
  rw [← List.isChain_iff_pairwise]
  induction actions generalizing s with
  | nil => exact iff_of_true (.singleton _) trivial
  | cons a as ih =>
    unfold profileHistory Meets
    cases hn : s.next lower a with
    | none => exact iff_of_true (.singleton _) trivial
    | some s' =>
      have hhead : (profileHistory lower s' as).head? = some s'.repoResourceStats := by
        cases as with
        | nil => rfl
        | cons b bs =>
          unfold profileHistory
          cases s'.next lower b <;> rfl
      dsimp only
      rw [← List.cons_append, List.isChain_append, isChain_profileWrites_iff, ih s',
        getLast?_profileWrites hn, hhead]
      constructor
      · exact fun h => ⟨h.1, h.2.1⟩
      · rintro ⟨hreads, hrest⟩
        refine ⟨hreads, hrest, ?_⟩
        rintro x hx y hy
        cases hx
        cases hy
        exact .refl _

/-- The configuration that learns from its prompts and from the directory. -/
def learningConfig : SchedulerConfig :=
  { openConfig 1 with useResourceStatsDir := true, enableLiveProfileUpdates := true }

/-- One file of 4 MB for the instance. -/
def oneFile : List (String × RepoResourceProfile) :=
  (aggregated [⟨"a__b-1", 4, 1, 1, 1, 10, 0, 10⟩]).items

/-- The admission reads the file, and so does the end of the prompt. -/
def learningRun : List SchedulerAction :=
  [.admitPrompt (some "a__b-1") (some 0) (some 0) none "x" "b" "a__b-1" 0 oneFile, .enqueue 0,
    .admissionPass 0 1, .returnTicket 0 0, .attachLease "a__b-1__g0__i0__x" "l",
    .recordLeaseStatsPayload "l" "a__b-1__g0__i0__x" ⟨8388608, 1, some true, 1, 1⟩,
    .finishPrompt "a__b-1__g0__i0__x" 5 oneFile]

/-- The sample of the prompt is recorded and then lost: its count falls from 2 to 1, and its
peak from 8 MB to 4 MB. -/
theorem not_profilesKept_oneFile :
    ¬(init learningConfig ∅ 0).ProfilesKept String.toLower learningRun := by
  intro h
  have hpair := h.map (fun stats => (stats.lookup "a__b-1").map (·.sampleCount))
    (S := fun m n => ∀ k ∈ m, ∃ l ∈ n, k ≤ l)
    (fun stats stats' hkeeps k hk => by
      obtain ⟨profile, hl, rfl⟩ := Option.map_eq_some_iff.mp hk
      obtain ⟨profile', hl', hle⟩ := hkeeps _ _ hl
      exact ⟨_, Option.map_eq_some_iff.mpr ⟨profile', hl', rfl⟩, hle.count⟩)
  have hcounts : (profileHistory String.toLower (init learningConfig ∅ 0) learningRun).map
      (fun stats => (stats.lookup "a__b-1").map (·.sampleCount)) =
      [none, some 1, some 1, some 1, some 1, some 1, some 1, some 1, some 2, some 1, some 1] := by
    decide +kernel
  rw [hcounts] at hpair
  revert hpair
  decide

end OnlineEnvDockerScheduler

end Belayer.Scheduler
