import Belayer.Scheduler.ResourceVector
import Belayer.Framework.Dict
import Belayer.Framework.Text
import Mathlib.Data.List.MinMax
import Mathlib.Tactic.NormNum

namespace Belayer.Scheduler

open Belayer.Framework

structure RepoResourceProfile where
  sampleCount : Int
  peakMemoryBytes : ℚ
  avgCpuPercent : ℚ
  avgDiskReadBytes : ℚ
  avgDiskWriteBytes : ℚ
  avgTotalTimeSec : ℚ
  deriving DecidableEq

structure PromptResourceSummary where
  promptId : String
  repo : String
  dataKey : String
  sampleCount : Nat
  peakMemoryBytes : ℚ
  avgCpuPercent : ℚ
  diskReadBytes : ℚ
  diskWriteBytes : ℚ
  startedAt : ℚ
  finishedAt : ℚ
  totalTimeSec : ℚ
  cpuSampleCount : Nat
  leaseCount : Nat
  deriving DecidableEq

structure SchedulerConfig where
  schedulerSafetyMargin : ℚ
  memoryOversellRatio : ℚ
  memoryPeakScale : ℚ
  cpuOversellRatio : ℚ
  diskReadOversellRatio : ℚ
  diskWriteOversellRatio : ℚ
  maxUnknownRepoConcurrency : Int
  coldStartMemoryMultiplier : ℚ
  coldStartCpuMultiplier : ℚ
  maxActivePrompts : Int
  startupMaxActivePrompts : Int
  startupCapDurationSec : ℚ
  defaultMemoryBytes : ℚ
  defaultCpuPercent : ℚ
  defaultDiskReadBytes : ℚ
  defaultDiskWriteBytes : ℚ
  useResourceStatsDir : Bool
  disableLiveStatsPolling : Bool
  enableLiveProfileUpdates : Bool
  minLiveProfileSamples : Int
  minProfileMemoryBytes : ℚ
  useRealtimeServerMemory : Bool
  useRealtimeServerCpu : Bool
  useRealtimeServerDisk : Bool
  preservePromptOrder : Bool
  headBlockRequeueThreshold : Int
  headBlockRequeueOffset : Int
  maxRequestsPerResourceUpdate : Int
  realtimeLocalActiveDiscount : ℚ

structure PromptAdmissionTicket where
  promptId : String
  repo : String
  rolloutId : Option Int
  predicted : ResourceVector
  deriving DecidableEq

/-- `_PendingPrompt`; `call` is the `admit_prompt` that waits for it. -/
structure PendingPrompt where
  call : Nat
  promptId : String
  repo : String
  dataKey : String
  rolloutId : Option Int
  predicted : ResourceVector
  avgTotalTimeSec : ℚ
  hasHistory : Bool
  createdAt : ℚ
  admitted : Bool
  headBlockCount : Int
  deriving DecidableEq

structure LeaseResourceStats where
  sampleCount : Nat
  cpuSampleCount : Nat
  peakMemoryBytes : ℚ
  avgCpuPercent : Option ℚ
  diskReadBytes : ℚ
  diskWriteBytes : ℚ

/-- `_ActivePrompt`; the leases are a set. -/
structure ActivePrompt where
  promptId : String
  repo : String
  dataKey : String
  rolloutId : Option Int
  predicted : ResourceVector
  hasHistory : Bool
  startedAt : ℚ
  sampleCount : Nat
  cpuSampleCount : Nat
  latestCpuPercent : Option ℚ
  cpuLatestByLease : Dict String ℚ
  leaseStatsByLease : Dict String LeaseResourceStats
  peakMemoryBytes : ℚ
  diskReadBytes : ℚ
  diskWriteBytes : ℚ
  leases : List String
  leaseErrors : Dict String Nat

/-- Where a call of `admit_prompt` stands: it has made its request and waits for the lock,
its request is pending or admitted, it has returned, or it has been cancelled. -/
inductive AdmitCall where
  | requested (request : PendingPrompt)
  | waiting
  | admitted (request : PendingPrompt)
  | returned (ticket : PromptAdmissionTicket)
  | cancelled
  deriving DecidableEq

/-- What the server reports as available, from the first report on. -/
structure ServerResources where
  memoryAvailableBytes : Option ℚ
  cpuAvailablePercent : Option ℚ
  diskReadAvailableBps : Option ℚ
  diskWriteAvailableBps : Option ℚ

/-- The scheduler with its calls of `admit_prompt`. -/
structure OnlineEnvDockerScheduler where
  config : SchedulerConfig
  repoResourceStats : Dict String RepoResourceProfile
  activePredicted : ResourceVector
  pending : List PendingPrompt
  activePrompts : Dict String ActivePrompt
  leaseToPrompt : Dict String String
  schedulerStartTs : ℚ
  server : ServerResources
  admittedSinceResourceRefresh : Nat
  calls : List AdmitCall

def LeaseResourceStats.start : LeaseResourceStats := ⟨0, 0, 0, none, 0, 0⟩

def RepoResourceProfile.start : RepoResourceProfile := ⟨0, 0, 0, 0, 0, 0⟩

/-- The active prompt of a request. -/
def PendingPrompt.activate (request : PendingPrompt) (now : ℚ) : ActivePrompt :=
  ⟨request.promptId, request.repo, request.dataKey, request.rolloutId, request.predicted,
    request.hasHistory, now, 0, 0, none, ∅, ∅, 0, 0, 0, [], ∅⟩

/-- `_build_prompt_id`; the suffix is random. -/
def buildPromptId (iid : Option String) (groupIndex sampleIndex : Option Int) (suffix : String) :
    String :=
  let index (i : Option Int) := (i.map toString).getD "na"
  (iid.filter (· ≠ "")).getD "unknown" ++ "__g" ++ index groupIndex ++ "__i" ++
    index sampleIndex ++ "__" ++ suffix

namespace OnlineEnvDockerScheduler

def init (config : SchedulerConfig) (repoResourceStats : Dict String RepoResourceProfile)
    (schedulerStartTs : ℚ) : OnlineEnvDockerScheduler :=
  ⟨config, repoResourceStats, 0, [], ∅, ∅, schedulerStartTs, ⟨none, none, none, none⟩, 0, []⟩

/-- `_refresh_resource_profiles` with the profiles it reads, none when it is not due. -/
def refreshResourceProfiles (s : OnlineEnvDockerScheduler)
    (aggregated : List (String × RepoResourceProfile)) : OnlineEnvDockerScheduler :=
  if s.config.useResourceStatsDir then
    { s with
      repoResourceStats :=
        aggregated.foldl (fun stats e => AList.insert e.1 e.2 stats) s.repoResourceStats }
  else s

end OnlineEnvDockerScheduler

namespace SchedulerConfig

def memMul (c : SchedulerConfig) : ℚ := max 1 c.coldStartMemoryMultiplier

def cpuMul (c : SchedulerConfig) : ℚ := max 1 c.coldStartCpuMultiplier

/-- The prediction without a profile. -/
def coldPrediction (c : SchedulerConfig) : ResourceVector :=
  ⟨max 1 (c.defaultMemoryBytes * c.memMul), max (1 / 10) (c.defaultCpuPercent * c.cpuMul),
    c.defaultDiskReadBytes, c.defaultDiskWriteBytes⟩

def profilePrediction (c : SchedulerConfig) (profile : RepoResourceProfile) : ResourceVector :=
  ⟨max (max 1 (max 0 c.minProfileMemoryBytes))
      (profile.peakMemoryBytes * min 1 (max 0 c.memoryPeakScale)),
    max (1 / 10) profile.avgCpuPercent, max 1 profile.avgDiskReadBytes,
    max 1 profile.avgDiskWriteBytes⟩

/-- A profile with few samples predicts at least the defaults. -/
def earlyPrediction (c : SchedulerConfig) (profile : RepoResourceProfile) : ResourceVector :=
  let prediction := c.profilePrediction profile
  ⟨max prediction.memoryBytes (c.defaultMemoryBytes * c.memMul),
    max prediction.cpuPercent (c.defaultCpuPercent * c.cpuMul),
    max prediction.diskReadBytes c.defaultDiskReadBytes,
    max prediction.diskWriteBytes c.defaultDiskWriteBytes⟩

/-- The part of `_predict_for_key` after the profiles are refreshed: the prediction, whether
it comes from history, and the average time. -/
def predict (c : SchedulerConfig) : Option RepoResourceProfile → ResourceVector × Bool × ℚ
  | none => (c.coldPrediction, false, 0)
  | some profile =>
    if profile.sampleCount ≤ 0 then (c.coldPrediction, false, 0)
    else if profile.sampleCount < max 0 c.minLiveProfileSamples then
      (c.earlyPrediction profile, false, max 0 profile.avgTotalTimeSec)
    else (c.profilePrediction profile, true, max 0 profile.avgTotalTimeSec)

/-- The least memory that is ever predicted. -/
theorem one_le_memory_predict (c : SchedulerConfig) (profile : Option RepoResourceProfile) :
    1 ≤ (c.predict profile).1.memoryBytes := by
  cases profile with
  | none => exact le_max_left _ _
  | some profile =>
    have hprofile : 1 ≤ (c.profilePrediction profile).memoryBytes :=
      (le_max_left _ _).trans (le_max_left _ _)
    simp only [predict]
    split_ifs
    · exact le_max_left _ _
    · exact hprofile.trans (le_max_left _ _)
    · exact hprofile

/-- A prediction can only be negative by the default for a disk. -/
theorem predict_nonneg {c : SchedulerConfig} (hr : 0 ≤ c.defaultDiskReadBytes)
    (hw : 0 ≤ c.defaultDiskWriteBytes) (profile : Option RepoResourceProfile) :
    0 ≤ (c.predict profile).1 := by
  have hcold : 0 ≤ c.coldPrediction :=
    ⟨zero_le_one.trans (le_max_left _ _), (by norm_num : (0 : ℚ) ≤ 1 / 10).trans (le_max_left _ _),
      hr, hw⟩
  cases profile with
  | none => exact hcold
  | some profile =>
    have hprofile : 0 ≤ c.profilePrediction profile :=
      ⟨zero_le_one.trans ((le_max_left _ _).trans (le_max_left _ _)),
        (by norm_num : (0 : ℚ) ≤ 1 / 10).trans (le_max_left _ _),
        zero_le_one.trans (le_max_left _ _), zero_le_one.trans (le_max_left _ _)⟩
    simp only [predict]
    split_ifs
    · exact hcold
    · obtain ⟨hm, hc, hr, hw⟩ := hprofile
      exact ⟨hm.trans (le_max_left _ _), hc.trans (le_max_left _ _), hr.trans (le_max_left _ _),
        hw.trans (le_max_left _ _)⟩
    · exact hprofile

end SchedulerConfig

namespace OnlineEnvDockerScheduler

/-- `_predict_for_key`. -/
def predictForKey (s : OnlineEnvDockerScheduler) (dataKey : String)
    (aggregated : List (String × RepoResourceProfile)) :
    OnlineEnvDockerScheduler × ResourceVector × Bool × ℚ :=
  let refreshed := s.refreshResourceProfiles aggregated
  (refreshed, s.config.predict (refreshed.repoResourceStats.lookup dataKey))

/-- What of a dimension the budget starts from: what the server reports, at least `least`,
nothing before its first report, and no bound when its report is not used. -/
def available (useRealtime : Bool) (reported : Option ℚ) (least unbounded : ℚ) : ℚ :=
  if useRealtime then (reported.map (max least)).getD 0 else unbounded

/-- `_effective_budget`. -/
def effectiveBudget (s : OnlineEnvDockerScheduler) : ResourceVector :=
  let c := s.config
  let m := max (1 / 100) c.schedulerSafetyMargin
  ⟨available c.useRealtimeServerMemory s.server.memoryAvailableBytes 1 (2 ^ 60) * m *
      max 1 c.memoryOversellRatio,
    available c.useRealtimeServerCpu s.server.cpuAvailablePercent (1 / 10) (10 ^ 9) * m *
      max 1 c.cpuOversellRatio,
    available c.useRealtimeServerDisk s.server.diskReadAvailableBps 1 (2 ^ 60) * m *
      max 1 c.diskReadOversellRatio,
    available c.useRealtimeServerDisk s.server.diskWriteAvailableBps 1 (2 ^ 60) * m *
      max 1 c.diskWriteOversellRatio⟩

/-- `_scaled_active_for_budget_unlocked`. -/
def scaledActive (c : SchedulerConfig) (active : ResourceVector) : ResourceVector :=
  let discount := max 0 c.realtimeLocalActiveDiscount
  if discount = 1 then active
  else
    ⟨max 0 (active.memoryBytes * discount), max 0 (active.cpuPercent * discount),
      max 0 (active.diskReadBytes * discount), max 0 (active.diskWriteBytes * discount)⟩

/-- `_active_for_budget` of the reservation. -/
def activeForBudget (s : OnlineEnvDockerScheduler) : ResourceVector :=
  let c := s.config
  let active := s.activePredicted
  let scaled := scaledActive c active
  ⟨if c.useRealtimeServerMemory then scaled.memoryBytes else active.memoryBytes,
    if c.useRealtimeServerCpu then scaled.cpuPercent else active.cpuPercent,
    if c.useRealtimeServerDisk then scaled.diskReadBytes else active.diskReadBytes,
    if c.useRealtimeServerDisk then scaled.diskWriteBytes else active.diskWriteBytes⟩

end OnlineEnvDockerScheduler

end Belayer.Scheduler
