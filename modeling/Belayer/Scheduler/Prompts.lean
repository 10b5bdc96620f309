import Belayer.Scheduler.Admission
import Belayer.Framework.Run

namespace Belayer.Scheduler

open Belayer.Framework

/-- The statistics of a lease that one sample reports. -/
structure LeaseStatsPayload where
  memoryBytes : ℚ
  cpuPercent : ℚ
  cpuSampleValid : Option Bool
  diskReadBytes : ℚ
  diskWriteBytes : ℚ

inductive SchedulerAction where
  | admitPrompt (iid : Option String) (groupIndex sampleIndex rolloutId : Option Int)
      (suffix repo dataKey : String) (now : ℚ) (aggregated : List (String × RepoResourceProfile))
  | enqueue (i : Nat)
  | admissionPass (now : ℚ) (fuel : Nat)
  | returnTicket (i : Nat) (now : ℚ)
  | cancelAdmit (i : Nat)
  | attachLease (promptId leaseId : String)
  | detachLease (leaseId : String)
  | finishPrompt (promptId : String) (now : ℚ) (aggregated : List (String × RepoResourceProfile))
  | recordLeaseStatsPayload (leaseId promptId : String) (payload : LeaseStatsPayload)
  | recordLeaseStatsError (leaseId promptId : String) (isUnknownLease : Bool)
  | refreshResourceProfiles (aggregated : List (String × RepoResourceProfile))
  | recordPromptSummary (summary : PromptResourceSummary)
  | refreshServer (reported : ServerResources)
  | resetAdmissionWindow

/-- The mean, of some values. -/
def mean? (xs : List ℚ) : Option ℚ := if xs = [] then none else some (xs.sum / xs.length)

/-- `_rolling_avg`. -/
def rollingAvg (oldValue : ℚ) (oldCount : Int) (newValue : ℚ) : ℚ :=
  if oldCount ≤ 0 then newValue else (oldValue * oldCount + newValue) / (oldCount + 1)

def RepoResourceProfile.update (profile : RepoResourceProfile) (summary : PromptResourceSummary) :
    RepoResourceProfile :=
  let n := profile.sampleCount
  ⟨n + 1, max profile.peakMemoryBytes summary.peakMemoryBytes,
    rollingAvg profile.avgCpuPercent n summary.avgCpuPercent,
    rollingAvg profile.avgDiskReadBytes n summary.diskReadBytes,
    rollingAvg profile.avgDiskWriteBytes n summary.diskWriteBytes,
    rollingAvg profile.avgTotalTimeSec n summary.totalTimeSec⟩

namespace ActivePrompt

/-- The part of `finish_prompt` that sums up; without samples it takes the prediction. -/
def summary (active : ActivePrompt) (promptId : String) (finishedAt : ℚ) : PromptResourceSummary :=
  let leaseStats := (active.leaseStatsByLease.entries.map (·.2)).filter (0 < ·.sampleCount)
  let make := fun (sampleCount leaseCount : Nat) (memory cpu read write : ℚ) =>
    (⟨promptId, active.repo, active.dataKey, sampleCount, memory, cpu, read, write,
      active.startedAt, finishedAt, max 0 (finishedAt - active.startedAt), active.cpuSampleCount,
      leaseCount⟩ : PromptResourceSummary)
  let predicted := active.predicted
  if active.sampleCount = 0 then
    make 1 0 predicted.memoryBytes predicted.cpuPercent predicted.diskReadBytes
      predicted.diskWriteBytes
  else if leaseStats = [] then
    let cpuValues := active.cpuLatestByLease.entries.map (·.2)
    make active.sampleCount 0 active.peakMemoryBytes
      ((active.latestCpuPercent <|> mean? cpuValues).getD predicted.cpuPercent)
      active.diskReadBytes active.diskWriteBytes
  else
    let cpuValues := leaseStats.filterMap fun item =>
      if 0 < item.cpuSampleCount then item.avgCpuPercent else none
    let mean := fun (f : LeaseResourceStats → ℚ) => (leaseStats.map f).sum / leaseStats.length
    make active.sampleCount leaseStats.length (mean (·.peakMemoryBytes))
      ((mean? cpuValues <|> active.latestCpuPercent).getD predicted.cpuPercent)
      (mean (·.diskReadBytes)) (mean (·.diskWriteBytes))

def addLease (active : ActivePrompt) (leaseId : String) : ActivePrompt :=
  { active with leases := active.leases.insert leaseId }

/-- A detached lease. -/
def discardLease (active : ActivePrompt) (leaseId : String) : ActivePrompt :=
  { active with
    leases := active.leases.erase leaseId
    leaseErrors := AList.erase leaseId active.leaseErrors }

/-- A sample of a lease. -/
def record (active : ActivePrompt) (leaseId : String) (payload : LeaseStatsPayload) :
    ActivePrompt :=
  let valid := payload.cpuSampleValid.getD (0 < payload.cpuPercent)
  let stats := (active.leaseStatsByLease.lookup leaseId).getD .start
  let stats : LeaseResourceStats :=
    ⟨stats.sampleCount + 1, if valid then stats.cpuSampleCount + 1 else stats.cpuSampleCount,
      max stats.peakMemoryBytes payload.memoryBytes,
      if valid then some payload.cpuPercent else stats.avgCpuPercent,
      max stats.diskReadBytes payload.diskReadBytes,
      max stats.diskWriteBytes payload.diskWriteBytes⟩
  { active with
    sampleCount := active.sampleCount + 1
    leaseStatsByLease := AList.insert leaseId stats active.leaseStatsByLease
    cpuSampleCount := if valid then active.cpuSampleCount + 1 else active.cpuSampleCount
    latestCpuPercent := if valid then some payload.cpuPercent else active.latestCpuPercent
    cpuLatestByLease :=
      if valid then AList.insert leaseId payload.cpuPercent active.cpuLatestByLease
      else active.cpuLatestByLease
    peakMemoryBytes := max active.peakMemoryBytes payload.memoryBytes
    diskReadBytes := max active.diskReadBytes payload.diskReadBytes
    diskWriteBytes := max active.diskWriteBytes payload.diskWriteBytes
    leaseErrors := AList.erase leaseId active.leaseErrors }

def failures (active : ActivePrompt) (leaseId : String) : Nat :=
  Dict.getD active.leaseErrors leaseId 0 + 1

/-- A failed sample; an unknown lease, or one that failed three times, is dropped. -/
def recordError (active : ActivePrompt) (leaseId : String) (dropped : Bool) : ActivePrompt :=
  { active with
    leases := if dropped then active.leases.erase leaseId else active.leases
    leaseErrors := AList.insert leaseId (active.failures leaseId) active.leaseErrors }

end ActivePrompt

/-- New predictions for at most so many pending requests of a key. -/
def renewPredictions (dataKey : String) (prediction : ResourceVector × Bool × ℚ) :
    Nat → List PendingPrompt → List PendingPrompt
  | _, [] => []
  | 0, requests => requests
  | remaining + 1, request :: requests =>
    if request.dataKey = dataKey then
      { request with
        predicted := prediction.1
        hasHistory := prediction.2.1
        avgTotalTimeSec := prediction.2.2
        headBlockCount := 0 } :: renewPredictions dataKey prediction remaining requests
    else request :: renewPredictions dataKey prediction (remaining + 1) requests

section Lower

-- `lower` is `str.lower`
variable (lower : String → String)

/-- `_data_key_from_prompt_id`. -/
def dataKeyFromPromptId (promptId : String) : Option String :=
  match Text.find "__g" promptId with
  | none | some 0 => none
  | some i =>
    let stem := lower (Text.strip (Text.take promptId i))
    if stem = "" ∨ stem = "unknown" then none else some stem

/-- The key that a summary is recorded under. -/
def PromptResourceSummary.profileKey (summary : PromptResourceSummary) : String :=
  let dataKey := lower (Text.strip summary.dataKey)
  let repoKey := lower (Text.strip summary.repo)
  let dataKey :=
    if dataKey = "" ∨ dataKey = "unknown" ∨ (repoKey ≠ "" ∧ dataKey = repoKey) then
      (dataKeyFromPromptId lower summary.promptId).getD dataKey
    else dataKey
  if dataKey ≠ "" then dataKey
  else if summary.promptId ≠ "" then summary.promptId else summary.repo

namespace OnlineEnvDockerScheduler

/-- The request of a call, with the prediction of its key. -/
def admitPrompt (s : OnlineEnvDockerScheduler) (promptId repo dataKey : String)
    (rolloutId : Option Int) (now : ℚ) (aggregated : List (String × RepoResourceProfile)) :
    OnlineEnvDockerScheduler :=
  let (s, predicted, hasHistory, avgTotalTimeSec) := s.predictForKey dataKey aggregated
  { s with
    calls := s.calls ++ [.requested ⟨s.calls.length, promptId, repo, dataKey, rolloutId, predicted,
      avgTotalTimeSec, hasHistory, now, false, 0⟩] }

/-- The end of `admit_prompt`; an active prompt that is missing is repaired. -/
def returnTicket (s : OnlineEnvDockerScheduler) (i : Nat) (request : PendingPrompt) (now : ℚ) :
    OnlineEnvDockerScheduler :=
  match s.activePrompts.lookup request.promptId with
  | some active =>
    { s with
      calls := s.calls.set i
        (.returned ⟨request.promptId, request.repo, request.rolloutId, active.predicted⟩) }
  | none =>
    { s with
      activePrompts := AList.insert request.promptId (request.activate now) s.activePrompts
      calls := s.calls.set i
        (.returned ⟨request.promptId, request.repo, request.rolloutId, request.predicted⟩) }

def setActive (s : OnlineEnvDockerScheduler) (promptId : String) (active : ActivePrompt) :
    OnlineEnvDockerScheduler :=
  { s with activePrompts := AList.insert promptId active s.activePrompts }

/-- `attach_lease`. -/
def attachLease (s : OnlineEnvDockerScheduler) (promptId leaseId : String) :
    OnlineEnvDockerScheduler :=
  if s.config.disableLiveStatsPolling ∨ leaseId = "" then s
  else
    match s.activePrompts.lookup promptId with
    | none => s
    | some active =>
      { s.setActive promptId (active.addLease leaseId) with
        leaseToPrompt := AList.insert leaseId promptId s.leaseToPrompt }

/-- `detach_lease`. -/
def detachLease (s : OnlineEnvDockerScheduler) (leaseId : String) : OnlineEnvDockerScheduler :=
  if s.config.disableLiveStatsPolling ∨ leaseId = "" then s
  else
    match s.leaseToPrompt.lookup leaseId with
    | none => s
    | some promptId =>
      let detached := { s with leaseToPrompt := AList.erase leaseId s.leaseToPrompt }
      match s.activePrompts.lookup promptId with
      | none => detached
      | some active => detached.setActive promptId (active.discardLease leaseId)

/-- `_record_lease_stats_payload`. -/
def recordLeaseStatsPayload (s : OnlineEnvDockerScheduler) (leaseId promptId : String)
    (payload : LeaseStatsPayload) : OnlineEnvDockerScheduler :=
  match s.activePrompts.lookup promptId with
  | none => s
  | some active => s.setActive promptId (active.record leaseId payload)

/-- `_record_lease_stats_error`. -/
def recordLeaseStatsError (s : OnlineEnvDockerScheduler) (leaseId promptId : String)
    (isUnknownLease : Bool) : OnlineEnvDockerScheduler :=
  match s.activePrompts.lookup promptId with
  | none => s
  | some active =>
    let dropped := isUnknownLease || 3 ≤ active.failures leaseId
    { s.setActive promptId (active.recordError leaseId dropped) with
      leaseToPrompt :=
        if dropped then AList.erase leaseId s.leaseToPrompt else s.leaseToPrompt }

/-- `_update_repo_profile_unlocked`. -/
def updateRepoProfile (s : OnlineEnvDockerScheduler) (summary : PromptResourceSummary) :
    OnlineEnvDockerScheduler :=
  let key := summary.profileKey lower
  let profile := (s.repoResourceStats.lookup key).getD .start
  { s with repoResourceStats := AList.insert key (profile.update summary) s.repoResourceStats }

/-- `_refresh_pending_predictions_for_key_unlocked`. -/
def refreshPendingPredictionsForKey (s : OnlineEnvDockerScheduler) (dataKey : String)
    (aggregated : List (String × RepoResourceProfile)) : OnlineEnvDockerScheduler :=
  let (s, prediction) := s.predictForKey dataKey aggregated
  { s with
    pending := renewPredictions dataKey prediction
      (max 1 s.config.maxRequestsPerResourceUpdate).toNat s.pending }

/-- The first part of `finish_prompt`: the prompt gives back its reservation. -/
def release (s : OnlineEnvDockerScheduler) (promptId : String) (active : ActivePrompt) :
    OnlineEnvDockerScheduler :=
  { s with
    activePrompts := AList.erase promptId s.activePrompts
    leaseToPrompt := active.leases.foldl (fun leases l => AList.erase l leases) s.leaseToPrompt
    activePredicted := s.activePredicted.minus active.predicted }

/-- `finish_prompt`. -/
def finishPrompt (s : OnlineEnvDockerScheduler) (promptId : String) (now : ℚ)
    (aggregated : List (String × RepoResourceProfile)) : OnlineEnvDockerScheduler :=
  match s.activePrompts.lookup promptId with
  | none => s
  | some active =>
    let released := s.release promptId active
    let updated :=
      if s.config.enableLiveProfileUpdates then
        (released.updateRepoProfile lower
          (active.summary promptId now)).refreshPendingPredictionsForKey active.dataKey aggregated
      else released
    { updated with admittedSinceResourceRefresh := 0 }

/-- A report of the server; what it leaves out stays. -/
def refreshServer (s : OnlineEnvDockerScheduler) (reported : ServerResources) :
    OnlineEnvDockerScheduler :=
  let latest := fun (new old : Option ℚ) => (new.map (max 0)) <|> old
  { s with
    server :=
      ⟨latest reported.memoryAvailableBytes s.server.memoryAvailableBytes,
        latest reported.cpuAvailablePercent s.server.cpuAvailablePercent,
        latest reported.diskReadAvailableBps s.server.diskReadAvailableBps,
        latest reported.diskWriteAvailableBps s.server.diskWriteAvailableBps⟩ }

/-- The loop of `admit_prompt` takes an admission pass and then looks for its own request;
here these are steps of their own. -/
def next (s : OnlineEnvDockerScheduler) : SchedulerAction → Option OnlineEnvDockerScheduler
  | .admitPrompt iid groupIndex sampleIndex rolloutId suffix repo dataKey now aggregated =>
    some (s.admitPrompt (buildPromptId iid groupIndex sampleIndex suffix) repo dataKey rolloutId now
      aggregated)
  | .enqueue i =>
    match s.calls[i]? with
    | some (.requested request) =>
      some { s with pending := s.pending ++ [request], calls := s.calls.set i .waiting }
    | _ => none
  | .admissionPass now fuel => (s.admitNext now fuel).map (·.1)
  | .returnTicket i now => ((s.calls[i]?).bind (·.admitted?)).map (s.returnTicket i · now)
  | .cancelAdmit i =>
    match s.calls[i]? with
    | none | some (.returned _) | some .cancelled => none
    | _ => some { s with calls := s.calls.set i .cancelled }
  | .attachLease promptId leaseId => some (s.attachLease promptId leaseId)
  | .detachLease leaseId => some (s.detachLease leaseId)
  | .finishPrompt promptId now aggregated => some (s.finishPrompt lower promptId now aggregated)
  | .recordLeaseStatsPayload leaseId promptId payload =>
    some (s.recordLeaseStatsPayload leaseId promptId payload)
  | .recordLeaseStatsError leaseId promptId isUnknownLease =>
    some (s.recordLeaseStatsError leaseId promptId isUnknownLease)
  | .refreshResourceProfiles aggregated => some (s.refreshResourceProfiles aggregated)
  | .recordPromptSummary summary => some (s.updateRepoProfile lower summary)
  | .refreshServer reported => some (s.refreshServer reported)
  | .resetAdmissionWindow => some { s with admittedSinceResourceRefresh := 0 }

end OnlineEnvDockerScheduler

end Lower

end Belayer.Scheduler
