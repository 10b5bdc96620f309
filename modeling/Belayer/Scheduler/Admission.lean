import Belayer.Scheduler.OnlineEnvDockerScheduler

namespace Belayer.Scheduler

open Belayer.Framework

namespace AdmitCall

/-- A call hears of the admission if it still waits. -/
def grant (request : PendingPrompt) : AdmitCall → AdmitCall
  | .waiting => .admitted { request with admitted := true }
  | call => call

def admitted? : AdmitCall → Option PendingPrompt
  | .admitted request => some request
  | _ => none

end AdmitCall

namespace OnlineEnvDockerScheduler

def numActive (s : OnlineEnvDockerScheduler) : Nat := Dict.count s.activePrompts fun _ => true

def activeUnknown (s : OnlineEnvDockerScheduler) : Nat :=
  Dict.count s.activePrompts fun active => !active.hasHistory

/-- `_startup_active_cap_unlocked`; 0 is no cap. -/
def startupActiveCap (s : OnlineEnvDockerScheduler) (now : ℚ) : Int :=
  let duration := max 0 s.config.startupCapDurationSec
  if s.config.startupMaxActivePrompts ≤ 0 ∨ duration ≤ 0 then 0
  else if now - s.schedulerStartTs ≤ duration then s.config.startupMaxActivePrompts else 0

/-- A cap of zero is off. -/
def isReached (cap : Int) (count : Nat) : Bool := 0 < cap && cap ≤ count

/-- A cap on admissions is reached. -/
def isClosed (s : OnlineEnvDockerScheduler) (now : ℚ) : Bool :=
  isReached (max 0 s.config.maxRequestsPerResourceUpdate) s.admittedSinceResourceRefresh ||
    isReached (max 0 s.config.maxActivePrompts) s.numActive ||
    isReached (s.startupActiveCap now) s.numActive

/-- The cap on unknown prompts keeps a request back. -/
def isHeldBack (s : OnlineEnvDockerScheduler) (request : PendingPrompt) : Bool :=
  !request.hasHistory && isReached s.config.maxUnknownRepoConcurrency s.activeUnknown

/-- `_fits`. -/
def fits (s : OnlineEnvDockerScheduler) (request budget : ResourceVector) : Bool :=
  s.activeForBudget.plus request ≤ budget

/-- `_is_oversized`. -/
def isOversized (request budget : ResourceVector) : Bool := ¬request ≤ budget

/-- A request that is too large for the budget is forced when nothing is active. -/
def isForced (s : OnlineEnvDockerScheduler) (request budget : ResourceVector) : Bool :=
  s.activeForBudget = 0 && isOversized request budget

def fill (need room : ℚ) : ℚ := need / max 1 room

/-- `_packing_score`. -/
def packingScore (now : ℚ) (residual budget : ResourceVector) (request : PendingPrompt) : ℚ :=
  let p := request.predicted
  let dom := max (max (max (fill p.memoryBytes budget.memoryBytes)
    (fill p.cpuPercent budget.cpuPercent)) (fill p.diskReadBytes budget.diskReadBytes))
    (fill p.diskWriteBytes budget.diskWriteBytes)
  let ageBonus := min 1 (max 0 ((now - request.createdAt) / 20))
  fill p.memoryBytes residual.memoryBytes + fill p.cpuPercent residual.cpuPercent +
    fill p.diskReadBytes residual.diskReadBytes + fill p.diskWriteBytes residual.diskWriteBytes +
    6 / 10 * dom + 4 / 10 * ageBonus

/-- The best candidate, or the oldest of those to be forced when there is no candidate. -/
def choose (s : OnlineEnvDockerScheduler) (now : ℚ) : Option PendingPrompt :=
  let budget := s.effectiveBudget
  let residual := budget.minus s.activeForBudget
  let eligible := s.pending.filter fun request => !s.isHeldBack request
  let candidates := eligible.filter fun request => s.fits request.predicted budget
  let oversizedWaiting := eligible.filter fun request =>
    !s.fits request.predicted budget && s.isForced request.predicted budget
  if candidates = [] then oversizedWaiting.argmin (·.createdAt)
  else candidates.argmax (packingScore now residual budget)

/-- `_mark_admitted`. -/
def markAdmitted (s : OnlineEnvDockerScheduler) (request : PendingPrompt) (now : ℚ) :
    OnlineEnvDockerScheduler :=
  if request.admitted then s
  else
    { s with
      pending := s.pending.filter (·.promptId ≠ request.promptId)
      activePredicted := s.activePredicted.plus request.predicted
      activePrompts := AList.insert request.promptId (request.activate now) s.activePrompts
      admittedSinceResourceRefresh := s.admittedSinceResourceRefresh + 1
      calls := s.calls.modify request.call (AdmitCall.grant request) }

/-- `_defer_head_request_unlocked`. -/
def deferHead (head : PendingPrompt) (rest : List PendingPrompt) (offset : Int) :
    List PendingPrompt :=
  rest.insertIdx (min (max 1 offset).toNat rest.length) { head with headBlockCount := 0 }

/-- `_admit_head_of_line_unlocked`; `none` when the fuel does not suffice. -/
def admitHeadOfLine (s : OnlineEnvDockerScheduler) (now : ℚ) :
    Nat → Option (OnlineEnvDockerScheduler × Option PendingPrompt)
  | 0 => none
  | fuel + 1 =>
    match s.pending with
    | [] => some (s, none)
    | head :: rest =>
      let budget := s.effectiveBudget
      if s.isHeldBack head then some (s, none)
      else if s.fits head.predicted budget || s.isForced head.predicted budget then
        let head := { head with headBlockCount := 0 }
        some (markAdmitted { s with pending := head :: rest } head now, some head)
      else
        let head := { head with headBlockCount := head.headBlockCount + 1 }
        let threshold := max 0 s.config.headBlockRequeueThreshold
        if 0 < threshold ∧ threshold ≤ head.headBlockCount ∧ rest ≠ [] then
          admitHeadOfLine
            { s with
              pending := deferHead head rest (max 1 s.config.headBlockRequeueOffset) } now fuel
        else some ({ s with pending := head :: rest }, none)

/-- `_admit_next_unlocked`, at one reading of the clock. -/
def admitNext (s : OnlineEnvDockerScheduler) (now : ℚ) (fuel : Nat) :
    Option (OnlineEnvDockerScheduler × Option PendingPrompt) :=
  if s.pending = [] ∨ s.isClosed now then some (s, none)
  else if s.config.preservePromptOrder then s.admitHeadOfLine now fuel
  else
    match s.choose now with
    | none => some (s, none)
    | some request => some (s.markAdmitted request now, some request)

end OnlineEnvDockerScheduler

/-- A request apart from its count of blocks. -/
def PendingPrompt.unblocked (request : PendingPrompt) : PendingPrompt :=
  { request with headBlockCount := 0 }

/-- The queue holds the same requests, with other counts of blocks. -/
def Requeued (pending pending' : List PendingPrompt) : Prop :=
  (pending'.map PendingPrompt.unblocked).Perm (pending.map PendingPrompt.unblocked)

theorem Requeued.refl {pending : List PendingPrompt} : Requeued pending pending := List.Perm.refl _

theorem Requeued.trans {p q r : List PendingPrompt} (hpq : Requeued p q) (hqr : Requeued q r) :
    Requeued p r :=
  List.Perm.trans hqr hpq

/-- A new count for the head. -/
theorem requeued_head {head : PendingPrompt} {rest : List PendingPrompt} {count : Int} :
    Requeued (head :: rest) ({ head with headBlockCount := count } :: rest) :=
  List.Perm.refl _

theorem requeued_defer {head : PendingPrompt} {rest : List PendingPrompt} {offset : Int} :
    Requeued (head :: rest) (OnlineEnvDockerScheduler.deferHead head rest offset) :=
  (List.perm_insertIdx _ rest (min_le_right ..)).map PendingPrompt.unblocked

theorem Requeued.exists {pending pending' : List PendingPrompt} (h : Requeued pending pending')
    {r : PendingPrompt} (hr : r ∈ pending') : ∃ q ∈ pending, q.unblocked = r.unblocked :=
  List.mem_map.mp (h.subset (List.mem_map_of_mem hr))

namespace OnlineEnvDockerScheduler

variable {s s' : OnlineEnvDockerScheduler} {now : ℚ} {chosen : Option PendingPrompt}

theorem mem_of_choose {request : PendingPrompt} (h : s.choose now = some request) :
    request ∈ s.pending := by
  simp only [choose] at h
  split_ifs at h
  · exact List.mem_of_mem_filter (List.mem_of_mem_filter (List.argmin_mem h))
  · exact List.mem_of_mem_filter (List.mem_of_mem_filter (List.argmax_mem h))

/-- What a pass does: it may requeue, and then it admits a request of the queue or none. -/
def Passed (s : OnlineEnvDockerScheduler) (now : ℚ) (s' : OnlineEnvDockerScheduler)
    (chosen : Option PendingPrompt) : Prop :=
  ∃ pending, Requeued s.pending pending ∧
    (chosen = none ∧ s' = { s with pending := pending } ∨
      ∃ request ∈ pending, chosen = some request ∧
        s' = markAdmitted { s with pending := pending } request now)

theorem passed_none : s.Passed now s none := ⟨s.pending, .refl, .inl ⟨rfl, rfl⟩⟩

theorem Passed.requeued {pending : List PendingPrompt} (hp : Requeued s.pending pending)
    (h : Passed { s with pending := pending } now s' chosen) : s.Passed now s' chosen := by
  obtain ⟨pending', hp', h⟩ := h
  exact ⟨pending', hp.trans hp', h⟩

theorem passed_of_admitHeadOfLine {fuel : Nat}
    (h : s.admitHeadOfLine now fuel = some (s', chosen)) : s.Passed now s' chosen := by
  induction fuel generalizing s with
  | zero => cases h
  | succ fuel ih =>
    simp only [admitHeadOfLine] at h
    split at h
    · cases h
      exact passed_none
    · rename_i head rest hpending
      split_ifs at h
      · cases h
        exact passed_none
      · cases h
        exact ⟨_, hpending ▸ requeued_head, .inr ⟨_, List.mem_cons_self .., rfl, rfl⟩⟩
      · exact (ih h).requeued (hpending ▸ requeued_head.trans requeued_defer)
      · cases h
        exact ⟨_, hpending ▸ requeued_head, .inl ⟨rfl, rfl⟩⟩

theorem passed_of_admitNext {fuel : Nat} (h : s.admitNext now fuel = some (s', chosen)) :
    s.Passed now s' chosen := by
  unfold admitNext at h
  split_ifs at h
  · cases h
    exact passed_none
  · exact passed_of_admitHeadOfLine h
  · split at h
    · cases h
      exact passed_none
    · rename_i request hchoose
      cases h
      exact ⟨s.pending, .refl, .inr ⟨request, mem_of_choose hchoose, rfl, rfl⟩⟩

end OnlineEnvDockerScheduler

end Belayer.Scheduler
