import Belayer.Scheduler.Effects
import Mathlib.Tactic.Linarith

namespace Belayer.Scheduler.OnlineEnvDockerScheduler

open Belayer.Framework

/-- The scheduler before another report of the server and another queue. -/
def facing (s : OnlineEnvDockerScheduler) (server : ServerResources) (queue : List PendingPrompt) :
    OnlineEnvDockerScheduler :=
  { s with server := server, pending := queue }

/-- The next pass admits a request of the queue, whatever the clock says. -/
def Admits (s : OnlineEnvDockerScheduler) : Prop :=
  ∀ (now : ℚ) (fuel : Nat), ∃ request s', s.admitNext now (fuel + 1) = some (s', some request) ∧
    request.promptId ∈ s.pending.map (·.promptId) ∧ request.promptId ∈ s'.activePrompts

/-- With nothing active the next pass admits, for the queue there is and for any other. -/
def NeverStalls (s : OnlineEnvDockerScheduler) : Prop :=
  s.activePrompts = ∅ → ∀ server queue, queue ≠ [] →
    (queue = s.pending ∨ ∀ r ∈ queue, r.admitted = false) → (s.facing server queue).Admits

/-- With nothing active nothing of the reservation counts. -/
def Cleared (s : OnlineEnvDockerScheduler) : Prop :=
  s.activePrompts = ∅ → s.activeForBudget = 0

/-- The condition on a step: what the last active prompt leaves of the reservation does not
count in the budget. -/
def Clears (s : OnlineEnvDockerScheduler) : SchedulerAction → Prop
  | .finishPrompt promptId _ _ => ∀ active ∈ s.activePrompts.lookup promptId,
      AList.erase promptId s.activePrompts = ∅ →
        activeForBudget { s with activePredicted := s.activePredicted.minus active.predicted } = 0
  | _ => True

/-- The window for admissions is new whenever nothing is active. -/
def Renewed (s : OnlineEnvDockerScheduler) : Prop :=
  s.activePrompts = ∅ → s.admittedSinceResourceRefresh = 0

variable {lower : String → String} {s s' : OnlineEnvDockerScheduler} {now : ℚ}
  {server : ServerResources} {queue : List PendingPrompt}

/-- A cap, of whatever size, is not reached by nothing. -/
theorem isReached_zero (cap : Int) : isReached cap 0 = false := by
  unfold isReached
  rw [Bool.and_eq_false_iff, decide_eq_false_iff_not, decide_eq_false_iff_not]
  omega

theorem isClosed_of_idle (hidle : s.activePrompts = ∅)
    (hw : s.admittedSinceResourceRefresh = 0) : s.isClosed now = false := by
  have hactive : s.numActive = 0 := by
    rw [numActive, hidle]
    rfl
  rw [isClosed, hw, hactive, isReached_zero, isReached_zero, isReached_zero]
  rfl

theorem isHeldBack_of_idle (hidle : s.activePrompts = ∅) (request : PendingPrompt) :
    s.isHeldBack request = false := by
  have hunknown : s.activeUnknown = 0 := by
    rw [activeUnknown, hidle]
    rfl
  rw [isHeldBack, hunknown, isReached_zero, Bool.and_false]

/-- Without a reservation a request fits the budget or is too large for it. -/
theorem fits_or_isForced (h : s.activeForBudget = 0) (request budget : ResourceVector) :
    s.fits request budget ∨ s.isForced request budget := by
  have hsum : s.activeForBudget.plus request = request := by
    rw [h]
    exact zero_add request
  by_cases hle : request ≤ budget
  · left
    unfold fits
    rw [hsum]
    exact decide_eq_true hle
  · right
    unfold isForced isOversized
    rw [decide_eq_true h, decide_eq_true hle]
    rfl

theorem choose_isSome (hidle : s.activePrompts = ∅) (h : s.activeForBudget = 0)
    (hq : s.pending ≠ []) (now : ℚ) : ∃ request, s.choose now = some request := by
  have heligible : (s.pending.filter fun request => !s.isHeldBack request) = s.pending := by
    rw [List.filter_eq_self]
    intro r _
    rw [isHeldBack_of_idle hidle r]
    rfl
  simp only [choose, heligible]
  split_ifs with hcandidates
  · rw [← Option.isSome_iff_exists, ← Option.ne_none_iff_isSome, Ne, List.argmin_eq_none]
    intro hwaiting
    obtain ⟨r, hr⟩ := List.exists_mem_of_ne_nil _ hq
    rw [List.filter_eq_nil_iff] at hcandidates hwaiting
    have hfits := hcandidates r hr
    have hforced := hwaiting r hr
    rcases fits_or_isForced h r.predicted s.effectiveBudget with hf | hf
    · exact hfits hf
    · simp [hf, hfits] at hforced
  · rw [← Option.isSome_iff_exists, ← Option.ne_none_iff_isSome, Ne, List.argmax_eq_none]
    exact hcandidates

theorem mem_markAdmitted {request : PendingPrompt} (h : request.admitted = false) :
    request.promptId ∈ (s.markAdmitted request now).activePrompts := by
  rw [markAdmitted_eq h]
  exact mem_iff_lookup.mpr ⟨_, AList.lookup_insert _⟩

/-- The first request is taken at once when nothing is reserved. -/
theorem admitHeadOfLine_of_idle (hidle : s.activePrompts = ∅) (h : s.activeForBudget = 0)
    {head : PendingPrompt} {rest : List PendingPrompt} (hq : s.pending = head :: rest)
    (fuel : Nat) :
    s.admitHeadOfLine now (fuel + 1) =
      some (markAdmitted { s with pending := { head with headBlockCount := 0 } :: rest }
        { head with headBlockCount := 0 } now, some { head with headBlockCount := 0 }) := by
  have hfits : (s.fits head.predicted s.effectiveBudget ||
      s.isForced head.predicted s.effectiveBudget) = true := by
    rw [Bool.or_eq_true]
    exact fits_or_isForced h head.predicted s.effectiveBudget
  rw [admitHeadOfLine, hq]
  dsimp only
  rw [isHeldBack_of_idle hidle head, if_neg Bool.false_ne_true, if_pos hfits]

theorem admits_of_cleared (hidle : s.activePrompts = ∅) (h : s.activeForBudget = 0)
    (hw : s.admittedSinceResourceRefresh = 0) (hq : s.pending ≠ [])
    (hnew : ∀ r ∈ s.pending, r.admitted = false) : s.Admits := by
  intro now fuel
  have hopen : s.isClosed now = false := isClosed_of_idle hidle hw
  have hgo : ¬(s.pending = [] ∨ s.isClosed now = true) := by
    rw [hopen]
    simp [hq]
  unfold admitNext
  rw [if_neg hgo]
  split_ifs with horder
  · obtain ⟨head, rest, hpending⟩ := List.exists_cons_of_ne_nil hq
    have hhead : head.admitted = false := hnew head (by rw [hpending]; exact List.mem_cons_self ..)
    refine ⟨_, _, admitHeadOfLine_of_idle hidle h hpending fuel, ?_, mem_markAdmitted hhead⟩
    rw [hpending]
    exact List.mem_cons_self ..
  · obtain ⟨request, hchoose⟩ := choose_isSome hidle h hq now
    have hmem : request ∈ s.pending := mem_of_choose hchoose
    rw [hchoose]
    exact ⟨request, _, rfl, List.mem_map_of_mem hmem, mem_markAdmitted (hnew request hmem)⟩

/-- A request of a given need and nothing else. -/
def blockedRequest (predicted : ResourceVector) : PendingPrompt :=
  ⟨0, "", "", "", none, predicted, 0, true, 0, false, 0⟩

/-- More memory than the budget has, with what is reserved and without. -/
def excess (s : OnlineEnvDockerScheduler) : ResourceVector :=
  ⟨max s.effectiveBudget.memoryBytes
    (s.effectiveBudget.memoryBytes - s.activeForBudget.memoryBytes) + 1, 0, 0, 0⟩

theorem fits_excess : s.fits s.excess s.effectiveBudget = false := by
  unfold fits
  rw [decide_eq_false_iff_not]
  rintro ⟨hmemory, -⟩
  have hle : s.activeForBudget.memoryBytes + s.excess.memoryBytes ≤ s.effectiveBudget.memoryBytes :=
    hmemory
  have hmax := le_max_right s.effectiveBudget.memoryBytes
    (s.effectiveBudget.memoryBytes - s.activeForBudget.memoryBytes)
  unfold excess at hle
  linarith

/-- While something counts as reserved, a large enough request is neither taken nor forced. -/
theorem not_admits_of_reserved (h : s.activeForBudget ≠ 0) :
    ¬(s.facing s.server [blockedRequest s.excess]).Admits := by
  intro hadmits
  obtain ⟨request, s', hpass, -, -⟩ := hadmits 0 0
  have hforced : s.isForced s.excess s.effectiveBudget = false := by
    unfold isForced
    rw [decide_eq_false h, Bool.false_and]
  obtain ⟨-, -, hchecked⟩ := granted_of_admitNext hpass
  obtain ⟨pending, hq, ⟨hnone, -⟩ | ⟨r, hr, hchosen, -⟩⟩ := passed_of_admitNext hpass
  · cases hnone
  · cases hchosen
    obtain ⟨q, hmem, he⟩ := hq.exists hr
    rw [List.mem_singleton.mp hmem] at he
    have hneed : request.predicted = s.excess := congrArg PendingPrompt.predicted he.symm
    rw [hneed] at hchecked
    rcases hchecked with hfits | hf
    · exact Bool.false_ne_true (fits_excess.symm.trans hfits)
    · exact Bool.false_ne_true (hforced.symm.trans hf)

/-- Nothing stalls exactly when nothing is left of the reservation. -/
theorem neverStalls_iff_cleared (hm : s.Stored fun _ => True) (hw : s.Renewed) :
    s.NeverStalls ↔ s.Cleared := by
  constructor
  · intro h hidle
    by_contra hreserved
    refine not_admits_of_reserved hreserved
      (h hidle s.server [blockedRequest s.excess] (List.cons_ne_nil _ _) (.inr ?_))
    intro r hr
    rw [List.mem_singleton.mp hr]
    rfl
  · intro h hidle server queue hq hnew
    have hadmitted : ∀ r ∈ queue, r.admitted = false := by
      rcases hnew with rfl | hnew
      · exact fun r hr => (hm.pending r hr).2
      · exact hnew
    exact admits_of_cleared (s := s.facing server queue) hidle (h hidle) (hw hidle) hq hadmitted

/-- A step that keeps the active prompts keeps none if there were none. -/
theorem Kept.idle (h : s.Kept s') (hidle : s'.activePrompts = ∅) : s.activePrompts = ∅ := by
  rcases h.activePrompts with he | ⟨promptId, active, active', -, -, he⟩
  · exact he.symm.trans hidle
  · exact absurd (he.symm.trans hidle) (Dict.insert_ne_empty s.activePrompts promptId active')

theorem Starts.not_idle {request : PendingPrompt} (h : s.Starts s' request now) :
    s'.activePrompts ≠ ∅ := by
  rw [h.activePrompts]
  exact Dict.insert_ne_empty s.activePrompts request.promptId (request.activate now)

/-- The budget counts the reservation as the configuration says, and nothing else. -/
theorem activeForBudget_congr (hc : s'.config = s.config)
    (hp : s'.activePredicted = s.activePredicted) : s'.activeForBudget = s.activeForBudget := by
  unfold activeForBudget
  rw [hc, hp]

theorem Renewed.next (hw : s.Renewed) {a : SchedulerAction} (hmoves : s.Moves s' a) :
    s'.Renewed := by
  intro hidle
  cases hmoves with
  | kept h =>
    have hzero : s.admittedSinceResourceRefresh = 0 := hw (h.idle hidle)
    rcases h.admitted with he | he
    · exact he.trans hzero
    · exact he
  | admitted _ _ hs => exact absurd hidle hs.not_idle
  | repaired _ _ hs => exact absurd hidle hs.not_idle
  | released _ _ _ _ hzero => exact hzero

/-- A step leaves nothing reserved just when it clears the reservation. -/
theorem cleared_next_iff (h : s.Cleared) {a : SchedulerAction} (hmoves : s.Moves s' a) :
    s'.Cleared ↔ s.Clears a := by
  cases hmoves with
  | kept hk hmiss =>
    have hkept : s'.Cleared := by
      intro hidle
      rw [activeForBudget_congr hk.config hk.activePredicted]
      exact h (hk.idle hidle)
    refine iff_of_true hkept ?_
    cases a with
    | finishPrompt promptId =>
      intro active hactive
      rw [AList.lookup_eq_none.mpr hmiss] at hactive
      cases hactive
    | _ => trivial
  | admitted _ _ hs => exact iff_of_true (fun hidle => absurd hidle hs.not_idle) trivial
  | repaired _ _ hs => exact iff_of_true (fun hidle => absurd hidle hs.not_idle) trivial
  | released hl hc ha hp _ =>
    have hbudget : s'.activeForBudget = activeForBudget
        { s with activePredicted := s.activePredicted.minus _ } := activeForBudget_congr hc hp
    unfold Cleared
    rw [ha, hbudget]
    constructor
    · intro hc' active hactive
      rw [Option.mem_def, hl] at hactive
      cases hactive
      exact hc'
    · intro hc'
      exact hc' _ hl

theorem activeForBudget_init {config : SchedulerConfig}
    {repoResourceStats : Dict String RepoResourceProfile} {schedulerStartTs : ℚ} :
    (init config repoResourceStats schedulerStartTs).activeForBudget = 0 := by
  have hscaled : scaledActive config 0 = 0 := by
    have hzero : ∀ d : ℚ, max 0 (0 * d) = 0 := by
      intro d
      rw [zero_mul, max_self]
    unfold scaledActive
    dsimp only
    split_ifs
    · rfl
    · exact ResourceVector.ext (hzero _) (hzero _) (hzero _) (hzero _)
  unfold activeForBudget
  simp only [init, hscaled, ite_self]

/-- Nothing stalls all along a run exactly when all its steps clear the reservation. -/
theorem neverStalls_iff_clears (lower : String → String) (config : SchedulerConfig)
    (repoResourceStats : Dict String RepoResourceProfile) (schedulerStartTs : ℚ)
    (run : List SchedulerAction) :
    Along (next lower) NeverStalls (init config repoResourceStats schedulerStartTs) run ↔
      Meets (next lower) Clears (init config repoResourceStats schedulerStartTs) run := by
  refine along_iff_meets (H := fun _ _ => True)
    (I := fun s => (s.Stored fun _ => True) ∧ s.Renewed) ?_ ?_ ⟨?_, fun _ => rfl⟩ ?_
    (meets_of_forall (fun _ _ => trivial) _ _)
  · intro s a s' hi _ hn
    exact ⟨hi.1.next hn, hi.2.next (moves_of_next hi.1 hn)⟩
  · intro s a s' hi hs _ hn
    have hmoves : s.Moves s' a := moves_of_next hi.1 hn
    have hcleared : s.Cleared := (neverStalls_iff_cleared hi.1 hi.2).mp hs
    rw [neverStalls_iff_cleared (hi.1.next hn) (hi.2.next hmoves)]
    exact cleared_next_iff hcleared hmoves
  · exact init_stored fun _ => trivial
  · rw [neverStalls_iff_cleared (init_stored fun _ => trivial) fun _ => rfl]
    exact fun _ => activeForBudget_init

/-- The memory of the server counts, and a prompt without history needs two units of it. -/
def measuredConfig (preservePromptOrder : Bool) : SchedulerConfig :=
  { openConfig (-1) with
    defaultMemoryBytes := 2
    useRealtimeServerMemory := true
    preservePromptOrder := preservePromptOrder }

/-- Two prompts with a negative need for disk reads run next to each other; then the server
has less memory than a third one needs. -/
def leftoverRun : List SchedulerAction :=
  [.refreshServer ⟨some 10, none, none, none⟩] ++ admittedRun 0 "x" ++ admittedRun 1 "y" ++
    [.finishPrompt "a__b-1__g0__i0__x" 0 [], .finishPrompt "a__b-1__g0__i0__y" 0 [],
      .refreshServer ⟨some 1, none, none, none⟩] ++ (admittedRun 2 "z").take 2

/-- Nothing is active, a prompt is pending, and the pass admits none, in either order. -/
theorem neverStalls_fails : [false, true].Forall fun preservePromptOrder =>
    ∃ s ∈ exec (next String.toLower) (init (measuredConfig preservePromptOrder) ∅ 0) leftoverRun,
      s.activePrompts = ∅ ∧ s.pending ≠ [] ∧ (s.admitNext 0 1).map (·.2) = some none := by
  decide +kernel

end Belayer.Scheduler.OnlineEnvDockerScheduler
