import Belayer.Scheduler.Idle

namespace Belayer.Scheduler.OnlineEnvDockerScheduler

open Belayer.Framework

/-- The caps on active prompts and on those without history. -/
structure Capped (s : OnlineEnvDockerScheduler) (now : ℚ) : Prop where
  active : 0 < s.config.maxActivePrompts → (s.numActive : Int) ≤ s.config.maxActivePrompts
  startup : 0 < s.startupActiveCap now → (s.numActive : Int) ≤ s.startupActiveCap now
  unknown : 0 < s.config.maxUnknownRepoConcurrency →
    (s.activeUnknown : Int) ≤ s.config.maxUnknownRepoConcurrency

/-- What a pass admits next to active prompts fits the budget with them and keeps the caps;
what does not fit is admitted only when nothing is active. -/
def WithinBudget (s : OnlineEnvDockerScheduler) : Prop :=
  ∀ now fuel s' request, s.admitNext now fuel = some (s', some request) →
    (s.activePrompts ≠ ∅ →
      s.activeForBudget + request.predicted ≤ s.effectiveBudget ∧ s'.Capped now) ∧
    (¬s.activeForBudget + request.predicted ≤ s.effectiveBudget → s.activePrompts = ∅)

/-- The condition on a step: what remains active keeps a reservation that counts, and so does
what a repair makes active, for which there is room under the cap. -/
def Backs (s : OnlineEnvDockerScheduler) : SchedulerAction → Prop
  | .finishPrompt promptId _ _ => ∀ active ∈ s.activePrompts.lookup promptId,
      AList.erase promptId s.activePrompts ≠ ∅ →
        activeForBudget { s with activePredicted := s.activePredicted.minus active.predicted } ≠ 0
  | .returnTicket i _ => ∀ call ∈ s.calls[i]?, ∀ request ∈ call.admitted?,
      request.promptId ∉ s.activePrompts → s.activeForBudget ≠ 0 ∧ s.isHeldBack request = false
  | _ => True

instance (s : OnlineEnvDockerScheduler) : ∀ a, Decidable (s.Backs a)
  | .finishPrompt promptId _ _ => inferInstanceAs (Decidable (∀ active ∈
      s.activePrompts.lookup promptId, AList.erase promptId s.activePrompts ≠ ∅ →
        activeForBudget { s with activePredicted := s.activePredicted.minus active.predicted } ≠
          0))
  | .returnTicket i _ => inferInstanceAs (Decidable (∀ call ∈ s.calls[i]?,
      ∀ request ∈ call.admitted?, request.promptId ∉ s.activePrompts →
        s.activeForBudget ≠ 0 ∧ s.isHeldBack request = false))
  | .admitPrompt _ _ _ _ _ _ _ _ _ | .enqueue _ | .admissionPass _ _ | .cancelAdmit _
  | .attachLease _ _ | .detachLease _ | .recordLeaseStatsPayload _ _ _
  | .recordLeaseStatsError _ _ _ | .refreshResourceProfiles _ | .recordPromptSummary _
  | .refreshServer _ | .resetAdmissionWindow => .isTrue trivial

/-- Something active means that something counts as reserved. -/
structure Backed (s : OnlineEnvDockerScheduler) : Prop where
  discount : 0 < s.config.realtimeLocalActiveDiscount
  memory : 0 ≤ s.activePredicted.memoryBytes
  reserved : s.activePrompts ≠ ∅ → s.activeForBudget ≠ 0
  unknown : 0 < s.config.maxUnknownRepoConcurrency →
    (s.activeUnknown : Int) ≤ s.config.maxUnknownRepoConcurrency

variable {lower : String → String} {P : ResourceVector → Prop} {s s' : OnlineEnvDockerScheduler}
  {now : ℚ}
  {request : PendingPrompt}

theorem lt_of_not_isReached {cap : Int} {count : Nat} (h : isReached cap count = false)
    (hcap : 0 < cap) : (count : Int) < cap := by
  unfold isReached at h
  rw [Bool.and_eq_false_iff, decide_eq_false_iff_not, decide_eq_false_iff_not] at h
  omega

/-- A reservation of memory counts. -/
theorem activeForBudget_ne_zero (hd : 0 < s.config.realtimeLocalActiveDiscount)
    (hm : 0 < s.activePredicted.memoryBytes) : s.activeForBudget ≠ 0 := by
  intro h
  have hzero : s.activeForBudget.memoryBytes = 0 := congrArg ResourceVector.memoryBytes h
  have hscaled : 0 < (scaledActive s.config s.activePredicted).memoryBytes := by
    unfold scaledActive
    dsimp only
    split_ifs
    · exact hm
    · have hdiscount : 0 < max 0 s.config.realtimeLocalActiveDiscount :=
        hd.trans_le (le_max_right _ _)
      exact (mul_pos hm hdiscount).trans_le (le_max_right _ _)
  unfold activeForBudget at hzero
  dsimp only at hzero
  split_ifs at hzero
  · exact hscaled.ne' hzero
  · exact hm.ne' hzero

theorem Starts.numActive_le (h : s.Starts s' request now) : s'.numActive ≤ s.numActive + 1 := by
  have herase := Dict.count_erase_le s.activePrompts request.promptId fun _ => true
  unfold numActive
  rw [h.activePrompts, Dict.count_insert]
  exact Nat.add_le_add_right herase 1

theorem Starts.activeUnknown_le (h : s.Starts s' request now) :
    s'.activeUnknown ≤ s.activeUnknown + (!request.hasHistory).toNat := by
  have herase := Dict.count_erase_le s.activePrompts request.promptId
    fun active => !active.hasHistory
  unfold activeUnknown
  rw [h.activePrompts, Dict.count_insert]
  exact Nat.add_le_add_right herase _

/-- A request that is not held back leaves the cap on unknown prompts kept. -/
theorem Starts.unknown_le (h : s.Starts s' request now) (hheld : s.isHeldBack request = false)
    (hunknown : 0 < s.config.maxUnknownRepoConcurrency →
      (s.activeUnknown : Int) ≤ s.config.maxUnknownRepoConcurrency)
    (hcap : 0 < s'.config.maxUnknownRepoConcurrency) :
    (s'.activeUnknown : Int) ≤ s'.config.maxUnknownRepoConcurrency := by
  rw [h.config] at hcap ⊢
  have hle := h.activeUnknown_le
  cases hhistory : request.hasHistory with
  | true =>
    rw [hhistory] at hle
    have hkept := hunknown hcap
    simp only [Bool.not_true, Bool.toNat_false] at hle
    omega
  | false =>
    rw [isHeldBack, hhistory, Bool.not_false, Bool.true_and] at hheld
    have hroom := lt_of_not_isReached hheld hcap
    rw [hhistory] at hle
    simp only [Bool.not_false, Bool.toNat_true] at hle
    omega

/-- An admission under open caps keeps them. -/
theorem Starts.capped (h : s.Starts s' request now) (hg : s.Granted now request)
    (hunknown : 0 < s.config.maxUnknownRepoConcurrency →
      (s.activeUnknown : Int) ≤ s.config.maxUnknownRepoConcurrency) : s'.Capped now := by
  have hopen := hg.isOpen
  unfold isClosed at hopen
  rw [Bool.or_eq_false_iff, Bool.or_eq_false_iff] at hopen
  obtain ⟨⟨-, hactive⟩, hstartup⟩ := hopen
  have hcount := h.numActive_le
  have hcap : s'.startupActiveCap now = s.startupActiveCap now := by
    unfold startupActiveCap
    rw [h.config, h.schedulerStartTs]
  refine ⟨?_, ?_, h.unknown_le hg.released hunknown⟩
  · intro hpos
    rw [h.config] at hpos ⊢
    rw [max_eq_right hpos.le] at hactive
    have hroom := lt_of_not_isReached hactive hpos
    omega
  · intro hpos
    rw [hcap] at hpos ⊢
    have hroom := lt_of_not_isReached hstartup hpos
    omega

theorem Backed.withinBudget (h : s.Backed) (hm : s.Stored P) : s.WithinBudget := by
  intro now fuel s' request hpass
  have hgranted : s.Granted now request := granted_of_admitNext hpass
  have hfits : s.activePrompts ≠ ∅ →
      s.activeForBudget + request.predicted ≤ s.effectiveBudget := by
    intro hactive
    rcases hgranted.fits with hf | hforced
    · exact of_decide_eq_true hf
    · unfold isForced at hforced
      rw [decide_eq_false (h.reserved hactive), Bool.false_and] at hforced
      exact absurd hforced Bool.false_ne_true
  refine ⟨fun hactive => ⟨hfits hactive, ?_⟩, fun hlarge => ?_⟩
  · obtain ⟨hstarts, -⟩ := starts_of_admitNext hm hpass
    exact hstarts.capped hgranted h.unknown
  · by_contra hactive
    exact hlarge (hfits hactive)

theorem Kept.activeUnknown (h : s.Kept s') : s'.activeUnknown = s.activeUnknown := by
  unfold OnlineEnvDockerScheduler.activeUnknown
  rcases h.activePrompts with he | ⟨promptId, active, active', hl, hhistory, he⟩
  · rw [he]
  · rw [he, Dict.count_replace hl (by rw [hhistory])]

theorem Kept.backed (hk : s.Kept s') (h : s.Backed) : s'.Backed := by
  refine ⟨?_, ?_, ?_, ?_⟩
  · rw [hk.config]
    exact h.discount
  · rw [hk.activePredicted]
    exact h.memory
  · intro hactive
    rw [activeForBudget_congr hk.config hk.activePredicted]
    refine h.reserved fun hidle => hactive ?_
    rcases hk.activePrompts with he | ⟨promptId, active, active', hl, -, -⟩
    · exact he.trans hidle
    · rw [hidle, AList.lookup_empty] at hl
      cases hl
  · rw [hk.config, hk.activeUnknown]
    exact h.unknown

theorem Backed.next (h : s.Backed) (hm : s.Stored (0 < ·.memoryBytes)) {a : SchedulerAction}
    (hg : s.Backs a) (hmoves : s.Moves s' a) : s'.Backed := by
  cases hmoves with
  | kept hk => exact hk.backed h
  | @admitted now fuel request hpass hgranted hstarts hpredicted =>
    have hneed : 0 < request.predicted.memoryBytes := (hm.admitted hpass).1
    have hmemory : s'.activePredicted.memoryBytes =
        s.activePredicted.memoryBytes + request.predicted.memoryBytes :=
      congrArg ResourceVector.memoryBytes hpredicted
    have hpos : 0 < s'.activePredicted.memoryBytes := by
      rw [hmemory]
      exact add_pos_of_nonneg_of_pos h.memory hneed
    have hdiscount : 0 < s'.config.realtimeLocalActiveDiscount := by
      rw [hstarts.config]
      exact h.discount
    exact ⟨hdiscount, hpos.le, fun _ => activeForBudget_ne_zero hdiscount hpos,
      hstarts.unknown_le hgranted.released h.unknown⟩
  | @repaired i now request hi hl hstarts hpredicted =>
    obtain ⟨hreserved, hheld⟩ := hg _ hi request rfl hl
    refine ⟨?_, ?_, ?_, hstarts.unknown_le hheld h.unknown⟩
    · rw [hstarts.config]
      exact h.discount
    · rw [hpredicted]
      exact h.memory
    · intro _
      rw [activeForBudget_congr hstarts.config hpredicted]
      exact hreserved
  | @released promptId now aggregated active hl hc ha hp _ =>
    refine ⟨?_, ?_, ?_, ?_⟩
    · rw [hc]
      exact h.discount
    · rw [hp]
      exact le_max_left _ _
    · intro hactive
      have hbudget : s'.activeForBudget = activeForBudget
          { s with activePredicted := s.activePredicted.minus active.predicted } :=
        activeForBudget_congr hc hp
      rw [ha] at hactive
      rw [hbudget]
      exact hg active hl hactive
    · intro hcap
      rw [hc] at hcap ⊢
      have hkept := h.unknown hcap
      have hle : s'.activeUnknown ≤ s.activeUnknown := by
        unfold activeUnknown
        rw [ha]
        exact Dict.count_erase_le ..
      omega

/-- Under a positive discount every admission of a run keeps the budget and the caps, when its
steps leave something reserved while something is active. -/
theorem withinBudget_of_backs (lower : String → String) {config : SchedulerConfig}
    (hdiscount : 0 < config.realtimeLocalActiveDiscount)
    (repoResourceStats : Dict String RepoResourceProfile) (schedulerStartTs : ℚ)
    (run : List SchedulerAction)
    (h : Meets (next lower) Backs (init config repoResourceStats schedulerStartTs) run) :
    Along (next lower) WithinBudget (init config repoResourceStats schedulerStartTs) run := by
  have hinit : (init config repoResourceStats schedulerStartTs).Backed := by
    refine ⟨hdiscount, le_rfl, fun hactive => absurd rfl hactive, ?_⟩
    exact fun hcap => hcap.le
  have hstored : (init config repoResourceStats schedulerStartTs).Stored (0 < ·.memoryBytes) :=
    init_stored fun profile => zero_lt_one.trans_le (config.one_le_memory_predict profile)
  have hinvariant := along_of_meets
    (I := fun s : OnlineEnvDockerScheduler => s.Backed ∧ s.Stored (0 < ·.memoryBytes))
    (fun s a s' hi hg hn => ⟨hi.1.next hi.2 hg (moves_of_next hi.2 hn), hi.2.next hn⟩)
    ⟨hinit, hstored⟩ h
  exact hinvariant.mono fun s hi => hi.1.withinBudget hi.2

/-- One prompt finishes while another one is active. -/
theorem withinBudget_of_backs_sharedRun :
    Along (next String.toLower) WithinBudget (init (openConfig 1) ∅ 0)
      (admittedRun 0 "x" ++ admittedRun 1 "y" ++ [.finishPrompt "a__b-1__g0__i0__x" 0 []]) :=
  withinBudget_of_backs String.toLower (by decide +kernel) ∅ 0 _ (by decide +kernel)

/-- The memory of the server counts, and profiles are read. -/
def profiledConfig : SchedulerConfig :=
  { openConfig 1 with
    useRealtimeServerMemory := true
    useResourceStatsDir := true }

/-- A second prompt under the id "x" has a larger need than the first. The first one finishes
before the second one's call has returned, and then the second one finishes too, while "y" is
active. -/
def repairedRun : List SchedulerAction :=
  [.refreshServer ⟨some 100, none, none, none⟩] ++ admittedRun 0 "x" ++ admittedRun 1 "y" ++
    [.admitPrompt (some "a__b-1") (some 0) (some 0) none "x" "b" "a__b-1" 0
        [("a__b-1", ⟨5, 10, 10, 10, 10, 10⟩)], .enqueue 2, .admissionPass 0 1,
      .finishPrompt "a__b-1__g0__i0__x" 0 [], .returnTicket 2 0,
      .finishPrompt "a__b-1__g0__i0__x" 0 [], .refreshServer ⟨some 1, none, none, none⟩] ++
    (admittedRun 3 "z").take 2

/-- A prompt is active, and the pass forces one that does not fit. -/
theorem withinBudget_fails :
    ∃ s ∈ exec (next String.toLower) (init profiledConfig ∅ 0) repairedRun,
      s.activePrompts ≠ ∅ ∧ ∃ passed ∈ s.admitNext 0 1, ∃ request ∈ passed.2,
        ¬s.activeForBudget + request.predicted ≤ s.effectiveBudget := by
  decide +kernel

end Belayer.Scheduler.OnlineEnvDockerScheduler
