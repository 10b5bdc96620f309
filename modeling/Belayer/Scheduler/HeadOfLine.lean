import Belayer.Framework.HeadQueue
import Belayer.Scheduler.Reservation

namespace Belayer.Scheduler

open Belayer.Framework

namespace OnlineEnvDockerScheduler

/-- The pass ends at such a request whatever its count of blocks: the cap on unknown prompts keeps
it back, or it is admitted. -/
def isDecided (s : OnlineEnvDockerScheduler) (request : PendingPrompt) : Bool :=
  s.isHeldBack request || s.fits request.predicted s.effectiveBudget ||
    s.isForced request.predicted s.effectiveBudget

/-- A blocked head has been blocked often enough to step back. -/
def isDue (s : OnlineEnvDockerScheduler) (request : PendingPrompt) : Bool :=
  0 < s.config.headBlockRequeueThreshold &&
    s.config.headBlockRequeueThreshold ≤ request.headBlockCount + 1

/-- The pass ends at a head that is decided or not due. -/
def endsPass (s : OnlineEnvDockerScheduler) (request : PendingPrompt) : Bool :=
  s.isDecided request || !s.isDue request

/-- How far a head steps back. -/
def requeueOffset (s : OnlineEnvDockerScheduler) : Nat :=
  (max 1 s.config.headBlockRequeueOffset).toNat

/-- `_admit_head_of_line_unlocked` comes to an end. -/
def HeadOfLineEnds (s : OnlineEnvDockerScheduler) (now : ℚ) : Prop :=
  ∃ fuel, (s.admitHeadOfLine now fuel).isSome

variable {s : OnlineEnvDockerScheduler} {now : ℚ} {head request : PendingPrompt}
  {rest : List PendingPrompt}

theorem isDue_iff : s.isDue request ↔ 0 < max 0 s.config.headBlockRequeueThreshold ∧
    max 0 s.config.headBlockRequeueThreshold ≤ request.headBlockCount + 1 := by
  rw [isDue, Bool.and_eq_true, decide_eq_true_eq, decide_eq_true_eq]
  omega

/-- A pass goes on past a head that is not decided, is due and has others behind it. -/
theorem admitHeadOfLine_of_due {fuel : Nat} (hpending : s.pending = head :: rest)
    (hdecided : s.isDecided head = false) (hdue : s.isDue head) (hrest : rest ≠ []) :
    s.admitHeadOfLine now (fuel + 1) =
      admitHeadOfLine
        { s with
          pending := rest.insertIdx (min s.requeueOffset rest.length) head.unblocked } now fuel := by
  rw [isDecided, Bool.or_assoc, Bool.or_eq_false_iff] at hdecided
  obtain ⟨hheld, hadmitted⟩ := hdecided
  obtain ⟨hpositive, hcount⟩ := isDue_iff.mp hdue
  have hoffset : max 1 (max 1 s.config.headBlockRequeueOffset) =
      max 1 s.config.headBlockRequeueOffset := max_eq_right (le_max_left ..)
  simp only [admitHeadOfLine, hpending]
  rw [if_neg (Bool.eq_false_iff.mp hheld), if_neg (Bool.eq_false_iff.mp hadmitted),
    if_pos ⟨hpositive, hcount, hrest⟩, deferHead, hoffset]
  rfl

/-- A pass ends at any other head. -/
theorem isSome_admitHeadOfLine_of_ends {fuel : Nat} (hpending : s.pending = head :: rest)
    (h : s.endsPass head ∨ rest = []) : (s.admitHeadOfLine now (fuel + 1)).isSome := by
  simp only [admitHeadOfLine, hpending]
  split_ifs with hheld hadmitted hdue
  · rfl
  · rfl
  · obtain ⟨hpositive, hcount, hrest⟩ := hdue
    have hdecided : s.isDecided head = false := by
      rw [isDecided, Bool.or_assoc, Bool.eq_false_iff.mpr hheld, Bool.eq_false_iff.mpr hadmitted]
      rfl
    have hgoes : s.endsPass head = false := by
      rw [endsPass, hdecided, isDue_iff.mpr ⟨hpositive, hcount⟩]
      rfl
    exact absurd h (not_or.mpr ⟨Bool.eq_false_iff.mp hgoes, hrest⟩)
  · rfl

/-- The loop is the one over a queue whose heads step back. -/
theorem isSome_admitHeadOfLine (s : OnlineEnvDockerScheduler) (now : ℚ) (fuel : Nat) :
    (s.admitHeadOfLine now fuel).isSome =
      (HeadQueue.visit s.endsPass PendingPrompt.unblocked s.requeueOffset fuel
        s.pending).isSome := by
  induction fuel generalizing s with
  | zero => rfl
  | succ fuel ih =>
    cases hpending : s.pending with
    | nil =>
      simp only [admitHeadOfLine, hpending]
      rfl
    | cons head rest =>
      by_cases hends : s.endsPass head ∨ rest = []
      · rw [isSome_admitHeadOfLine_of_ends hpending hends, HeadQueue.visit_isSome_of_stops hends]
      · obtain ⟨hgoes, hrest⟩ := not_or.mp hends
        obtain ⟨hdecided, hdue⟩ := Bool.or_eq_false_iff.mp (Bool.eq_false_iff.mpr hgoes)
        rw [admitHeadOfLine_of_due hpending hdecided (by simpa using hdue) hrest, ih,
          HeadQueue.visit, if_neg hends]
        rfl

/-- A request is due at its first block iff the threshold is one. -/
theorem isDue_unblocked : s.isDue request.unblocked ↔ s.config.headBlockRequeueThreshold = 1 := by
  rw [isDue, Bool.and_eq_true, decide_eq_true_eq, decide_eq_true_eq]
  constructor
  · intro h
    have hcount : request.unblocked.headBlockCount = 0 := rfl
    omega
  · intro h
    have hcount : request.unblocked.headBlockCount = 0 := rfl
    omega

theorem iterate_unblocked_succ (k : Nat) :
    PendingPrompt.unblocked^[k + 1] request = request.unblocked := by
  induction k with
  | zero => rfl
  | succ k ih =>
    rw [Function.iterate_succ_apply', ih]
    rfl

/-- A request ends the pass, now or after it stepped back, iff it is decided, or the threshold is
not one, or its count is negative. -/
theorem exists_endsPass_iff : (∃ k, s.endsPass (PendingPrompt.unblocked^[k] request)) ↔
    s.isDecided request ∨ s.config.headBlockRequeueThreshold ≠ 1 ∨ request.headBlockCount < 0 := by
  have hends : ∀ r : PendingPrompt, s.endsPass r ↔ s.isDecided r ∨ ¬s.isDue r := fun r => by
    rw [endsPass, Bool.or_eq_true, Bool.not_eq_true', Bool.eq_false_iff]
  have hdecided : s.isDecided request.unblocked = s.isDecided request := rfl
  constructor
  · rintro ⟨k, hk⟩
    cases k with
    | zero =>
      rcases (hends request).mp hk with h | h
      · exact .inl h
      · rw [isDue_iff] at h
        omega
    | succ k =>
      rw [iterate_unblocked_succ, hends, hdecided, isDue_unblocked] at hk
      exact hk.imp_right .inl
  · rintro (h | h | h)
    · exact ⟨0, (hends request).mpr (.inl h)⟩
    · refine ⟨1, (hends request.unblocked).mpr (.inr ?_)⟩
      rw [isDue_unblocked]
      exact h
    · refine ⟨0, (hends request).mpr (.inr ?_)⟩
      rw [isDue_iff]
      omega

theorem headOfLineEnds_iff_visit : s.HeadOfLineEnds now ↔ s.pending.length ≤ 1 ∨
    ∃ request ∈ s.pending.take (min s.requeueOffset (s.pending.length - 1) + 1),
      ∃ k, s.endsPass (PendingPrompt.unblocked^[k] request) := by
  have hloop : s.HeadOfLineEnds now ↔ ∃ fuel, (HeadQueue.visit s.endsPass PendingPrompt.unblocked
      s.requeueOffset fuel s.pending).isSome :=
    exists_congr fun fuel => by rw [isSome_admitHeadOfLine s now fuel]
  rw [hloop, HeadQueue.exists_visit_isSome_iff]
  rfl

/-- The loop ends iff the threshold is not one, or at most one prompt is pending, or one of those
that a deferral reaches ends the pass. -/
theorem headOfLineEnds_iff (s : OnlineEnvDockerScheduler) (now : ℚ) :
    s.HeadOfLineEnds now ↔
      s.config.headBlockRequeueThreshold ≠ 1 ∨ s.pending.length ≤ 1 ∨
        ∃ request ∈ s.pending.take (min s.requeueOffset (s.pending.length - 1) + 1),
          s.isDecided request ∨ request.headBlockCount < 0 := by
  rw [headOfLineEnds_iff_visit]
  simp only [exists_endsPass_iff]
  constructor
  · rintro (hlength | ⟨request, hmem, hdecided | hthreshold | hcount⟩)
    · exact .inr (.inl hlength)
    · exact .inr (.inr ⟨request, hmem, .inl hdecided⟩)
    · exact .inl hthreshold
    · exact .inr (.inr ⟨request, hmem, .inr hcount⟩)
  · rintro (hthreshold | hlength | ⟨request, hmem, h⟩)
    · cases hpending : s.pending with
      | nil => exact .inl (Nat.zero_le 1)
      | cons head rest => exact .inr ⟨head, List.mem_cons_self, .inr (.inl hthreshold)⟩
    · exact .inl hlength
    · exact .inr ⟨request, hmem, h.imp_right .inr⟩

/-- Prompts keep their order, a head steps back at its first block, and the memory of the server
counts. -/
def rotatingConfig : SchedulerConfig :=
  { openConfig 1 with
    preservePromptOrder := true
    headBlockRequeueThreshold := 1
    useRealtimeServerMemory := true }

/-- One prompt is active and takes all the memory; two more are pending. -/
def rotatingRun : List SchedulerAction :=
  [.refreshServer ⟨some 1, none, none, none⟩] ++ admittedRun 0 "x" ++
    (admittedRun 1 "y").take 2 ++ (admittedRun 2 "z").take 2

theorem not_headOfLineEnds : ∃ s ∈ exec (next String.toLower) (init rotatingConfig ∅ 0) rotatingRun,
    ¬s.HeadOfLineEnds 0 := by
  have hstuck : ∃ s ∈ exec (next String.toLower) (init rotatingConfig ∅ 0) rotatingRun,
      ¬(s.pending.length ≤ 1) ∧
        ∀ request ∈ s.pending.take (min s.requeueOffset (s.pending.length - 1) + 1),
          ¬(s.isDecided request ∨ s.config.headBlockRequeueThreshold ≠ 1 ∨
            request.headBlockCount < 0) := by
    decide +kernel
  obtain ⟨s, hs, hlength, hfront⟩ := hstuck
  refine ⟨s, hs, fun hends => ?_⟩
  rcases headOfLineEnds_iff_visit.mp hends with h | ⟨request, hmem, h⟩
  · exact hlength h
  · exact hfront request hmem (exists_endsPass_iff.mp h)

end OnlineEnvDockerScheduler

end Belayer.Scheduler
