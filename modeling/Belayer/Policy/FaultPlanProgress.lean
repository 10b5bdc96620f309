import Belayer.Policy.LongTrajectoryFaultPlanner
import Mathlib.Data.Finset.Card

namespace Belayer.Policy.LongTrajectoryFaultPlanner

open Belayer.Framework

variable {κ R : Type*} {random : Int → Nat → R} {planner : LongTrajectoryFaultPlanner κ}

/-! The chosen samples -/

section Chosen

variable {registered : List (κ × Registration)} {d : Decorated κ R}

theorem map_sampleKey_decorate (registered : List (κ × Registration)) :
    (planner.decorate random registered).map Decorated.sampleKey =
      (registered.filter fun e => e.2.isEligible).map Prod.fst := by
  rw [decorate, List.map_map]
  have hcomp : (Decorated.sampleKey ∘ fun e : (κ × Registration) × Nat =>
      (⟨e.1.1, e.1.2.referenceStepCount, e.1.2.stepLimit, random planner.seed e.2⟩ :
        Decorated κ R)) = Prod.fst ∘ Prod.fst := rfl
  rw [hcomp, ← List.map_map, List.zipIdx_map_fst]

theorem length_decorate (registered : List (κ × Registration)) :
    (planner.decorate random registered).length = registered.countP fun e => e.2.isEligible := by
  rw [decorate, List.length_map, List.length_zipIdx, List.countP_eq_length_filter]

theorem exists_of_mem_decorate (h : d ∈ planner.decorate random registered) :
    ∃ r, (d.sampleKey, r) ∈ registered ∧ r.isEligible ∧
      d.referenceStepCount = r.referenceStepCount ∧ d.stepLimit = r.stepLimit := by
  obtain ⟨⟨⟨k, r⟩, i⟩, he, rfl⟩ := List.mem_map.mp h
  have hmem := List.mem_filter.mp (List.fst_mem_of_mem_zipIdx he)
  exact ⟨r, hmem.1, hmem.2, rfl, rfl⟩

variable [LinearOrder κ] [LinearOrder R]

theorem chosen_subset : planner.chosen random registered ⊆ planner.decorate random registered :=
  fun _ hd => (List.mem_insertionSort _).mp (List.mem_of_mem_take hd)

theorem length_chosen (random : Int → Nat → R) (planner : LongTrajectoryFaultPlanner κ)
    (registered : List (κ × Registration)) :
    (planner.chosen random registered).length =
      min planner.injectionCount (registered.countP fun e => e.2.isEligible) := by
  rw [chosen, List.length_take, List.length_insertionSort, length_decorate]
  omega

theorem nodup_chosen (h : (registered.map Prod.fst).Nodup) :
    ((planner.chosen random registered).map Decorated.sampleKey).Nodup := by
  have hdecorated : ((planner.decorate random registered).map Decorated.sampleKey).Nodup := by
    rw [map_sampleKey_decorate]
    exact h.sublist (List.filter_sublist.map Prod.fst)
  have hsorted := ((List.perm_insertionSort (Decorated.Precedes planner.selectionMode)
    (planner.decorate random registered)).map Decorated.sampleKey).nodup_iff.mpr hdecorated
  exact hsorted.sublist ((List.take_sublist _ _).map _)

/-- The pairs of the plan, one for each chosen sample. -/
theorem items_selectTargets (h : (registered.map Prod.fst).Nodup) :
    (planner.selectTargets random registered).items =
      (planner.chosen random registered).map fun d => (d.sampleKey, planner.target d) := by
  unfold selectTargets
  split_ifs with hnone
  · have hzero : min planner.injectionCount (registered.countP fun e => e.2.isEligible) = 0 := by
      rw [List.countP_eq_length_filter]
      rcases hnone with hempty | hcount
      · rw [List.isEmpty_iff.mp hempty]
        exact Nat.min_zero _
      · omega
    have hempty :=
      List.length_eq_zero_iff.mp ((length_chosen random planner registered).trans hzero)
    rw [hempty]
    rfl
  · refine (Dict.items_setAll_of_nodup ?_ fun _ _ => rfl).trans (List.nil_append _)
    rw [List.map_map]
    exact nodup_chosen h

theorem lookup_selectTargets (h : (registered.map Prod.fst).Nodup) {k : κ}
    {t : FaultInjectionTarget κ} :
    (planner.selectTargets random registered).lookup k = some t ↔
      ∃ d ∈ planner.chosen random registered, d.sampleKey = k ∧ planner.target d = t := by
  rw [← Dict.mem_items, items_selectTargets h, List.mem_map]
  simp only [Prod.mk.injEq]

end Chosen

/-- A fault is injected before a step that an eligible sample has. -/
theorem injectBeforeStepIdx_bounds (planner : LongTrajectoryFaultPlanner κ)
    (referenceStepCount : Nat) {stepLimit : Int}
    (h : 2 ≤ stepLimit) :
    1 ≤ planner.injectBeforeStepIdx referenceStepCount stepLimit ∧
      planner.injectBeforeStepIdx referenceStepCount stepLimit ≤ stepLimit - 1 := by
  unfold injectBeforeStepIdx
  dsimp only
  omega

variable [LinearOrder κ] [LinearOrder R]

/-- A plan that may be made of the registered samples. -/
structure ValidPlan (planner : LongTrajectoryFaultPlanner κ) (registered : Dict κ Registration)
    (selected : Dict κ (FaultInjectionTarget κ)) : Prop where
  length_le : selected.items.length ≤ planner.injectionCount
  length_eq : selected.items.length =
    min planner.injectionCount (registered.items.countP fun e => e.2.isEligible)
  target : ∀ k t, selected.lookup k = some t → t.sampleKey = k ∧
    ∃ r, registered.lookup k = some r ∧ 2 ≤ r.stepLimit ∧
      1 ≤ t.injectBeforeStepIdx ∧ t.injectBeforeStepIdx ≤ r.stepLimit - 1

theorem validPlan_selectTargets (registered : Dict κ Registration) :
    planner.ValidPlan registered (planner.selectTargets random registered.items) where
  length_le := by
    rw [items_selectTargets (Dict.nodup_items _), List.length_map, length_chosen]
    exact Nat.min_le_left _ _
  length_eq := by
    rw [items_selectTargets (Dict.nodup_items _), List.length_map, length_chosen]
  target := by
    intro k t ht
    obtain ⟨d, hd, rfl, rfl⟩ := (lookup_selectTargets (Dict.nodup_items _)).mp ht
    obtain ⟨r, hr, heligible, -, hlimit⟩ := exists_of_mem_decorate (chosen_subset hd)
    have htwo : 2 ≤ r.stepLimit := of_decide_eq_true heligible
    have hbounds := injectBeforeStepIdx_bounds planner d.referenceStepCount htwo
    exact ⟨rfl, r, Dict.mem_items.mp hr, htwo, hlimit ▸ hbounds⟩

/-- A plan is as valid after the keys are sorted. -/
theorem ValidPlan.sorted {registered : Dict κ Registration}
    {selected : Dict κ (FaultInjectionTarget κ)} (h : planner.ValidPlan registered selected) :
    planner.ValidPlan registered.sortKeys selected.sortKeys where
  length_le := by
    rw [(Dict.items_sortKeys_perm selected).length_eq]
    exact h.length_le
  length_eq := by
    rw [(Dict.items_sortKeys_perm selected).length_eq,
      (Dict.items_sortKeys_perm registered).countP_eq]
    exact h.length_eq
  target := by
    intro k t ht
    rw [Dict.lookup_sortKeys] at ht ⊢
    exact h.target k t ht

/-! One action -/

/-- The samples with the one that the action registers. -/
def noted (planner : LongTrajectoryFaultPlanner κ) (s : FaultPlan κ) :
    PlanAction κ → Dict κ Registration
  | .register sampleKey instanceId stepLimit =>
    s.registered.set sampleKey (planner.registration sampleKey instanceId stepLimit)
  | .poll _ => s.registered

/-- As many samples as are expected or, for a forced poll, as are to be injected. -/
def Suffices (planner : LongTrajectoryFaultPlanner κ) (force : Bool) (n : Nat) : Prop :=
  (0 < planner.expectedSampleCount ∧ planner.expectedSampleCount ≤ n) ∨
    (force = true ∧ planner.injectionCount ≤ n)

/-- A plan as it is in the file. -/
structure IsWritten (s : FaultPlan κ) : Prop where
  registered : s.registered.sortKeys = s.registered
  selected : s.selected.sortKeys = s.selected

section Step

variable {s : FaultPlan κ} {a : PlanAction κ}

omit [LinearOrder κ] in
theorem shouldFinalize_iff (s : FaultPlan κ) (force : Bool) :
    planner.shouldFinalize force s = true ↔
      s.finalized = false ∧ planner.Suffices force s.registered.items.length := by
  have hlength : s.registered.items.length = s.registered.entries.length := List.length_map _
  rw [shouldFinalize, Suffices, hlength]
  simp

/-- An action that finalizes the plan selects among the samples that are there with its own. -/
theorem step_finalizes (random : Int → Nat → R) (hopen : s.finalized = false)
    (h : planner.Suffices (a.forces) (planner.noted s a).items.length) :
    planner.step random s a = ⟨(planner.noted s a).sortKeys,
      (planner.selectTargets random (planner.noted s a).items).sortKeys, true⟩ := by
  cases a with
  | register k instanceId stepLimit =>
    have hshould := (shouldFinalize_iff { s with
      registered := planner.noted s (.register k instanceId stepLimit) } false).mpr ⟨hopen, h⟩
    unfold step register
    dsimp only
    rw [if_pos (by exact hshould)]
    rfl
  | poll force =>
    have hshould := (shouldFinalize_iff s force).mpr ⟨hopen, h⟩
    rw [step, pollState, if_pos hshould]
    rfl

/-- Every other action leaves what is selected. -/
theorem step_of_not (random : Int → Nat → R) (hs : IsWritten s)
    (h : ¬(s.finalized = false ∧
      planner.Suffices (a.forces) (planner.noted s a).items.length)) :
    planner.step random s a = ⟨(planner.noted s a).sortKeys, s.selected, s.finalized⟩ := by
  cases a with
  | register k instanceId stepLimit =>
    have hshould := mt (shouldFinalize_iff { s with
      registered := planner.noted s (.register k instanceId stepLimit) } false).mp h
    unfold step register
    dsimp only
    rw [if_neg (by exact hshould), FaultPlan.written, hs.selected]
    rfl
  | poll force =>
    have hshould := mt (shouldFinalize_iff s force).mp h
    rw [step, pollState, if_neg hshould]
    exact congrArg (fun r => FaultPlan.mk r s.selected s.finalized) hs.registered.symm

theorem IsWritten.step (hs : IsWritten s) : IsWritten (planner.step random s a) := by
  by_cases h : s.finalized = false ∧
      planner.Suffices (a.forces) (planner.noted s a).items.length
  · rw [step_finalizes random h.1 h.2]
    exact ⟨Dict.sortKeys_sortKeys _, Dict.sortKeys_sortKeys _⟩
  · rw [step_of_not random hs h]
    exact ⟨Dict.sortKeys_sortKeys _, hs.selected⟩

theorem registered_step (hs : IsWritten s) :
    (planner.step random s a).registered = (planner.noted s a).sortKeys := by
  by_cases h : s.finalized = false ∧
      planner.Suffices (a.forces) (planner.noted s a).items.length
  · rw [step_finalizes random h.1 h.2]
  · rw [step_of_not random hs h]

end Step

/-! Runs -/

section Run

variable {actions : List (PlanAction κ)} {a : PlanAction κ}

theorem after_append_singleton (actions : List (PlanAction κ)) (a : PlanAction κ) :
    planner.after random (actions ++ [a]) =
      planner.step random (planner.after random actions) a := by
  rw [after, List.foldl_append]
  rfl

theorem isWritten_after (random : Int → Nat → R) (planner : LongTrajectoryFaultPlanner κ)
    (actions : List (PlanAction κ)) :
    IsWritten (planner.after random actions) := by
  induction actions using List.reverseRecOn with
  | nil => exact ⟨rfl, rfl⟩
  | append_singleton actions a ih =>
    rw [after_append_singleton]
    exact ih.step

/-- The samples that registered in a run. -/
def registeredKeys (actions : List (PlanAction κ)) : Finset κ :=
  (actions.filterMap PlanAction.sampleKey).toFinset

theorem mem_registered_after {k : κ} :
    k ∈ (planner.after random actions).registered ↔ k ∈ registeredKeys actions := by
  induction actions using List.reverseRecOn with
  | nil => simp [registeredKeys, after, FaultPlan.empty]
  | append_singleton actions a ih =>
    have hsorted : ∀ d : Dict κ Registration, k ∈ d.sortKeys ↔ k ∈ d := by
      intro d
      rw [← AList.lookup_isSome, Dict.lookup_sortKeys, AList.lookup_isSome]
    rw [after_append_singleton, registered_step (isWritten_after random planner actions), hsorted]
    cases a with
    | register c instanceId stepLimit =>
      have hset : k ∈ planner.noted (planner.after random actions)
          (.register c instanceId stepLimit) ↔
          k = c ∨ k ∈ (planner.after random actions).registered := Dict.mem_set
      rw [hset, ih]
      simp [registeredKeys, PlanAction.sampleKey]
    | poll force =>
      have hsame : planner.noted (planner.after random actions) (.poll force) =
        (planner.after random actions).registered := rfl
      rw [hsame, ih]
      simp [registeredKeys, PlanAction.sampleKey]

/-- The plan file has each sample that registered once. -/
theorem length_registered_after (random : Int → Nat → R) (planner : LongTrajectoryFaultPlanner κ)
    (actions : List (PlanAction κ)) :
    (planner.after random actions).registered.items.length = (registeredKeys actions).card := by
  have hkeys : (planner.after random actions).registered.keys.toFinset =
      registeredKeys actions := by
    ext k
    rw [List.mem_toFinset, ← AList.mem_keys, mem_registered_after]
  rw [← hkeys, List.toFinset_card_of_nodup (planner.after random actions).registered.keys_nodup,
    ← Dict.map_fst_items, List.length_map]

theorem length_noted_after (random : Int → Nat → R) (planner : LongTrajectoryFaultPlanner κ)
    (actions : List (PlanAction κ)) (a : PlanAction κ) :
    (planner.noted (planner.after random actions) a).items.length =
      (registeredKeys (actions ++ [a])).card := by
  rw [← length_registered_after random planner, after_append_singleton,
    registered_step (isWritten_after random planner actions), (Dict.items_sortKeys_perm _).length_eq]

theorem registeredKeys_subset (actions : List (PlanAction κ)) (a : PlanAction κ) :
    registeredKeys actions ⊆ registeredKeys (actions ++ [a]) := by
  intro k hk
  rw [registeredKeys, List.filterMap_append, List.toFinset_append]
  exact Finset.mem_union_left _ hk

theorem registeredKeys_poll (actions : List (PlanAction κ)) (force : Bool) :
    registeredKeys (actions ++ [.poll force]) = registeredKeys actions := by
  rw [registeredKeys, List.filterMap_append]
  exact congrArg List.toFinset (List.append_nil _)

omit [LinearOrder κ] in
theorem Suffices.mono {force : Bool} {m n : Nat} (h : planner.Suffices force m) (hmn : m ≤ n) :
    planner.Suffices true n := by
  rcases h with ⟨hpos, hle⟩ | ⟨-, hle⟩
  · exact .inl ⟨hpos, hle.trans hmn⟩
  · exact .inr ⟨rfl, hle.trans hmn⟩

/-- A plan that is final was finalized by an action of the run, among the samples of then. -/
def FinalizedIn (random : Int → Nat → R) (planner : LongTrajectoryFaultPlanner κ)
    (actions : List (PlanAction κ)) : Prop :=
  ∃ before a rest, actions = before ++ a :: rest ∧
    (planner.after random before).finalized = false ∧
    (planner.after random (before ++ [a])).finalized = true ∧
    (planner.after random (before ++ [a])).selected = (planner.after random actions).selected ∧
    planner.ValidPlan (planner.after random (before ++ [a])).registered
      (planner.after random actions).selected

theorem finalized_cases (random : Int → Nat → R) (planner : LongTrajectoryFaultPlanner κ)
    (actions : List (PlanAction κ)) :
    ((planner.after random actions).finalized = true →
      planner.FinalizedIn random actions ∧
        planner.Suffices true (registeredKeys actions).card) ∧
    ((planner.after random actions).finalized = false → planner.expectedSampleCount = 0 ∨
      (registeredKeys actions).card < planner.expectedSampleCount) := by
  induction actions using List.reverseRecOn with
  | nil =>
    refine ⟨fun h => absurd h Bool.false_ne_true, fun _ => ?_⟩
    have hcard : (registeredKeys ([] : List (PlanAction κ))).card = 0 := rfl
    omega
  | append_singleton actions a ih =>
    have hwritten := isWritten_after random planner actions
    have hnoted := length_noted_after random planner actions a
    have hcard := Finset.card_le_card (registeredKeys_subset actions a)
    by_cases h : (planner.after random actions).finalized = false ∧ planner.Suffices
        (a.forces) (planner.noted (planner.after random actions) a).items.length
    · have hstep := step_finalizes random h.1 h.2
      rw [← after_append_singleton] at hstep
      refine ⟨fun _ => ⟨⟨actions, a, [], rfl, h.1, by rw [hstep], rfl, ?_⟩, ?_⟩, fun hopen => ?_⟩
      · rw [hstep]
        exact (validPlan_selectTargets _).sorted
      · exact h.2.mono (Nat.le_of_eq hnoted)
      · rw [hstep] at hopen
        cases hopen
    · have hstep := step_of_not random hwritten h
      rw [← after_append_singleton] at hstep
      constructor
      · intro hfinal
        rw [hstep] at hfinal
        obtain ⟨⟨before, c, rest, hactions, hopen, hclosed, hselected, hvalid⟩, hsuffices⟩ :=
          ih.1 hfinal
        refine ⟨⟨before, c, rest ++ [a], by rw [hactions]; simp, hopen, hclosed, ?_, ?_⟩,
          hsuffices.mono hcard⟩
        · rw [hstep]
          exact hselected
        · rw [hstep]
          exact hvalid
      · intro hopen
        rw [hstep] at hopen
        have hnot : ¬planner.Suffices (a.forces)
            (registeredKeys (actions ++ [a])).card := fun hs => h ⟨hopen, hnoted ▸ hs⟩
        unfold Suffices at hnot
        omega

/-- The next forced poll yields a final plan, made as it should be of the samples that were
registered when it was finalized, so that the poll of each waiting sample returns. -/
structure EndsWaiting (random : Int → Nat → R) (planner : LongTrajectoryFaultPlanner κ)
    (actions : List (PlanAction κ)) : Prop where
  finalized : (planner.after random (actions ++ [.poll true])).finalized = true
  finalizedIn : planner.FinalizedIn random (actions ++ [.poll true])
  returns : ∀ sampleKey,
    planner.pollTarget random (planner.after random actions) sampleKey true =
      (true, (planner.after random (actions ++ [.poll true])).selected.lookup sampleKey)

/-- The wait ends when as many samples have registered as are to be injected or as are expected. -/
theorem endsWaiting_iff (random : Int → Nat → R) (planner : LongTrajectoryFaultPlanner κ)
    (actions : List (PlanAction κ)) :
    planner.EndsWaiting random actions ↔
      planner.injectionCount ≤ (registeredKeys actions).card ∨
        (0 < planner.expectedSampleCount ∧
          planner.expectedSampleCount ≤ (registeredKeys actions).card) := by
  have hsuffices : planner.Suffices true (registeredKeys actions).card ↔
      planner.injectionCount ≤ (registeredKeys actions).card ∨
        (0 < planner.expectedSampleCount ∧
          planner.expectedSampleCount ≤ (registeredKeys actions).card) := by
    unfold Suffices
    simp [or_comm]
  rw [← hsuffices]
  constructor
  · intro h
    have hfinal := (finalized_cases random planner (actions ++ [.poll true])).1 h.finalized
    rw [registeredKeys_poll] at hfinal
    exact hfinal.2
  · intro h
    have hfinal : (planner.after random (actions ++ [.poll true])).finalized = true := by
      rw [after_append_singleton]
      by_cases hopen : (planner.after random actions).finalized = false
      · rw [step_finalizes random (a := .poll true) hopen
          (by rwa [length_noted_after, registeredKeys_poll])]
      · rw [step_of_not random (isWritten_after random planner actions) fun hs => hopen hs.1]
        exact Bool.eq_true_of_not_eq_false hopen
    refine ⟨hfinal, ((finalized_cases random planner _).1 hfinal).1, fun k => ?_⟩
    rw [after_append_singleton] at hfinal ⊢
    exact if_pos hfinal

/-- A sample that waits alone where two faults are to be injected. -/
theorem not_endsWaiting_oneSample :
    ¬EndsWaiting seedZeroDraws twoInjections [.register "a__g0__i0" "a" 10] := by
  intro h
  have hopen : (after seedZeroDraws twoInjections
      [.register "a__g0__i0" "a" 10, .poll true]).finalized = false := by decide
  exact Bool.false_ne_true (hopen.symm.trans h.finalized)

end Run

end Belayer.Policy.LongTrajectoryFaultPlanner
