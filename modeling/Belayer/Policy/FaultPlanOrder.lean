import Belayer.Framework.ListPlaces
import Belayer.Policy.FaultPlanProgress

namespace Belayer.Policy

open Belayer.Framework

/-- What a sample registers with. -/
structure SampleArgs where
  instanceId : String
  stepLimit : Int

namespace LongTrajectoryFaultPlanner

variable {κ R : Type*} [LinearOrder κ] [LinearOrder R] (random : Int → Nat → R)
  (planner : LongTrajectoryFaultPlanner κ)

/-- The registrations of samples that registered in any order. -/
def registrations (samples : Dict κ SampleArgs) : Dict κ Registration :=
  Dict.setAll ∅ (samples.items.map fun e =>
    (e.1, planner.registration e.1 e.2.instanceId e.2.stepLimit))

/-- The samples of a plan file, sorted by their keys. -/
def sortedSamples (samples : Dict κ SampleArgs) : List (κ × Registration) :=
  (planner.registrations samples).sortKeys.items

/-- In some run the plan was finalized with these samples and selected these targets. -/
def FinalizedWith (samples : Dict κ SampleArgs) (selected : Dict κ (FaultInjectionTarget κ)) :
    Prop :=
  ∃ before a, (planner.after random before).finalized = false ∧
    (planner.after random (before ++ [a])).finalized = true ∧
    (planner.after random (before ++ [a])).registered =
      (planner.registrations samples).sortKeys ∧
    (planner.after random (before ++ [a])).selected = selected

/-- The plan that is finalized with these samples has the same targets in every run. -/
def OrderFree (samples : Dict κ SampleArgs) : Prop :=
  ∀ selected selected', planner.FinalizedWith random samples selected →
    planner.FinalizedWith random samples selected' → selected = selected'

/-- The order of the draws when `k` registers last. -/
def drawingLast (registered : List (κ × Registration)) (k : κ) : List (κ × Registration) :=
  registered.filter (fun e => e.1 ≠ k) ++ registered.filter (fun e => e.1 = k)

/-- With these draws, fewer eligible samples than are to be injected come before sample `c`. -/
def AmongFirst (registered : List (κ × Registration)) (c : κ) : Prop :=
  ∃ d ∈ planner.decorate random registered, d.sampleKey = c ∧
    (planner.decorate random registered).countP (fun e => ¬d.Precedes planner.selectionMode e) <
      planner.injectionCount

/-- Not as many samples registered as are expected, so that a forced poll finalizes the plan, or
the draws have the same samples first whichever of them registers last. -/
def DrawsAgree (samples : Dict κ SampleArgs) : Prop :=
  samples.items.length ≠ planner.expectedSampleCount ∨
    ∀ k ∈ samples, ∀ c,
      planner.AmongFirst random (drawingLast (planner.sortedSamples samples) k) c ↔
        planner.AmongFirst random (planner.sortedSamples samples) c

variable {random planner} {samples : Dict κ SampleArgs}

/-! What is selected -/

section Selected

variable {l l' : List (κ × Registration)}

theorem precedes_refl (mode : SelectionMode) (d : Decorated κ R) : d.Precedes mode d := by
  cases mode <;> exact le_refl _

theorem precedes_total (mode : SelectionMode) (d e : Decorated κ R) :
    d.Precedes mode e ∨ e.Precedes mode d := by
  cases mode <;> exact le_total _ _

theorem precedes_trans {mode : SelectionMode} {a b c : Decorated κ R} (hab : a.Precedes mode b)
    (hbc : b.Precedes mode c) : a.Precedes mode c := by
  cases mode <;> exact le_trans (α := Lex _) hab hbc

theorem sampleKey_eq_of_precedes {mode : SelectionMode} {a b : Decorated κ R}
    (hab : a.Precedes mode b) (hba : b.Precedes mode a) : a.sampleKey = b.sampleKey := by
  cases mode with
  | random =>
    have h : toLex (a.draw, a.sampleKey) = toLex (b.draw, b.sampleKey) := le_antisymm hab hba
    exact congrArg Prod.snd (toLex_inj.mp h)
  | longest =>
    have h : toLex (-(a.referenceStepCount : Int), toLex (-a.stepLimit,
        toLex (a.draw, a.sampleKey))) = toLex (-(b.referenceStepCount : Int),
        toLex (-b.stepLimit, toLex (b.draw, b.sampleKey))) := le_antisymm hab hba
    have hlimit := congrArg Prod.snd (toLex_inj.mp h)
    have hdraw := congrArg Prod.snd (toLex_inj.mp hlimit)
    exact congrArg Prod.snd (toLex_inj.mp hdraw)

omit [LinearOrder κ] [LinearOrder R] in
theorem nodup_decorate (random : Int → Nat → R) (planner : LongTrajectoryFaultPlanner κ)
    (hl : (l.map Prod.fst).Nodup) :
    ((planner.decorate random l).map Decorated.sampleKey).Nodup := by
  rw [map_sampleKey_decorate]
  exact hl.sublist (List.filter_sublist.map Prod.fst)

/-- The chosen samples are those before which fewer come than are to be injected. -/
theorem mem_chosen_iff (hl : (l.map Prod.fst).Nodup) {c : κ} :
    c ∈ (planner.chosen random l).map Decorated.sampleKey ↔ planner.AmongFirst random l c := by
  have hnodup := nodup_decorate random planner hl
  have hperm := List.perm_insertionSort (Decorated.Precedes planner.selectionMode)
    (planner.decorate random l)
  have hsorted : ((planner.decorate random l).insertionSort
      (Decorated.Precedes planner.selectionMode)).Pairwise
      (Decorated.Precedes planner.selectionMode) := by
    have : Std.Total (Decorated.Precedes (κ := κ) (R := R) planner.selectionMode) :=
      ⟨precedes_total _⟩
    have : IsTrans (Decorated κ R) (Decorated.Precedes planner.selectionMode) :=
      ⟨fun _ _ _ => precedes_trans⟩
    exact List.pairwise_insertionSort _ _
  have hanti : ∀ a ∈ (planner.decorate random l).insertionSort
      (Decorated.Precedes planner.selectionMode), ∀ b ∈ (planner.decorate random l).insertionSort
      (Decorated.Precedes planner.selectionMode), a.Precedes planner.selectionMode b →
      b.Precedes planner.selectionMode a → a = b := fun a ha b hb hab hba =>
    List.inj_on_of_nodup_map hnodup (hperm.mem_iff.mp ha) (hperm.mem_iff.mp hb)
      (sampleKey_eq_of_precedes hab hba)
  have hfirst : ∀ d ∈ planner.decorate random l, d ∈ planner.chosen random l ↔
      (planner.decorate random l).countP (fun e => ¬d.Precedes planner.selectionMode e) <
        planner.injectionCount := by
    intro d hd
    have htake := mem_take_iff_countP (precedes_refl planner.selectionMode) hsorted
      (hperm.nodup_iff.mpr (List.Nodup.of_map _ hnodup)) hanti (hperm.mem_iff.mpr hd)
    have hlt : (planner.decorate random l).countP (fun e => ¬d.Precedes planner.selectionMode e) <
        (planner.decorate random l).length := by
      refine lt_of_le_of_ne List.countP_le_length fun h => ?_
      have hself := List.countP_eq_length.mp h d hd
      simp [precedes_refl] at hself
    rw [chosen, htake, hperm.countP_eq, Nat.lt_min, and_iff_left hlt]
  rw [List.mem_map]
  constructor
  · rintro ⟨d, hd, rfl⟩
    exact ⟨d, chosen_subset hd, rfl, (hfirst d (chosen_subset hd)).mp hd⟩
  · rintro ⟨d, hd, rfl, hcount⟩
    exact ⟨d, (hfirst d hd).mpr hcount, rfl⟩

theorem exists_registration {c : κ} (hc : planner.AmongFirst random l c) : ∃ r, (c, r) ∈ l := by
  obtain ⟨d, hd, rfl, -⟩ := hc
  obtain ⟨r, hr, -⟩ := exists_of_mem_decorate hd
  exact ⟨r, hr⟩

/-- A selected sample has the target that its registration gives it. -/
theorem lookup_selectTargets_eq (hl : (l.map Prod.fst).Nodup) {c : κ} {r : Registration}
    (hr : (c, r) ∈ l) (hc : planner.AmongFirst random l c) :
    (planner.selectTargets random l).lookup c =
      some ⟨c, planner.injectBeforeStepIdx r.referenceStepCount r.stepLimit⟩ := by
  obtain ⟨d, hd, rfl⟩ := List.mem_map.mp ((mem_chosen_iff hl).mpr hc)
  obtain ⟨r', hr', -, hcount, hlimit⟩ := exists_of_mem_decorate (chosen_subset hd)
  have hsame : (d.sampleKey, r) = (d.sampleKey, r') := List.inj_on_of_nodup_map hl hr hr' rfl
  obtain rfl : r = r' := congrArg Prod.snd hsame
  refine (lookup_selectTargets hl).mpr ⟨d, hd, rfl, ?_⟩
  rw [target, hcount, hlimit]

theorem lookup_selectTargets_eq_none (hl : (l.map Prod.fst).Nodup) {c : κ}
    (hc : ¬planner.AmongFirst random l c) : (planner.selectTargets random l).lookup c = none := by
  rw [Option.eq_none_iff_forall_ne_some]
  intro t ht
  obtain ⟨d, hd, rfl, -⟩ := (lookup_selectTargets hl).mp ht
  exact hc ((mem_chosen_iff hl).mp (List.mem_map_of_mem hd))

/-- The same samples in two orders: the plans are the same when the draws have the same first. -/
theorem selectTargets_eq_iff (hl : (l.map Prod.fst).Nodup) (hperm : l.Perm l') :
    (planner.selectTargets random l).sortKeys = (planner.selectTargets random l').sortKeys ↔
      ∀ c, planner.AmongFirst random l c ↔ planner.AmongFirst random l' c := by
  have hl' : (l'.map Prod.fst).Nodup := (hperm.map _).nodup_iff.mp hl
  constructor
  · intro h c
    have hsome : ∀ m : List (κ × Registration), (m.map Prod.fst).Nodup →
        (planner.AmongFirst random m c ↔
          ((planner.selectTargets random m).sortKeys.lookup c).isSome) := by
      intro m hm
      rw [Dict.lookup_sortKeys]
      by_cases hc : planner.AmongFirst random m c
      · obtain ⟨r, hr⟩ := exists_registration hc
        rw [lookup_selectTargets_eq hm hr hc]
        exact iff_of_true hc rfl
      · rw [lookup_selectTargets_eq_none hm hc]
        exact iff_of_false hc Bool.false_ne_true
    rw [hsome l hl, hsome l' hl', h]
  · intro h
    refine Dict.sortKeys_eq_of_lookup fun c => ?_
    by_cases hc : planner.AmongFirst random l c
    · obtain ⟨r, hr⟩ := exists_registration hc
      rw [lookup_selectTargets_eq hl hr hc,
        lookup_selectTargets_eq hl' (hperm.mem_iff.mp hr) ((h c).mp hc)]
    · rw [lookup_selectTargets_eq_none hl hc,
        lookup_selectTargets_eq_none hl' (mt (h c).mpr hc)]

end Selected

/-! The order of the registrations -/

/-- A new sample draws behind the others, which are sorted. -/
theorem items_set_eq_drawingLast {d : Dict κ Registration} (hsorted : Dict.KeysSorted d.items)
    {k : κ} (hnew : d.lookup k = none) (r : Registration) :
    (d.set k r).items = drawingLast (d.set k r).sortKeys.items k := by
  have hitems := Dict.items_set_of_none hnew r
  have hkey : ∀ e ∈ d.items, e.1 ≠ k := by
    rintro ⟨c, r'⟩ he rfl
    rw [Dict.mem_items.mp he] at hnew
    cases hnew
  have hothers : (d.set k r).items.filter (fun e => e.1 ≠ k) = d.items := by
    rw [hitems, List.filter_append, List.filter_eq_self.mpr fun e he => decide_eq_true (hkey e he)]
    simp
  have hlast : (d.set k r).items.filter (fun e => e.1 = k) = [(k, r)] := by
    rw [hitems, List.filter_append, List.filter_eq_nil_iff.mpr fun e he => by simp [hkey e he]]
    simp
  have hperm := (Dict.items_sortKeys_perm (d.set k r)).symm
  have hfirst : (d.set k r).sortKeys.items.filter (fun e => e.1 ≠ k) = d.items := by
    have hfilter := hperm.filter fun e => decide (e.1 ≠ k)
    rw [hothers] at hfilter
    exact (Dict.eq_of_perm_of_keysSorted hsorted ((Dict.keysSorted_sortKeys _).filter _)
      (Dict.nodup_items d) hfilter).symm
  have hsecond : (d.set k r).sortKeys.items.filter (fun e => e.1 = k) = [(k, r)] := by
    have hfilter := hperm.filter fun e => decide (e.1 = k)
    rw [hlast] at hfilter
    exact List.perm_singleton.mp hfilter.symm
  rw [drawingLast, hfirst, hsecond, hitems]

theorem map_fst_registrations (samples : Dict κ SampleArgs) :
    (samples.items.map fun e =>
      (e.1, planner.registration e.1 e.2.instanceId e.2.stepLimit)).map Prod.fst =
      samples.items.map Prod.fst := by
  rw [List.map_map]
  rfl

theorem items_registrations (samples : Dict κ SampleArgs) :
    (planner.registrations samples).items = samples.items.map fun e =>
      (e.1, planner.registration e.1 e.2.instanceId e.2.stepLimit) := by
  refine (Dict.items_setAll_of_nodup ?_ fun _ _ => rfl).trans (List.nil_append _)
  rw [map_fst_registrations]
  exact Dict.nodup_items samples

theorem nodup_sortedSamples (planner : LongTrajectoryFaultPlanner κ) (samples : Dict κ SampleArgs) :
    ((planner.sortedSamples samples).map Prod.fst).Nodup :=
  Dict.nodup_items _

theorem length_sortedSamples (planner : LongTrajectoryFaultPlanner κ)
    (samples : Dict κ SampleArgs) :
    (planner.sortedSamples samples).length = samples.items.length := by
  rw [sortedSamples, (Dict.items_sortKeys_perm _).length_eq, items_registrations, List.length_map]

theorem drawingLast_perm (l : List (κ × Registration)) (k : κ) : (drawingLast l k).Perm l := by
  have hsplit := List.filter_append_perm (fun e : κ × Registration => decide (e.1 = k)) l
  refine List.perm_append_comm.trans ?_
  simpa only [drawingLast, ne_eq, decide_not] using hsplit

/-- The plan was made in the sorted order or, when as many samples had registered as are expected,
with the last of them behind the others. -/
theorem FinalizedWith.cases {selected : Dict κ (FaultInjectionTarget κ)}
    (h : planner.FinalizedWith random samples selected) :
    selected = (planner.selectTargets random (planner.sortedSamples samples)).sortKeys ∨
      (samples.items.length = planner.expectedSampleCount ∧ ∃ k ∈ samples,
        selected = (planner.selectTargets random
          (drawingLast (planner.sortedSamples samples) k)).sortKeys) := by
  obtain ⟨before, a, hopen, hfinal, hregistered, rfl⟩ := h
  have hwritten := isWritten_after random planner before
  have hstep : (planner.noted (planner.after random before) a).sortKeys =
      (planner.registrations samples).sortKeys := by
    rw [← hregistered, after_append_singleton, registered_step hwritten]
  have hsuffices : planner.Suffices a.forces
      (planner.noted (planner.after random before) a).items.length := by
    by_contra hnot
    rw [after_append_singleton, step_of_not random hwritten fun hs => hnot hs.2, hopen] at hfinal
    exact Bool.false_ne_true hfinal
  have hlength : (planner.noted (planner.after random before) a).items.length =
      samples.items.length := by
    rw [← length_sortedSamples planner, sortedSamples, ← hstep,
      (Dict.items_sortKeys_perm _).length_eq]
  rw [after_append_singleton, step_finalizes random hopen hsuffices]
  cases a with
  | poll force =>
    have hnoted : planner.noted (planner.after random before) (.poll force) =
        (planner.registrations samples).sortKeys := by
      rw [← hstep]
      exact hwritten.registered.symm
    exact .inl (by rw [hnoted, sortedSamples])
  | register k instanceId stepLimit =>
    have hcount := (finalized_cases random planner before).2 hopen
    rw [← length_registered_after random planner] at hcount
    have hexpected : 0 < planner.expectedSampleCount ∧
        planner.expectedSampleCount ≤ samples.items.length := by
      rcases hsuffices with hs | ⟨hforce, -⟩
      · rwa [hlength] at hs
      · cases hforce
    have hnew : (planner.after random before).registered.lookup k = none := by
      by_contra hold
      obtain ⟨r, hr⟩ := Option.ne_none_iff_exists'.mp hold
      obtain ⟨l, m, hitems, hset⟩ := Dict.items_set_of_lookup hr
        (planner.registration k instanceId stepLimit)
      have hsame : (planner.noted (planner.after random before)
          (.register k instanceId stepLimit)).items.length =
          (planner.after random before).registered.items.length := by
        rw [hitems]
        refine (congrArg List.length hset).trans ?_
        simp
      omega
    have hone : (planner.noted (planner.after random before)
        (.register k instanceId stepLimit)).items.length =
        (planner.after random before).registered.items.length + 1 :=
      (congrArg List.length (Dict.items_set_of_none hnew _)).trans (by simp)
    have hkeys : k ∈ samples := by
      have hmem : (planner.registrations samples).sortKeys.lookup k =
          some (planner.registration k instanceId stepLimit) := by
        rw [← hstep, Dict.lookup_sortKeys]
        exact (Dict.lookup_set_ite _ _ _ _).trans (if_pos rfl)
      rw [Dict.lookup_sortKeys, ← Dict.mem_items, items_registrations] at hmem
      obtain ⟨e, he, heq⟩ := List.mem_map.mp hmem
      obtain rfl : e.1 = k := congrArg Prod.fst heq
      rw [AList.mem_keys, ← Dict.map_fst_items]
      exact List.mem_map_of_mem he
    refine .inr ⟨by omega, k, hkeys, ?_⟩
    have hsorted : Dict.KeysSorted (planner.after random before).registered.items := by
      rw [← hwritten.registered]
      exact Dict.keysSorted_sortKeys _
    have horder := items_set_eq_drawingLast hsorted hnew
      (planner.registration k instanceId stepLimit)
    have hsamples : ((planner.after random before).registered.set k
        (planner.registration k instanceId stepLimit)).sortKeys.items =
        planner.sortedSamples samples := congrArg Dict.items hstep
    rw [← hsamples, ← horder]
    rfl

/-- The registrations of samples one after the other. -/
def registerAll (l : List (κ × SampleArgs)) : List (PlanAction κ) :=
  l.map fun e => .register e.1 e.2.instanceId e.2.stepLimit

theorem registeredKeys_registerAll (l : List (κ × SampleArgs)) :
    registeredKeys (registerAll l) = (l.map Prod.fst).toFinset := by
  rw [registeredKeys, registerAll, List.filterMap_map]
  have hsome : (PlanAction.sampleKey ∘ fun e : κ × SampleArgs =>
      PlanAction.register e.1 e.2.instanceId e.2.stepLimit) = some ∘ Prod.fst := rfl
  rw [hsome, List.filterMap_eq_map]

/-- Samples that are fewer than expected leave the plan open. -/
theorem finalized_registerAll (random : Int → Nat → R) (planner : LongTrajectoryFaultPlanner κ)
    {l : List (κ × SampleArgs)}
    (hlt : l.length < planner.expectedSampleCount) :
    (planner.after random (registerAll l)).finalized = false := by
  induction l using List.reverseRecOn with
  | nil => rfl
  | append_singleton l e ih =>
    rw [List.length_append, List.length_singleton] at hlt
    have hcard : (registeredKeys (registerAll (l ++ [e]))).card ≤ l.length + 1 := by
      rw [registeredKeys_registerAll]
      exact (List.toFinset_card_le _).trans (by simp)
    have hactions : registerAll (l ++ [e]) =
        registerAll l ++ [.register e.1 e.2.instanceId e.2.stepLimit] := List.map_append
    have hopen := ih (by omega)
    rw [hactions] at hcard ⊢
    rw [← length_noted_after random planner] at hcard
    rw [after_append_singleton, step_of_not random (isWritten_after random planner _)]
    · exact hopen
    · rintro ⟨-, h | h⟩
      · omega
      · cases h.1

theorem lookup_registerAll {l : List (κ × SampleArgs)} (hnodup : (l.map Prod.fst).Nodup) {c : κ}
    {r : Registration} :
    (planner.after random (registerAll l)).registered.lookup c = some r ↔
      (c, r) ∈ l.map fun e => (e.1, planner.registration e.1 e.2.instanceId e.2.stepLimit) := by
  induction l using List.reverseRecOn with
  | nil => simp [registerAll, after, FaultPlan.empty]
  | append_singleton l e ih =>
    rw [List.map_append, List.nodup_append] at hnodup
    have hactions : registerAll (l ++ [e]) =
        registerAll l ++ [.register e.1 e.2.instanceId e.2.stepLimit] := List.map_append
    have hset : (planner.noted (planner.after random (registerAll l))
        (.register e.1 e.2.instanceId e.2.stepLimit)).lookup c =
        if c = e.1 then some (planner.registration e.1 e.2.instanceId e.2.stepLimit)
        else (planner.after random (registerAll l)).registered.lookup c := Dict.lookup_set_ite ..
    rw [hactions, after_append_singleton, registered_step (isWritten_after random planner _),
      Dict.lookup_sortKeys, hset, List.map_append, List.mem_append, List.map_singleton,
      List.mem_singleton, Prod.mk.injEq, ← ih hnodup.1]
    by_cases hc : c = e.1
    · have hnew : ¬(planner.after random (registerAll l)).registered.lookup c = some r := by
        intro hold
        obtain ⟨e', he', heq⟩ := List.mem_map.mp ((ih hnodup.1).mp hold)
        have hkey : e'.1 = c := congrArg Prod.fst heq
        exact hnodup.2.2 c (hkey ▸ List.mem_map_of_mem he') e.1 (by simp) hc
      rw [if_pos hc, Option.some.injEq]
      simp [hnew, hc, eq_comm]
    · rw [if_neg hc]
      simp [hc]

/-- The plan file has the samples that registered, whatever their order was. -/
theorem registered_registerAll (random : Int → Nat → R) (planner : LongTrajectoryFaultPlanner κ)
    {l : List (κ × SampleArgs)} (hperm : l.Perm samples.items) :
    (planner.after random (registerAll l)).registered =
      (planner.registrations samples).sortKeys := by
  have hnodup : (l.map Prod.fst).Nodup := (hperm.map _).nodup_iff.mpr (Dict.nodup_items samples)
  rw [← (isWritten_after random planner (registerAll l)).registered]
  refine Dict.sortKeys_eq_of_lookup fun c => Option.ext fun r => ?_
  rw [lookup_registerAll hnodup, ← Dict.mem_items, items_registrations]
  exact (hperm.map _).mem_iff

/-- Each of as many samples as are expected may be the last that registers. -/
theorem finalizedWith_last (hexpected : samples.items.length = planner.expectedSampleCount) {k : κ}
    (hk : k ∈ samples) : planner.FinalizedWith random samples
      (planner.selectTargets random (drawingLast (planner.sortedSamples samples) k)).sortKeys := by
  obtain ⟨a, ha⟩ := Option.isSome_iff_exists.mp (AList.lookup_isSome.mpr hk)
  have hmem := Dict.mem_items.mpr ha
  obtain ⟨l, m, hitems⟩ := List.append_of_mem hmem
  -- the others register first
  have hperm : ((l ++ m) ++ [(k, a)]).Perm samples.items := by
    rw [hitems]
    exact (List.perm_append_singleton _ _).trans List.perm_middle.symm
  have hactions : registerAll ((l ++ m) ++ [(k, a)]) =
      registerAll (l ++ m) ++ [.register k a.instanceId a.stepLimit] := List.map_append
  have hlength := hperm.length_eq
  rw [List.length_append, List.length_singleton] at hlength
  have hopen := finalized_registerAll random planner (l := l ++ m)
    (by omega)
  have hregistered := registered_registerAll random planner hperm
  rw [hactions] at hregistered
  have hnoted := length_noted_after random planner (registerAll (l ++ m))
    (.register k a.instanceId a.stepLimit)
  rw [← length_registered_after random planner, hregistered,
    ← sortedSamples, length_sortedSamples] at hnoted
  have hsuffices : planner.Suffices (PlanAction.forces (.register k a.instanceId a.stepLimit))
      (planner.noted (planner.after random (registerAll (l ++ m)))
        (.register k a.instanceId a.stepLimit)).items.length :=
    .inl ⟨by omega, by omega⟩
  have hstep := step_finalizes random hopen hsuffices
  rw [← after_append_singleton] at hstep
  refine ⟨_, _, hopen, by rw [hstep], hregistered, ?_⟩
  have hnew : (planner.after random (registerAll (l ++ m))).registered.lookup k = none := by
    rw [Option.eq_none_iff_forall_ne_some]
    intro r hr
    have hnodup := (hperm.map Prod.fst).nodup_iff.mpr (Dict.nodup_items samples)
    rw [List.map_append, List.nodup_append] at hnodup
    obtain ⟨e, he, heq⟩ := List.mem_map.mp ((lookup_registerAll hnodup.1).mp hr)
    exact hnodup.2.2 e.1 (List.mem_map_of_mem he) k (by simp) (congrArg Prod.fst heq)
  have hsorted : Dict.KeysSorted (planner.after random (registerAll (l ++ m))).registered.items := by
    rw [← (isWritten_after random planner (registerAll (l ++ m))).registered]
    exact Dict.keysSorted_sortKeys _
  have horder := items_set_eq_drawingLast hsorted hnew
    (planner.registration k a.instanceId a.stepLimit)
  have hsamples : ((planner.after random (registerAll (l ++ m))).registered.set k
      (planner.registration k a.instanceId a.stepLimit)).sortKeys =
      (planner.registrations samples).sortKeys := by
    rw [← hregistered, hstep]
    rfl
  rw [hsamples, ← sortedSamples] at horder
  rw [hstep, ← horder]
  rfl

/-- In the sorted order the last sample is the one with the greatest key. -/
theorem exists_drawingLast_eq (planner : LongTrajectoryFaultPlanner κ) (hne : samples.items ≠ []) :
    ∃ k ∈ samples, drawingLast (planner.sortedSamples samples) k =
      planner.sortedSamples samples := by
  have hpos : planner.sortedSamples samples ≠ [] := by
    rw [← List.length_pos_iff, length_sortedSamples]
    exact List.length_pos_iff.mpr hne
  obtain ⟨l, e, hsplit⟩ := (List.eq_nil_or_concat _).resolve_left hpos
  rw [List.concat_eq_append] at hsplit
  have hnodup := nodup_sortedSamples planner samples
  rw [hsplit, List.map_append, List.nodup_append] at hnodup
  have hkey : ∀ e' ∈ l, e'.1 ≠ e.1 := fun e' he' =>
    hnodup.2.2 e'.1 (List.mem_map_of_mem he') e.1 (by simp)
  refine ⟨e.1, ?_, ?_⟩
  · have hmem : e ∈ (planner.registrations samples).items := by
      refine (Dict.items_sortKeys_perm _).mem_iff.mp ?_
      rw [← sortedSamples, hsplit]
      exact List.mem_append_right l (List.mem_singleton_self e)
    rw [items_registrations] at hmem
    obtain ⟨e', he', heq⟩ := List.mem_map.mp hmem
    rw [← congrArg Prod.fst heq, AList.mem_keys, ← Dict.map_fst_items]
    exact List.mem_map_of_mem he'
  · have hfirst : l.filter (fun e' => e'.1 ≠ e.1) = l :=
      List.filter_eq_self.mpr fun e' he' => decide_eq_true (hkey e' he')
    have hnone : l.filter (fun e' => e'.1 = e.1) = [] :=
      List.filter_eq_nil_iff.mpr fun e' he' => by simp [hkey e' he']
    rw [hsplit, drawingLast, List.filter_append, List.filter_append, hfirst, hnone]
    simp

/-- The plan depends on the samples only, when the draws agree. -/
theorem orderFree_iff (random : Int → Nat → R) (planner : LongTrajectoryFaultPlanner κ)
    (samples : Dict κ SampleArgs) :
    planner.OrderFree random samples ↔ planner.DrawsAgree random samples := by
  have hnodup := nodup_sortedSamples planner samples
  constructor
  · intro h
    by_cases hexpected : samples.items.length = planner.expectedSampleCount
    · refine .inr fun k hk c => ?_
      have hne : samples.items ≠ [] := by
        intro hempty
        rw [AList.mem_keys, ← Dict.map_fst_items, hempty] at hk
        cases hk
      obtain ⟨m, hm, hsorted⟩ := exists_drawingLast_eq planner hne
      have hsame := h _ _ (finalizedWith_last hexpected hk) (finalizedWith_last hexpected hm)
      rw [hsorted] at hsame
      have hperm := drawingLast_perm (planner.sortedSamples samples) k
      exact (selectTargets_eq_iff ((hperm.map _).nodup_iff.mpr hnodup) hperm).mp hsame c
    · exact .inl hexpected
  · intro h
    have hall : ∀ selected, planner.FinalizedWith random samples selected →
        selected = (planner.selectTargets random (planner.sortedSamples samples)).sortKeys := by
      intro selected hselected
      rcases hselected.cases with heq | ⟨hexpected, k, hk, heq⟩
      · exact heq
      · have hperm := drawingLast_perm (planner.sortedSamples samples) k
        rw [heq]
        exact (selectTargets_eq_iff ((hperm.map _).nodup_iff.mpr hnodup) hperm).mpr
          fun c => (h.resolve_left fun hne => hne hexpected) k hk c
    intro selected selected' hselected hselected'
    rw [hall _ hselected, hall _ hselected']

def oneInjection : LongTrajectoryFaultPlanner String :=
  { twoInjections with expectedSampleCount := 2, injectionCount := 1 }

/-- Two like samples: the one that registers last draws the smaller number and is selected. -/
theorem not_orderFree_twoSamples :
    ¬OrderFree seedZeroDraws oneInjection
      (Dict.setAll ∅ [("a__g0__i0", ⟨"a", 10⟩), ("b__g0__i0", ⟨"b", 10⟩)]) := by
  intro h
  have hsame := h _ _
    ⟨[.register "a__g0__i0" "a" 10], .register "b__g0__i0" "b" 10, rfl, rfl,
      Dict.ext_items (by decide +kernel), rfl⟩
    ⟨[.register "b__g0__i0" "b" 10], .register "a__g0__i0" "a" 10, rfl, rfl,
      Dict.ext_items (by decide +kernel), rfl⟩
  exact absurd (congrArg Dict.items hsame) (by decide +kernel)

end LongTrajectoryFaultPlanner

end Belayer.Policy
