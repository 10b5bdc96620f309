import Belayer.Rollout.StepWiseRewards

namespace Belayer.Rollout

open Belayer.Framework

variable {K : Type*} [Field K] [LinearOrder K]

/-- The places of the well-formed spans of the metadata. -/
def StepWiseMeta.spanPlaces (m : StepWiseMeta K) : List Nat :=
  (List.range m.stepTokenSpans.entries.length).filter fun p =>
    (m.stepTokenSpans.entries.getD p none).isSome

/-- The metadata of a sample has the reward, the span and the index at the place; a span that is
inferred stands at the first place. -/
def StepWiseSample.HasEntryAt (dynamicHistory : Bool) (s : StepWiseSample K) (pos : Nat) (reward : K)
    (span : Int × Int) (index : Int) : Prop :=
  (s.stepLists dynamicHistory).rewards[pos]? = some reward ∧
    (if s.infersSpan dynamicHistory then (s.stepLists dynamicHistory).spans[pos]? = some span
      else s.stepWise.stepTokenSpans.entries[pos]? = some (some span)) ∧
    (s.stepLists dynamicHistory).indices[pos]? = some index

variable (dynamicHistory : Bool) (sqrt : K → K) (samples : List (StepWiseSample K))

/-- All entries, each under its bucket. -/
def allEntries : List ((Int × Int) × K) := samples.flatMap (·.bucketEntries dynamicHistory)

/-- The normalized rewards of a bucket in the lists that are returned. -/
def bucketOutput (key : Int × Int) : List K :=
  samples.flatMap fun s =>
    let out := normalizedLists dynamicHistory sqrt samples s
    if s.groupIdx = key.1 then
      ((out.rewards.zip out.indices).filter fun e => e.2 = key.2).map Prod.fst
    else []

/-- Rewards, spans and indices stay aligned, and the buckets are treated as wholes. -/
structure IsStepWise (args : RewardArgs) : Prop where
  /-- The span at a place is the one that stood at this place of the metadata. -/
  places : ∀ s ∈ samples, s.infersSpan args.dynamicHistory = false →
    ∀ pos ∈ keptPositions args.dynamicHistory samples s, s.stepWise.spanPlaces[pos]? = some pos
  triples : ∀ s ∈ samples, ∀ out, out = normalizedLists args.dynamicHistory sqrt samples s →
    ∀ v span index, (v, span, index) ∈ out.rewards.zip (out.spans.zip out.indices) →
      ∃ pos reward, s.HasEntryAt args.dynamicHistory pos reward span index ∧
        v = ((bucketStats args.dynamicHistory samples).getD (s.groupIdx, index)
          ⟨0, 0, 0⟩).normalize sqrt reward
  whole : ∀ key, bucketOutput args.dynamicHistory sqrt samples key = [] ∨
    bucketOutput args.dynamicHistory sqrt samples key =
      (Dict.valuesOf (allEntries args.dynamicHistory samples) key).map
        (((bucketStats args.dynamicHistory samples).getD key ⟨0, 0, 0⟩).normalize sqrt)
  keepsOne : allEntries args.dynamicHistory samples ≠ [] →
    ∃ key, bucketOutput args.dynamicHistory sqrt samples key ≠ []
  sums : ∀ key, 1 < (Dict.valuesOf (allEntries args.dynamicHistory samples) key).length →
    (bucketOutput args.dynamicHistory sqrt samples key).sum = 0
  /-- A sample is marked where none of its entries is kept. -/
  returned : postProcessStepWiseRewards sqrt samples args =
    (samples.map (normalizedLists args.dynamicHistory sqrt samples),
      samples.map StepWiseSample.groupIdx, samples.map fun s =>
        { s with
          removeSample := s.removeSample ||
            (normalizedLists args.dynamicHistory sqrt samples s).rewards.isEmpty })

/-- More than one reward, and all of them the same. -/
def IsConstantBucket (vals : List K) : Prop :=
  1 < vals.length ∧
    max ((vals.map fun v => v * v).sum / vals.length - mean vals * mean vals) 0 ≤
      BucketStats.constantMargin K

/-- The bucket is not constant, or it is the first one and all are constant. -/
def IsKeptBucket (key : Int × Int) : Prop :=
  let entries := allEntries dynamicHistory samples
  key ∈ entries.map Prod.fst ∧
    (¬IsConstantBucket (Dict.valuesOf entries key) ∨
      (∀ other ∈ entries.map Prod.fst, IsConstantBucket (Dict.valuesOf entries other)) ∧
        (entries.map Prod.fst).head? = some key)

/-- No malformed span stands at or before a step of a kept bucket. -/
def SpansWellFormed : Prop :=
  ∀ s ∈ samples, s.infersSpan dynamicHistory = false →
    ∀ pos < min (s.stepLists dynamicHistory).rewards.length
        (min (s.stepLists dynamicHistory).spans.length (s.stepLists dynamicHistory).indices.length),
      IsKeptBucket dynamicHistory samples
          (s.groupIdx, (s.stepLists dynamicHistory).indices.getD pos 0) →
        ∀ p ≤ pos, (s.stepWise.stepTokenSpans.entries.getD p none).isSome

/-! The statistics of a bucket -/

omit [LinearOrder K] in
theorem foldl_add_eq (vals : List K) (b : BucketStats K) :
    vals.foldl .add b = ⟨b.sum + vals.sum, b.sumSq + (vals.map fun v => v * v).sum,
      b.count + vals.length⟩ := by
  induction vals generalizing b with
  | nil => simp
  | cons v vals ih =>
    rw [List.foldl_cons, ih]
    simp [BucketStats.add, add_assoc, add_comm 1]

variable {dynamicHistory samples}

omit [LinearOrder K] in
theorem mem_bucketStats {key : Int × Int} : key ∈ bucketStats dynamicHistory samples ↔
    key ∈ (allEntries dynamicHistory samples).map Prod.fst :=
  Dict.mem_accumulate

omit [LinearOrder K] in
/-- The statistics of a bucket are those of its rewards. -/
theorem lookup_bucketStats {key : Int × Int}
    (h : key ∈ (allEntries dynamicHistory samples).map Prod.fst) :
    (bucketStats dynamicHistory samples).lookup key =
      some ⟨(Dict.valuesOf (allEntries dynamicHistory samples) key).sum,
        ((Dict.valuesOf (allEntries dynamicHistory samples) key).map fun v => v * v).sum,
        (Dict.valuesOf (allEntries dynamicHistory samples) key).length⟩ := by
  have hlookup := Dict.lookup_accumulate BucketStats.add (⟨0, 0, 0⟩ : BucketStats K)
    (allEntries dynamicHistory samples) key
  rw [if_pos h, foldl_add_eq, zero_add, zero_add, Nat.zero_add] at hlookup
  exact hlookup

theorem isConstant_iff {key : Int × Int} {b : BucketStats K}
    (h : (bucketStats dynamicHistory samples).lookup key = some b) :
    b.isConstant = true ↔
      IsConstantBucket (Dict.valuesOf (allEntries dynamicHistory samples) key) := by
  have hmem : key ∈ bucketStats dynamicHistory samples := AList.lookup_isSome.mp (by simp [h])
  rw [lookup_bucketStats (mem_bucketStats.mp hmem)] at h
  cases h
  simp [BucketStats.isConstant, BucketStats.variance, BucketStats.mean, IsConstantBucket, mean]

omit [LinearOrder K] in
theorem exists_mem_items {key : Int × Int}
    (h : key ∈ (allEntries dynamicHistory samples).map Prod.fst) :
    ∃ b, (key, b) ∈ (bucketStats dynamicHistory samples).items := by
  obtain ⟨b, hb⟩ := Option.isSome_iff_exists.mp (AList.lookup_isSome.mpr (mem_bucketStats.mpr h))
  exact ⟨b, Dict.mem_items.mpr hb⟩

omit [LinearOrder K] in
theorem mem_of_mem_items {e : (Int × Int) × BucketStats K}
    (h : e ∈ (bucketStats dynamicHistory samples).items) :
    e.1 ∈ (allEntries dynamicHistory samples).map Prod.fst :=
  mem_bucketStats.mp (AList.lookup_isSome.mp (by rw [Dict.mem_items.mp h]; rfl))

/-- Which buckets are kept. -/
theorem mem_keptKeys {key : Int × Int} : key ∈ keptKeys dynamicHistory samples ↔
    IsKeptBucket dynamicHistory samples key := by
  have hmem : key ∈ ((bucketStats dynamicHistory samples).items.filter
      fun e => !e.2.isConstant).map Prod.fst ↔
        key ∈ (allEntries dynamicHistory samples).map Prod.fst ∧
          ¬IsConstantBucket (Dict.valuesOf (allEntries dynamicHistory samples) key) := by
    rw [List.mem_map]
    constructor
    · rintro ⟨e, he, rfl⟩
      obtain ⟨hitem, hconstant⟩ := List.mem_filter.mp he
      rw [← isConstant_iff (Dict.mem_items.mp hitem)]
      exact ⟨mem_of_mem_items hitem, by simpa using hconstant⟩
    · rintro ⟨hkey, hconstant⟩
      obtain ⟨b, hb⟩ := exists_mem_items hkey
      rw [← isConstant_iff (Dict.mem_items.mp hb)] at hconstant
      exact ⟨(key, b), List.mem_filter.mpr ⟨hb, by simpa using hconstant⟩, rfl⟩
  have hnone : ((bucketStats dynamicHistory samples).items.filter
      fun e => !e.2.isConstant).map Prod.fst = [] ↔
        ∀ other ∈ (allEntries dynamicHistory samples).map Prod.fst,
          IsConstantBucket (Dict.valuesOf (allEntries dynamicHistory samples) other) := by
    rw [List.map_eq_nil_iff, List.filter_eq_nil_iff]
    constructor
    · intro h other hother
      obtain ⟨b, hb⟩ := exists_mem_items hother
      rw [← isConstant_iff (Dict.mem_items.mp hb)]
      simpa using h _ hb
    · intro h e he
      have hconstant := h e.1 (mem_of_mem_items he)
      rw [← isConstant_iff (Dict.mem_items.mp he)] at hconstant
      simp [hconstant]
  have hfirst : ((bucketStats dynamicHistory samples).items.take 1).map Prod.fst =
      ((allEntries dynamicHistory samples).map Prod.fst).take 1 := by
    rw [List.map_take, Dict.map_fst_items]
    exact Dict.take_one_keys_accumulate _ _ _
  have hhead : key ∈ ((allEntries dynamicHistory samples).map Prod.fst).take 1 ↔
      ((allEntries dynamicHistory samples).map Prod.fst).head? = some key := by
    cases (allEntries dynamicHistory samples).map Prod.fst with
    | nil => simp
    | cons first rest => simp [eq_comm]
  unfold keptKeys IsKeptBucket
  dsimp only
  split_ifs with hall
  · have hconstant := hnone.mp (List.isEmpty_iff.mp hall)
    rw [hfirst, hhead]
    constructor
    · intro hkey
      exact ⟨List.mem_of_mem_head? hkey, .inr ⟨hconstant, hkey⟩⟩
    · rintro ⟨hkey, hneg | ⟨-, hkey'⟩⟩
      · exact absurd (hconstant key hkey) hneg
      · exact hkey'
  · rw [hmem]
    constructor
    · rintro ⟨hkey, hneg⟩
      exact ⟨hkey, .inl hneg⟩
    · rintro ⟨hkey, hneg | ⟨hconstant, -⟩⟩
      · exact ⟨hkey, hneg⟩
      · exact absurd (List.isEmpty_iff.mpr (hnone.mpr hconstant)) hall

/-! The lists of a sample -/

variable {s : StepWiseSample K}

/-- The length to which the lists are cut. -/
def StepWiseSample.alignedLen (dynamicHistory : Bool) (s : StepWiseSample K) : Nat :=
  min (s.stepLists dynamicHistory).rewards.length
    (min (s.stepLists dynamicHistory).spans.length (s.stepLists dynamicHistory).indices.length)

omit [Field K] [LinearOrder K] in
theorem length_alignedLists (dynamicHistory : Bool) (s : StepWiseSample K) :
    min (s.alignedLists dynamicHistory).rewards.length
      (s.alignedLists dynamicHistory).indices.length = s.alignedLen dynamicHistory := by
  simp only [StepWiseSample.alignedLists, StepWiseSample.alignedLen, List.length_take]
  omega

theorem mem_keptPositions {pos : Nat} : pos ∈ keptPositions dynamicHistory samples s ↔
    pos < s.alignedLen dynamicHistory ∧ IsKeptBucket dynamicHistory samples
      (s.groupIdx, (s.alignedLists dynamicHistory).indices.getD pos 0) := by
  rw [keptPositions, List.mem_filter, length_alignedLists, List.mem_range, decide_eq_true_iff,
    mem_keptKeys]

omit [LinearOrder K] in
/-- Below the cut the lists are those before the cut. -/
theorem getElem?_alignedLists {pos : Nat} (h : pos < s.alignedLen dynamicHistory) :
    (s.stepLists dynamicHistory).rewards[pos]? =
        some ((s.alignedLists dynamicHistory).rewards.getD pos 0) ∧
      (s.stepLists dynamicHistory).spans[pos]? =
        some ((s.alignedLists dynamicHistory).spans.getD pos (0, 0)) ∧
      (s.stepLists dynamicHistory).indices[pos]? =
        some ((s.alignedLists dynamicHistory).indices.getD pos 0) := by
  unfold StepWiseSample.alignedLen at h
  have hrewards : pos < (s.stepLists dynamicHistory).rewards.length := by omega
  have hspans : pos < (s.stepLists dynamicHistory).spans.length := by omega
  have hindices : pos < (s.stepLists dynamicHistory).indices.length := by omega
  exact ⟨getElem?_eq_getD_take 0 hrewards h, getElem?_eq_getD_take (0, 0) hspans h,
    getElem?_eq_getD_take 0 hindices h⟩

omit [Field K] [LinearOrder K] in
theorem stepSpans_eq (m : StepWiseMeta K) : m.stepSpans =
    m.spanPlaces.map fun p => (m.stepTokenSpans.entries.getD p none).getD (0, 0) := by
  have hrange : (List.range m.stepTokenSpans.entries.length).map
      (fun p => m.stepTokenSpans.entries.getD p none) = m.stepTokenSpans.entries := by
    refine List.ext_getElem (by simp) fun i hi hi' => ?_
    simp [List.getD_eq_getElem?_getD, hi']
  rw [StepWiseMeta.stepSpans, StepWiseMeta.spanPlaces, ← List.filterMap_eq_map,
    List.filterMap_filter]
  conv_lhs => rw [← hrange, List.filterMap_map]
  refine List.filterMap_congr fun p _ => ?_
  dsimp only [Function.comp_apply, id]
  cases m.stepTokenSpans.entries.getD p none <;> rfl

omit [Field K] [LinearOrder K] in
/-- The span at a place is the one of the metadata where none before it is malformed. -/
theorem spanPlaces_iff (m : StepWiseMeta K) (pos : Nat) : m.spanPlaces[pos]? = some pos ↔
    ∀ p ≤ pos, (m.stepTokenSpans.entries.getD p none).isSome := by
  rw [StepWiseMeta.spanPlaces, getElem?_filter_range]
  refine and_iff_right_of_imp fun hall => ?_
  by_contra hlt
  have hlast := hall pos (le_refl pos)
  rw [List.getD_eq_getElem?_getD, List.getElem?_eq_none (by omega)] at hlast
  cases hlast

omit [Field K] [LinearOrder K] in
theorem getElem?_stepSpans {m : StepWiseMeta K} {pos : Nat} (h : m.spanPlaces[pos]? = some pos) :
    m.stepTokenSpans.entries[pos]? = (m.stepSpans[pos]?).map some := by
  have hsome := (spanPlaces_iff m pos).mp h pos (le_refl pos)
  rw [stepSpans_eq, List.getElem?_map, h, Option.map_some, Option.map_some]
  rw [List.getD_eq_getElem?_getD] at hsome ⊢
  cases hentry : m.stepTokenSpans.entries[pos]? with
  | none => simp [hentry] at hsome
  | some entry =>
    cases entry with
    | none => simp [hentry] at hsome
    | some span => simp

/-- What is returned of a sample, place by place. -/
theorem mem_zip_normalizedLists {v : K} {span : Int × Int} {index : Int}
    (h : (v, span, index) ∈ (normalizedLists dynamicHistory sqrt samples s).rewards.zip
      ((normalizedLists dynamicHistory sqrt samples s).spans.zip
        (normalizedLists dynamicHistory sqrt samples s).indices)) :
    ∃ pos ∈ keptPositions dynamicHistory samples s,
      index = (s.alignedLists dynamicHistory).indices.getD pos 0 ∧
      span = (s.alignedLists dynamicHistory).spans.getD pos (0, 0) ∧
      v = ((bucketStats dynamicHistory samples).getD (s.groupIdx, index) ⟨0, 0, 0⟩).normalize sqrt
        ((s.alignedLists dynamicHistory).rewards.getD pos 0) := by
  rw [normalizedLists] at h
  dsimp only at h
  rw [List.zip_map', List.zip_map'] at h
  obtain ⟨pos, hpos, heq⟩ := List.mem_map.mp h
  cases heq
  exact ⟨pos, hpos, rfl, rfl, rfl⟩

theorem triples_of_places (hplaces : s.infersSpan dynamicHistory = false →
      ∀ pos ∈ keptPositions dynamicHistory samples s, s.stepWise.spanPlaces[pos]? = some pos)
    {v : K} {span : Int × Int} {index : Int}
    (h : (v, span, index) ∈ (normalizedLists dynamicHistory sqrt samples s).rewards.zip
      ((normalizedLists dynamicHistory sqrt samples s).spans.zip
        (normalizedLists dynamicHistory sqrt samples s).indices)) :
    ∃ pos reward, s.HasEntryAt dynamicHistory pos reward span index ∧
      v = ((bucketStats dynamicHistory samples).getD (s.groupIdx, index) ⟨0, 0, 0⟩).normalize sqrt
        reward := by
  obtain ⟨pos, hpos, hindex, hspan, hv⟩ := mem_zip_normalizedLists sqrt h
  obtain ⟨hrewards, hspans, hindices⟩ :=
    getElem?_alignedLists (mem_keptPositions.mp hpos).1
  refine ⟨pos, _, ⟨hrewards, ?_, hindex ▸ hindices⟩, hv⟩
  split_ifs with hinfers
  · rw [hspans, hspan]
  · have hfalse : s.infersSpan dynamicHistory = false := by simpa using hinfers
    have hlist : (s.stepLists dynamicHistory).spans = s.stepWise.stepSpans := by
      rw [StepWiseSample.stepLists, if_neg hinfers]
    rw [getElem?_stepSpans (hplaces hfalse pos hpos), ← hlist, hspans, hspan, Option.map_some]

/-! The buckets -/

/-- The rewards that a sample returns for a bucket. -/
def StepWiseSample.bucketOutput (dynamicHistory : Bool) (sqrt : K → K)
    (samples : List (StepWiseSample K)) (s : StepWiseSample K) (key : Int × Int) : List K :=
  let out := normalizedLists dynamicHistory sqrt samples s
  if s.groupIdx = key.1 then
    ((out.rewards.zip out.indices).filter fun e => e.2 = key.2).map Prod.fst
  else []

variable {sqrt}

theorem bucketOutput_of_group {key : Int × Int} (h : s.groupIdx = key.1) :
    s.bucketOutput dynamicHistory sqrt samples key =
      ((keptPositions dynamicHistory samples s).filter fun pos =>
        (s.alignedLists dynamicHistory).indices.getD pos 0 = key.2).map fun pos =>
          ((bucketStats dynamicHistory samples).getD key ⟨0, 0, 0⟩).normalize sqrt
            ((s.alignedLists dynamicHistory).rewards.getD pos 0) := by
  rw [StepWiseSample.bucketOutput, if_pos h, normalizedLists]
  dsimp only
  rw [List.zip_map', List.filter_map, List.map_map]
  refine List.map_congr_left fun pos hpos => ?_
  have hindex : (s.alignedLists dynamicHistory).indices.getD pos 0 = key.2 := by
    simpa using (List.mem_filter.mp hpos).2
  have hkey : (s.groupIdx, (s.alignedLists dynamicHistory).indices.getD pos 0) = key :=
    Prod.ext h hindex
  dsimp only [Function.comp_apply]
  rw [hkey]

/-- A sample returns all its rewards of a bucket that is kept. -/
theorem bucketOutput_of_kept {key : Int × Int} (h : IsKeptBucket dynamicHistory samples key) :
    s.bucketOutput dynamicHistory sqrt samples key =
      (Dict.valuesOf (s.bucketEntries dynamicHistory) key).map
        (((bucketStats dynamicHistory samples).getD key ⟨0, 0, 0⟩).normalize sqrt) := by
  rw [Dict.valuesOf, StepWiseSample.bucketEntries, List.filter_map, List.map_map, List.map_map]
  by_cases hgroup : s.groupIdx = key.1
  · rw [bucketOutput_of_group hgroup, keptPositions, List.filter_filter]
    have hfilter : ∀ pos, (decide ((s.alignedLists dynamicHistory).indices.getD pos 0 = key.2) &&
        decide ((s.groupIdx, (s.alignedLists dynamicHistory).indices.getD pos 0) ∈
          keptKeys dynamicHistory samples)) =
        decide ((s.groupIdx, (s.alignedLists dynamicHistory).indices.getD pos 0) = key) := by
      intro pos
      rw [Bool.eq_iff_iff, Bool.and_eq_true, decide_eq_true_iff, decide_eq_true_iff,
        decide_eq_true_iff]
      constructor
      · rintro ⟨hindex, -⟩
        exact Prod.ext hgroup hindex
      · intro hkey
        rw [hkey]
        exact ⟨congrArg Prod.snd hkey, mem_keptKeys.mpr h⟩
    simp only [hfilter]
    rfl
  · rw [StepWiseSample.bucketOutput, if_neg hgroup]
    have hnone : (List.range (min (s.alignedLists dynamicHistory).rewards.length
        (s.alignedLists dynamicHistory).indices.length)).filter
          ((fun e : (Int × Int) × K => decide (e.1 = key)) ∘ fun pos =>
            ((s.groupIdx, (s.alignedLists dynamicHistory).indices.getD pos 0),
              (s.alignedLists dynamicHistory).rewards.getD pos 0)) = [] := by
      refine List.filter_eq_nil_iff.mpr fun pos _ => ?_
      simpa using fun hkey : (s.groupIdx, _) = key => hgroup (congrArg Prod.fst hkey)
    rw [hnone, List.map_nil]

/-- A sample returns nothing of a bucket that is not. -/
theorem bucketOutput_of_dropped {key : Int × Int} (h : ¬IsKeptBucket dynamicHistory samples key) :
    s.bucketOutput dynamicHistory sqrt samples key = [] := by
  by_cases hgroup : s.groupIdx = key.1
  · rw [bucketOutput_of_group hgroup, List.map_eq_nil_iff, List.filter_eq_nil_iff]
    intro pos hpos
    have hkept := (mem_keptPositions.mp hpos).2
    rw [decide_eq_true_iff]
    intro hindex
    have hkey : (s.groupIdx, (s.alignedLists dynamicHistory).indices.getD pos 0) = key :=
      Prod.ext hgroup hindex
    rw [hkey] at hkept
    exact h hkept
  · rw [StepWiseSample.bucketOutput, if_neg hgroup]

omit [LinearOrder K] in
theorem valuesOf_allEntries (key : Int × Int) :
    Dict.valuesOf (allEntries dynamicHistory samples) key =
      samples.flatMap fun s => Dict.valuesOf (s.bucketEntries dynamicHistory) key := by
  simp only [Dict.valuesOf, allEntries, List.filter_flatMap, List.map_flatMap]

/-- A bucket is kept whole. -/
theorem bucketOutput_kept {key : Int × Int} (h : IsKeptBucket dynamicHistory samples key) :
    bucketOutput dynamicHistory sqrt samples key =
      (Dict.valuesOf (allEntries dynamicHistory samples) key).map
        (((bucketStats dynamicHistory samples).getD key ⟨0, 0, 0⟩).normalize sqrt) := by
  rw [valuesOf_allEntries, List.map_flatMap]
  exact List.flatMap_congr fun s _ => bucketOutput_of_kept h

/-- A bucket is dropped whole. -/
theorem bucketOutput_dropped {key : Int × Int} (h : ¬IsKeptBucket dynamicHistory samples key) :
    bucketOutput dynamicHistory sqrt samples key = [] :=
  List.flatMap_eq_nil_iff.mpr fun _ _ => bucketOutput_of_dropped h

/-- Where there is a bucket, one is kept. -/
theorem exists_isKeptBucket (h : allEntries dynamicHistory samples ≠ []) :
    ∃ key, IsKeptBucket dynamicHistory samples key := by
  by_cases hall : ∀ other ∈ (allEntries dynamicHistory samples).map Prod.fst,
      IsConstantBucket (Dict.valuesOf (allEntries dynamicHistory samples) other)
  · obtain ⟨e, rest, hentries⟩ := List.exists_cons_of_ne_nil h
    have hhead : ((allEntries dynamicHistory samples).map Prod.fst).head? = some e.1 := by
      rw [hentries]
      rfl
    exact ⟨e.1, List.mem_of_mem_head? hhead, .inr ⟨hall, hhead⟩⟩
  · push Not at hall
    obtain ⟨key, hkey, hconstant⟩ := hall
    exact ⟨key, hkey, .inl hconstant⟩

theorem sum_bucketOutput [IsStrictOrderedRing K] {key : Int × Int}
    (h : 1 < (Dict.valuesOf (allEntries dynamicHistory samples) key).length) :
    (bucketOutput dynamicHistory sqrt samples key).sum = 0 := by
  by_cases hkept : IsKeptBucket dynamicHistory samples key
  · rw [bucketOutput_kept hkept, Dict.getD, lookup_bucketStats hkept.1, Option.getD_some]
    have hdeviations : (Dict.valuesOf (allEntries dynamicHistory samples) key).map
        (BucketStats.normalize sqrt ⟨(Dict.valuesOf (allEntries dynamicHistory samples) key).sum,
          ((Dict.valuesOf (allEntries dynamicHistory samples) key).map fun v => v * v).sum,
          (Dict.valuesOf (allEntries dynamicHistory samples) key).length⟩) = _ :=
      List.map_congr_left fun v _ => if_pos h
    rw [hdeviations]
    exact sum_map_sub_mean_div _ _
  · rw [bucketOutput_dropped hkept]
    rfl

/-- Where each span stands at its own place. -/
theorem places_iff : (∀ s ∈ samples, s.infersSpan dynamicHistory = false →
      ∀ pos ∈ keptPositions dynamicHistory samples s, s.stepWise.spanPlaces[pos]? = some pos) ↔
    SpansWellFormed dynamicHistory samples := by
  refine forall₂_congr fun s _ => forall_congr' fun _ => ?_
  have hindex : ∀ pos < s.alignedLen dynamicHistory,
      (s.stepLists dynamicHistory).indices.getD pos 0 =
        (s.alignedLists dynamicHistory).indices.getD pos 0 := by
    intro pos hpos
    rw [List.getD_eq_getElem?_getD, (getElem?_alignedLists hpos).2.2, Option.getD_some]
  constructor
  · intro h pos hpos hkept
    refine (spanPlaces_iff _ pos).mp (h pos (mem_keptPositions.mpr ⟨hpos, ?_⟩))
    rwa [← hindex pos hpos]
  · intro h pos hpos
    obtain ⟨hlt, hkept⟩ := mem_keptPositions.mp hpos
    refine (spanPlaces_iff _ pos).mpr (h pos hlt ?_)
    rwa [hindex pos hlt]

/-- The step-wise rewards stay aligned exactly where no malformed span stands at or before a step
of a kept bucket; the buckets are always treated as wholes. -/
theorem isStepWise_iff [IsStrictOrderedRing K] (args : RewardArgs)
    (hargs : args.rewardsNormalization = true) (sqrt : K → K) (samples : List (StepWiseSample K)) :
    IsStepWise sqrt samples args ↔ SpansWellFormed args.dynamicHistory samples := by
  rw [← places_iff]
  refine ⟨IsStepWise.places, fun hplaces => ⟨hplaces, ?_, fun key => ?_, fun hne => ?_,
    fun key => sum_bucketOutput, ?_⟩⟩
  · rintro s hs out rfl v span index hmem
    exact triples_of_places sqrt (hplaces s hs) hmem
  · by_cases hkept : IsKeptBucket args.dynamicHistory samples key
    · exact .inr (bucketOutput_kept hkept)
    · exact .inl (bucketOutput_dropped hkept)
  · obtain ⟨key, hkept⟩ := exists_isKeptBucket hne
    refine ⟨key, ?_⟩
    obtain ⟨e, he, rfl⟩ := List.mem_map.mp hkept.1
    rw [bucketOutput_kept hkept]
    refine List.ne_nil_of_mem (List.mem_map_of_mem (a := e.2) ?_)
    exact List.mem_map_of_mem (List.mem_filter.mpr ⟨he, by simp⟩)
  · rw [postProcessStepWiseRewards, if_pos hargs]

/-- A sample of two steps with these spans. -/
def twoSteps (K : Type*) [Field K] (spans : List (Option (Int × Int))) : StepWiseSample K :=
  ⟨some 0, ⟨.list [1, 2], .missing, .list spans, .missing⟩, none, 1, false⟩

theorem isStepWise_iff_twoSteps :
    IsStepWise Real.sqrt [twoSteps ℝ [some (0, 3), some (3, 5)]] groupArgs := by
  refine (isStepWise_iff groupArgs rfl Real.sqrt _).mpr ?_
  intro s hs _ pos hpos _ p hp
  rw [List.mem_singleton.mp hs] at hpos ⊢
  have hlt : pos < 2 := lt_of_lt_of_le hpos (min_le_left _ _)
  have hcases : p = 0 ∨ p = 1 := by omega
  rcases hcases with rfl | rfl <;> rfl

/-- The first span is null: the reward of the first step is returned with the span of the second
one. No root is taken, since each bucket has one reward. -/
theorem not_isStepWise_nullSpan :
    ¬IsStepWise id [twoSteps ℚ [none, some (3, 5)]] groupArgs := by
  intro h
  obtain ⟨pos, reward, ⟨hreward, hspan, hindex⟩, -⟩ :=
    h.triples _ (List.mem_singleton_self _) _ rfl 1 (3, 5) 0 (by decide +kernel)
  rcases pos with _ | _ | pos
  · cases hspan
  · cases hindex
  · cases hspan

end Belayer.Rollout
