import Belayer.Framework.Dict
import Belayer.Framework.WeightedMean
import Mathlib.Algebra.Order.Field.Rat

namespace Belayer.Exec

open Belayer.Framework

/-- The statistics of a container, and also a sample of them; a field may be missing. -/
structure ContainerStats where
  ok : Option Bool
  ts : Option ℚ
  memoryUsageBytes : Option Nat
  cpuPercent : Option ℚ
  avgCpuPercent : Option ℚ
  cpuSampleValid : Option Bool
  cpuSampleElapsedSec : Option ℚ
  cpuSource : Option String
  diskReadBytes : Option Nat
  diskWriteBytes : Option Nat
  peakMemoryUsageBytes : Option Nat
  peakCpuPercent : Option ℚ
  peakDiskReadBytes : Option Nat
  peakDiskWriteBytes : Option Nat
  cacheSampleCount : Option Nat
  cpuSampleCount : Option Nat
  cpuSampleElapsedTotalSec : Option ℚ
  cpuPercentWeightedSum : Option ℚ
  cacheWindowStartTs : Option ℚ

/-- `x or default`, of a number. -/
def orDefault {α : Type*} [Zero α] [DecidableEq α] (x default : α) : α :=
  if x = 0 then default else x

/-- `_peak_number`. -/
def peakNumber {α : Type*} [Zero α] [Max α] (existing fresh : ContainerStats)
    (peakKey valueKey : ContainerStats → Option α) : α :=
  max (max (max ((peakKey existing).getD 0) ((valueKey existing).getD 0))
    ((peakKey fresh).getD 0)) ((valueKey fresh).getD 0)

namespace ContainerStats

def cpuValid (stats : ContainerStats) : Bool := stats.cpuSampleValid.getD false

def cpuValue (stats : ContainerStats) : ℚ := stats.cpuPercent.getD 0

/-- The time that the sample of the CPU stands for; one second, if a valid one has none. -/
def cpuElapsed (stats : ContainerStats) : ℚ :=
  let elapsed := stats.cpuSampleElapsedSec.getD 0
  if stats.cpuValid ∧ elapsed ≤ 0 then 1 else elapsed

/-- `_merge_cached_container_stats`, where nothing is cached. -/
def mergeFirst (now : ℚ) (fresh : ContainerStats) : ContainerStats :=
  let avgCpuPercent := if fresh.cpuValid then fresh.cpuValue else 0
  { fresh with
    peakMemoryUsageBytes := some (fresh.peakMemoryUsageBytes.getD (fresh.memoryUsageBytes.getD 0))
    peakCpuPercent := some (fresh.peakCpuPercent.getD (if fresh.cpuValid then fresh.cpuValue else 0))
    avgCpuPercent := some avgCpuPercent
    cpuPercent := some avgCpuPercent
    peakDiskReadBytes := some (fresh.peakDiskReadBytes.getD (fresh.diskReadBytes.getD 0))
    peakDiskWriteBytes := some (fresh.peakDiskWriteBytes.getD (fresh.diskWriteBytes.getD 0))
    cacheSampleCount := some (fresh.cacheSampleCount.getD 1)
    cpuSampleCount := some (fresh.cpuSampleCount.getD (if fresh.cpuValid then 1 else 0))
    cpuSampleElapsedTotalSec := some (if fresh.cpuValid then fresh.cpuElapsed else 0)
    cpuPercentWeightedSum := some (if fresh.cpuValid then fresh.cpuValue * fresh.cpuElapsed else 0)
    cpuSampleValid := some fresh.cpuValid
    cacheWindowStartTs := some (fresh.cacheWindowStartTs.getD (fresh.ts.getD now)) }

/-- The number of CPU samples that are cached. -/
def existingCpuCount (existing : ContainerStats) : Nat :=
  let count := existing.cpuSampleCount.getD 0
  if count ≤ 0 ∧ existing.cpuValid then 1 else count

def existingCpuElapsed (existing : ContainerStats) : ℚ :=
  let elapsed := existing.cpuSampleElapsedTotalSec.getD 0
  if elapsed ≤ 0 ∧ 0 < existing.existingCpuCount then existing.existingCpuCount else elapsed

def existingWeightedSum (existing : ContainerStats) : ℚ :=
  let existingAvgCpu := existing.avgCpuPercent.getD (existing.cpuPercent.getD 0)
  existing.cpuPercentWeightedSum.getD (existingAvgCpu * existing.existingCpuElapsed)

/-- `_merge_cached_container_stats`, where statistics are cached. -/
def mergeInto (now : ℚ) (existing fresh : ContainerStats) : ContainerStats :=
  let cpuSampleCount := existing.existingCpuCount + if fresh.cpuValid then 1 else 0
  let freshWeightedSum := if fresh.cpuValid then fresh.cpuValue * fresh.cpuElapsed else 0
  let cpuElapsedTotal := existing.existingCpuElapsed + if fresh.cpuValid then fresh.cpuElapsed else 0
  let cpuWeightedSum := existing.existingWeightedSum + freshWeightedSum
  let avgCpuPercent := if 0 < cpuElapsedTotal then cpuWeightedSum / cpuElapsedTotal else 0
  { fresh with
    peakMemoryUsageBytes :=
      some (peakNumber existing fresh peakMemoryUsageBytes memoryUsageBytes)
    peakCpuPercent :=
      if fresh.cpuValid then some (peakNumber existing fresh peakCpuPercent cpuPercent)
      else some (existing.peakCpuPercent.getD 0)
    avgCpuPercent := some avgCpuPercent
    cpuPercent := some avgCpuPercent
    peakDiskReadBytes := some (peakNumber existing fresh peakDiskReadBytes diskReadBytes)
    peakDiskWriteBytes := some (peakNumber existing fresh peakDiskWriteBytes diskWriteBytes)
    cacheSampleCount := some (orDefault (existing.cacheSampleCount.getD 1) 1 + 1)
    cpuSampleCount := some cpuSampleCount
    cpuSampleElapsedTotalSec := some cpuElapsedTotal
    cpuPercentWeightedSum := some cpuWeightedSum
    cpuSampleValid := some (0 < cpuSampleCount)
    cpuSource :=
      if fresh.cpuValid = false ∧ (existing.cpuSource.getD "") ≠ "" then existing.cpuSource
      else fresh.cpuSource
    cacheWindowStartTs :=
      some (min (orDefault (existing.cacheWindowStartTs.getD (existing.ts.getD now)) now)
        (orDefault (fresh.ts.getD now) now)) }

end ContainerStats

/-- `_merge_cached_container_stats`, at the time `now`. -/
def mergeCachedContainerStats (now : ℚ) (existing : Option ContainerStats)
    (fresh : ContainerStats) : ContainerStats :=
  match existing.filter (·.ok.getD false) with
  | none => fresh.mergeFirst now
  | some existing => existing.mergeInto now fresh

/-- A round of `_put_cached_container_stats`: the cache, and what has been merged. -/
def putItem (now : ℚ) (put : Dict String ContainerStats × Dict String ContainerStats)
    (item : String × ContainerStats) : Dict String ContainerStats × Dict String ContainerStats :=
  if item.2.ok.getD false then
    let merged := mergeCachedContainerStats now (put.1.lookup item.1) item.2
    (AList.insert item.1 merged put.1, AList.insert item.1 merged put.2)
  else put

/-- `_put_cached_container_stats`, of the items of a dict. -/
def putCachedContainerStats (now : ℚ) (cache : Dict String ContainerStats)
    (stats : List (String × ContainerStats)) :
    Dict String ContainerStats × Dict String ContainerStats :=
  stats.foldl (putItem now) (cache, ∅)

/-- A sample of a backend; no CPU is used less than not at all. -/
structure ResourceSample where
  ok : Option Bool
  ts : Option ℚ
  memoryUsageBytes : Option Nat
  cpuPercent : Option ℚ
  avgCpuPercent : Option ℚ
  cpuSampleValid : Option Bool
  cpuSampleElapsedSec : Option ℚ
  cpuSource : Option String
  diskReadBytes : Option Nat
  diskWriteBytes : Option Nat
  cpuPercent_nonneg : ∀ percent ∈ cpuPercent, 0 ≤ percent

namespace ResourceSample

/-- The sample as a payload, which has no fields of a merge. -/
def toStats (s : ResourceSample) : ContainerStats where
  ok := s.ok
  ts := s.ts
  memoryUsageBytes := s.memoryUsageBytes
  cpuPercent := s.cpuPercent
  avgCpuPercent := s.avgCpuPercent
  cpuSampleValid := s.cpuSampleValid
  cpuSampleElapsedSec := s.cpuSampleElapsedSec
  cpuSource := s.cpuSource
  diskReadBytes := s.diskReadBytes
  diskWriteBytes := s.diskWriteBytes
  peakMemoryUsageBytes := none
  peakCpuPercent := none
  peakDiskReadBytes := none
  peakDiskWriteBytes := none
  cacheSampleCount := none
  cpuSampleCount := none
  cpuSampleElapsedTotalSec := none
  cpuPercentWeightedSum := none
  cacheWindowStartTs := none

end ResourceSample

/-- The CPU samples that are valid: the time that each stands for, and the percentage. -/
def cpuSamples (samples : List ResourceSample) : List (ℚ × ℚ) :=
  (samples.filter (·.toStats.cpuValid)).map fun s => (s.toStats.cpuElapsed, s.toStats.cpuValue)

/-- The values of a counter in some samples. -/
def counts (key : ContainerStats → Option Nat) (samples : List ResourceSample) : List Nat :=
  samples.map fun s => (key s.toStats).getD 0

namespace ContainerStats

/-- The statistics are those of the samples. -/
structure Summarizes (stats : ContainerStats) (samples : List ResourceSample) : Prop where
  ok : stats.ok = some true
  peakMemoryUsageBytes :
    stats.peakMemoryUsageBytes = some (greatest (counts memoryUsageBytes samples))
  peakDiskReadBytes : stats.peakDiskReadBytes = some (greatest (counts diskReadBytes samples))
  peakDiskWriteBytes : stats.peakDiskWriteBytes = some (greatest (counts diskWriteBytes samples))
  peakCpuPercent : stats.peakCpuPercent = some (greatest ((cpuSamples samples).map Prod.snd))
  avgCpuPercent : stats.avgCpuPercent = some (weightedMean (cpuSamples samples))
  cpuPercent : stats.cpuPercent = some (weightedMean (cpuSamples samples))
  cpuSampleElapsedTotalSec :
    stats.cpuSampleElapsedTotalSec = some (totalWeight (cpuSamples samples))
  cpuPercentWeightedSum : stats.cpuPercentWeightedSum = some (weightedSum (cpuSamples samples))
  cpuSampleCount : stats.cpuSampleCount = some (cpuSamples samples).length
  cpuSampleValid : stats.cpuSampleValid = some (0 < (cpuSamples samples).length : Bool)
  cacheSampleCount : stats.cacheSampleCount = some samples.length
  memoryUsageBytes : stats.memoryUsageBytes.getD 0 ∈ counts memoryUsageBytes samples
  diskReadBytes : stats.diskReadBytes.getD 0 ∈ counts diskReadBytes samples
  diskWriteBytes : stats.diskWriteBytes.getD 0 ∈ counts diskWriteBytes samples

end ContainerStats

/-! One sample -/

section Sample

variable {s : ResourceSample} {samples : List ResourceSample}

theorem ResourceSample.cpuValue_nonneg (s : ResourceSample) : 0 ≤ s.toStats.cpuValue := by
  have hvalue : s.toStats.cpuValue = s.cpuPercent.getD 0 := rfl
  cases hpercent : s.cpuPercent with
  | none => simp [hvalue, hpercent]
  | some percent => simpa [hvalue, hpercent] using s.cpuPercent_nonneg percent hpercent

theorem ContainerStats.cpuElapsed_pos {stats : ContainerStats} (h : stats.cpuValid = true) :
    0 < stats.cpuElapsed := by
  unfold cpuElapsed
  dsimp only
  split_ifs with hnone
  · exact one_pos
  · exact not_le.mp fun hle => hnone ⟨h, hle⟩

theorem counts_append (key : ContainerStats → Option Nat) (samples : List ResourceSample)
    (s : ResourceSample) :
    counts key (samples ++ [s]) = counts key samples ++ [(key s.toStats).getD 0] := by
  simp [counts]

theorem cpuSamples_append_valid (samples : List ResourceSample) (h : s.toStats.cpuValid = true) :
    cpuSamples (samples ++ [s]) =
      cpuSamples samples ++ [(s.toStats.cpuElapsed, s.toStats.cpuValue)] := by
  simp [cpuSamples, h]

theorem cpuSamples_append_invalid (samples : List ResourceSample)
    (h : s.toStats.cpuValid = false) : cpuSamples (samples ++ [s]) = cpuSamples samples := by
  simp [cpuSamples, h]

theorem totalWeight_cpuSamples (samples : List ResourceSample) (s : ResourceSample) :
    totalWeight (cpuSamples (samples ++ [s])) =
      totalWeight (cpuSamples samples) + if s.toStats.cpuValid then s.toStats.cpuElapsed else 0 := by
  cases hvalid : s.toStats.cpuValid with
  | true =>
    rw [cpuSamples_append_valid samples hvalid, totalWeight_append_singleton]
    rfl
  | false =>
    rw [cpuSamples_append_invalid samples hvalid]
    exact (add_zero _).symm

theorem weightedSum_cpuSamples (samples : List ResourceSample) (s : ResourceSample) :
    weightedSum (cpuSamples (samples ++ [s])) = weightedSum (cpuSamples samples) +
      if s.toStats.cpuValid then s.toStats.cpuValue * s.toStats.cpuElapsed else 0 := by
  cases hvalid : s.toStats.cpuValid with
  | true =>
    rw [cpuSamples_append_valid samples hvalid, weightedSum_append_singleton]
    rfl
  | false =>
    rw [cpuSamples_append_invalid samples hvalid]
    exact (add_zero _).symm

theorem length_cpuSamples (samples : List ResourceSample) (s : ResourceSample) :
    (cpuSamples (samples ++ [s])).length =
      (cpuSamples samples).length + if s.toStats.cpuValid then 1 else 0 := by
  cases hvalid : s.toStats.cpuValid with
  | true =>
    rw [cpuSamples_append_valid samples hvalid, List.length_append]
    rfl
  | false =>
    rw [cpuSamples_append_invalid samples hvalid]
    rfl

/-- Every valid sample has a weight, and no value is negative. -/
theorem mem_cpuSamples {p : ℚ × ℚ} (h : p ∈ cpuSamples samples) : 0 < p.1 ∧ 0 ≤ p.2 := by
  obtain ⟨s, hs, rfl⟩ := List.mem_map.mp h
  exact ⟨ContainerStats.cpuElapsed_pos (List.mem_filter.mp hs).2, s.cpuValue_nonneg⟩

theorem weightedMean_cpuSamples_le (samples : List ResourceSample) :
    weightedMean (cpuSamples samples) ≤ greatest ((cpuSamples samples).map Prod.snd) :=
  weightedMean_le (fun _ hp => (mem_cpuSamples hp).1)
    (fun _ hp => le_greatest (List.mem_map_of_mem hp)) (greatest_nonneg _)

end Sample

/-! What a merge does -/

section Merge

variable {s : ResourceSample} {samples : List ResourceSample} {existing fresh : ContainerStats}

/-- A peak takes in one more value. -/
theorem peakNumber_eq {α : Type*} [LinearOrder α] [Zero α]
    {peakKey valueKey : ContainerStats → Option α} {l : List α}
    (hpeak : peakKey existing = some (greatest l)) (hvalue : (valueKey existing).getD 0 ≤ greatest l)
    (hfresh : peakKey fresh = none) :
    peakNumber existing fresh peakKey valueKey = greatest (l ++ [(valueKey fresh).getD 0]) := by
  have hzero : (0 : α) ≤ greatest l := greatest_nonneg l
  rw [peakNumber, hpeak, hfresh, Option.getD_some, Option.getD_none, max_eq_left hvalue,
    max_eq_left hzero, greatest_append_singleton]

theorem peakNumber_counts {peakKey valueKey : ContainerStats → Option Nat}
    (hpeak : peakKey existing = some (greatest (counts valueKey samples)))
    (hvalue : (valueKey existing).getD 0 ∈ counts valueKey samples)
    (hfresh : peakKey s.toStats = none) :
    some (peakNumber existing s.toStats peakKey valueKey) =
      some (greatest (counts valueKey (samples ++ [s]))) := by
  rw [peakNumber_eq hpeak (le_greatest hvalue) hfresh, counts_append]

theorem mem_counts_append (key : ContainerStats → Option Nat) (samples : List ResourceSample)
    (s : ResourceSample) : (key s.toStats).getD 0 ∈ counts key (samples ++ [s]) := by
  rw [counts_append]
  exact List.mem_append_right _ List.mem_cons_self

theorem greatest_counts_singleton (key : ContainerStats → Option Nat) (s : ResourceSample) :
    greatest (counts key [s]) = (key s.toStats).getD 0 :=
  Nat.max_zero _

/-- The mean of the first sample. -/
theorem weightedMean_cpuSamples_singleton (s : ResourceSample) :
    weightedMean (cpuSamples [s]) = if s.toStats.cpuValid then s.toStats.cpuValue else 0 := by
  cases hvalid : s.toStats.cpuValid with
  | true =>
    rw [← List.nil_append [s], cpuSamples_append_valid [] hvalid]
    exact weightedMean_singleton (ContainerStats.cpuElapsed_pos hvalid).ne'
  | false =>
    rw [← List.nil_append [s], cpuSamples_append_invalid [] hvalid]
    exact weightedMean_nil

theorem greatest_cpuSamples_singleton (s : ResourceSample) :
    greatest ((cpuSamples [s]).map Prod.snd) =
      if s.toStats.cpuValid then s.toStats.cpuValue else 0 := by
  cases hvalid : s.toStats.cpuValid with
  | true =>
    rw [← List.nil_append [s], cpuSamples_append_valid [] hvalid]
    exact max_eq_left s.cpuValue_nonneg
  | false =>
    rw [← List.nil_append [s], cpuSamples_append_invalid [] hvalid]
    rfl

/-- The first sample. -/
theorem summarizes_mergeFirst (now : ℚ) (hok : s.toStats.ok = some true) :
    (s.toStats.mergeFirst now).Summarizes [s] := by
  have hcounts : ∀ key, (key s.toStats).getD 0 ∈ counts key [s] := fun key =>
    mem_counts_append key [] s
  have hpeak : ∀ key : ContainerStats → Option Nat,
      some ((key s.toStats).getD 0) = some (greatest (counts key [s])) := fun key =>
    congrArg some (greatest_counts_singleton key s).symm
  have hmean := congrArg some (weightedMean_cpuSamples_singleton s)
  have htotal := totalWeight_cpuSamples [] s
  have hsum := weightedSum_cpuSamples [] s
  have hlength := length_cpuSamples [] s
  have hnil : cpuSamples [] = [] := rfl
  rw [hnil, totalWeight_nil, zero_add, List.nil_append] at htotal
  rw [hnil, weightedSum_nil, zero_add, List.nil_append] at hsum
  rw [hnil, List.length_nil, Nat.zero_add, List.nil_append] at hlength
  refine ⟨hok, hpeak _, hpeak _, hpeak _, ?_, hmean.symm, hmean.symm, congrArg some htotal.symm,
    congrArg some hsum.symm, congrArg some hlength.symm, ?_, rfl, hcounts _, hcounts _, hcounts _⟩
  · exact congrArg some (greatest_cpuSamples_singleton s).symm
  · rw [hlength]
    cases hvalid : s.toStats.cpuValid <;> simp [ContainerStats.mergeFirst, hvalid]

namespace ContainerStats

theorem Summarizes.existingCpuCount (h : existing.Summarizes samples) :
    existing.existingCpuCount = (cpuSamples samples).length := by
  have hvalid : existing.cpuValid = decide (0 < (cpuSamples samples).length) := by
    rw [cpuValid, h.cpuSampleValid, Option.getD_some]
  unfold ContainerStats.existingCpuCount
  dsimp only
  rw [h.cpuSampleCount, Option.getD_some, if_neg]
  rintro ⟨hnone, hsome⟩
  rw [hvalid, decide_eq_true_eq] at hsome
  omega

theorem Summarizes.existingCpuElapsed (h : existing.Summarizes samples) :
    existing.existingCpuElapsed = totalWeight (cpuSamples samples) := by
  unfold ContainerStats.existingCpuElapsed
  dsimp only
  rw [h.cpuSampleElapsedTotalSec, h.existingCpuCount, Option.getD_some, if_neg]
  rintro ⟨htotal, hcount⟩
  have hpos := totalWeight_pos (List.ne_nil_of_length_pos hcount) fun _ hp => (mem_cpuSamples hp).1
  exact absurd hpos (not_lt.mpr htotal)

theorem Summarizes.existingWeightedSum (h : existing.Summarizes samples) :
    existing.existingWeightedSum = weightedSum (cpuSamples samples) := by
  rw [ContainerStats.existingWeightedSum, h.cpuPercentWeightedSum]
  rfl

/-- The peak of the CPU takes in a valid sample; the mean before it is no peak. -/
theorem Summarizes.peakCpu (h : existing.Summarizes samples) :
    (if s.toStats.cpuValid then
        some (peakNumber existing s.toStats ContainerStats.peakCpuPercent ContainerStats.cpuPercent)
      else some (existing.peakCpuPercent.getD 0)) =
      some (greatest ((cpuSamples (samples ++ [s])).map Prod.snd)) := by
  cases hvalid : s.toStats.cpuValid with
  | true =>
    have hmean : (existing.cpuPercent.getD 0) ≤ greatest ((cpuSamples samples).map Prod.snd) := by
      rw [h.cpuPercent, Option.getD_some]
      exact weightedMean_cpuSamples_le samples
    rw [if_pos rfl, peakNumber_eq h.peakCpuPercent hmean rfl, cpuSamples_append_valid samples hvalid,
      List.map_append]
    rfl
  | false =>
    rw [if_neg Bool.false_ne_true, h.peakCpuPercent, cpuSamples_append_invalid samples hvalid]
    rfl

/-- One more sample. -/
theorem Summarizes.mergeInto (h : existing.Summarizes samples) (now : ℚ)
    (hok : s.toStats.ok = some true) :
    (existing.mergeInto now s.toStats).Summarizes (samples ++ [s]) := by
  have hcounts : ∀ key, (key s.toStats).getD 0 ∈ counts key (samples ++ [s]) := fun key =>
    mem_counts_append key samples s
  have htotal := totalWeight_cpuSamples samples s
  have hsum := weightedSum_cpuSamples samples s
  have hlength := length_cpuSamples samples s
  have hmean := weightedMean_eq_ite (l := cpuSamples (samples ++ [s])) fun _ hp =>
    (mem_cpuSamples hp).1
  rw [htotal, hsum] at hmean
  rw [← h.existingCpuElapsed] at htotal hmean
  rw [← h.existingWeightedSum] at hsum hmean
  rw [← h.existingCpuCount] at hlength
  have hcount : orDefault (existing.cacheSampleCount.getD 1) 1 = samples.length := by
    have hne : samples.length ≠ 0 := by
      intro hnil
      rw [List.length_eq_zero_iff] at hnil
      have hmem := h.memoryUsageBytes
      rw [hnil] at hmem
      cases hmem
    rw [h.cacheSampleCount, Option.getD_some, orDefault, if_neg hne]
  refine ⟨hok, peakNumber_counts h.peakMemoryUsageBytes h.memoryUsageBytes rfl,
    peakNumber_counts h.peakDiskReadBytes h.diskReadBytes rfl,
    peakNumber_counts h.peakDiskWriteBytes h.diskWriteBytes rfl, h.peakCpu,
    congrArg some hmean.symm, congrArg some hmean.symm, congrArg some htotal.symm,
    congrArg some hsum.symm, congrArg some hlength.symm, ?_, ?_, hcounts _, hcounts _, hcounts _⟩
  · rw [hlength]
    rfl
  · have hcached : (existing.mergeInto now s.toStats).cacheSampleCount =
        some (orDefault (existing.cacheSampleCount.getD 1) 1 + 1) := rfl
    rw [hcached, hcount, List.length_append]
    rfl

end ContainerStats

end Merge

/-! Runs -/

/-- The samples of a container that are merged, in order. -/
def samplesOf (containerId : String) (items : List (String × ResourceSample)) :
    List ResourceSample :=
  items.filterMap fun item =>
    if item.1 = containerId ∧ item.2.ok.getD false then some item.2 else none

/-- What is cached after some calls, each with its time and its samples. -/
def putAll (puts : List (ℚ × List (String × ResourceSample))) : Dict String ContainerStats :=
  puts.foldl (fun cache put =>
    (putCachedContainerStats put.1 cache
      (put.2.map fun item => (item.1, item.2.toStats))).1) ∅

/-- Every container that has samples is cached with their statistics. -/
structure Caches (cache : Dict String ContainerStats) (items : List (String × ResourceSample)) :
    Prop where
  absent : ∀ containerId, cache.lookup containerId = none ↔ samplesOf containerId items = []
  summarizes : ∀ containerId, ∀ stats ∈ cache.lookup containerId,
    stats.Summarizes (samplesOf containerId items)

section Runs

variable {cache : Dict String ContainerStats} {items : List (String × ResourceSample)}

theorem samplesOf_append (containerId : String) (items items' : List (String × ResourceSample)) :
    samplesOf containerId (items ++ items') =
      samplesOf containerId items ++ samplesOf containerId items' :=
  List.filterMap_append

/-- The statistics that a merge gives are those of one more sample. -/
theorem Caches.merge (h : Caches cache items) (now : ℚ) (containerId : String)
    {s : ResourceSample} (hok : s.ok = some true) :
    (mergeCachedContainerStats now (cache.lookup containerId) s.toStats).Summarizes
      (samplesOf containerId items ++ [s]) := by
  cases hcached : cache.lookup containerId with
  | none =>
    rw [(h.absent containerId).mp hcached]
    exact summarizes_mergeFirst now hok
  | some existing =>
    have hexisting := h.summarizes containerId existing hcached
    have hmerge : mergeCachedContainerStats now (some existing) s.toStats =
        existing.mergeInto now s.toStats := by
      rw [mergeCachedContainerStats, Option.filter_some, hexisting.ok]
      rfl
    rw [hmerge]
    exact hexisting.mergeInto now hok

theorem Caches.putItem (h : Caches cache items) (now : ℚ)
    (mergedStats : Dict String ContainerStats) (item : String × ResourceSample) :
    Caches (putItem now (cache, mergedStats) (item.1, item.2.toStats)).1 (items ++ [item]) := by
  obtain ⟨containerId, s⟩ := item
  have hpayload : s.toStats.ok = s.ok := rfl
  unfold Exec.putItem
  dsimp only
  rw [hpayload]
  split_ifs with hok
  · have hsome : s.ok = some true := by
      cases hs : s.ok <;> simp_all
    have hself : samplesOf containerId [(containerId, s)] = [s] := by
      simp [samplesOf, hok]
    have hother : ∀ c, c ≠ containerId → samplesOf c [(containerId, s)] = [] := by
      intro c hc
      simp [samplesOf, hc.symm]
    constructor
    · intro c
      rw [Dict.lookup_insert_ite, samplesOf_append]
      split_ifs with hc
      · rw [hc, hself]
        simp
      · rw [hother c hc, List.append_nil]
        exact h.absent c
    · intro c stats hstats
      rw [Dict.lookup_insert_ite] at hstats
      rw [samplesOf_append]
      split_ifs at hstats with hc
      · cases hstats
        rw [hc, hself]
        exact h.merge now containerId hsome
      · rw [hother c hc, List.append_nil]
        exact h.summarizes c stats hstats
  · have hnone : ∀ c, samplesOf c [(containerId, s)] = [] := by
      intro c
      simp [samplesOf, hok]
    constructor
    · intro c
      rw [samplesOf_append, hnone, List.append_nil]
      exact h.absent c
    · intro c stats hstats
      rw [samplesOf_append, hnone, List.append_nil]
      exact h.summarizes c stats hstats

theorem Caches.put (h : Caches cache items) (now : ℚ) (stats : List (String × ResourceSample)) :
    Caches (putCachedContainerStats now cache
      (stats.map fun item => (item.1, item.2.toStats))).1 (items ++ stats) := by
  have hrounds : ∀ mergedStats, Caches ((stats.map fun item => (item.1, item.2.toStats)).foldl
      (Exec.putItem now) (cache, mergedStats)).1 (items ++ stats) := by
    induction stats generalizing cache items with
    | nil =>
      intro mergedStats
      rw [List.append_nil]
      exact h
    | cons item stats ih =>
      intro mergedStats
      rw [List.map_cons, List.foldl_cons, ← List.singleton_append, ← List.append_assoc]
      exact ih (h.putItem now mergedStats item) _
  exact hrounds ∅

theorem caches_putAll (puts : List (ℚ × List (String × ResourceSample))) :
    Caches (putAll puts) (puts.flatMap (·.2)) := by
  have hempty : Caches ∅ [] := ⟨fun c => by simp [samplesOf], fun c stats hstats => by
    rw [AList.lookup_empty] at hstats
    cases hstats⟩
  have hcalls : ∀ cache items, Caches cache items → Caches (puts.foldl (fun cache put =>
      (putCachedContainerStats put.1 cache (put.2.map fun item => (item.1, item.2.toStats))).1)
      cache) (items ++ puts.flatMap (·.2)) := by
    induction puts with
    | nil =>
      intro cache items h
      rw [List.flatMap_nil, List.append_nil]
      exact h
    | cons put puts ih =>
      intro cache items h
      rw [List.foldl_cons, List.flatMap_cons, ← List.append_assoc]
      exact ih _ _ (h.put put.1 put.2)
  exact hcalls ∅ [] hempty

end Runs

/-- However the samples are put, the statistics of a container are those of its samples: the peaks,
and the mean of the CPU by the time that each valid sample stands for. -/
theorem putAll_summarizes (puts : List (ℚ × List (String × ResourceSample)))
    (containerId : String) :
    let samples := samplesOf containerId (puts.flatMap (·.2))
    ((putAll puts).lookup containerId = none ↔ samples = []) ∧
      ∀ stats ∈ (putAll puts).lookup containerId,
        stats.peakMemoryUsageBytes = some (greatest (counts (·.memoryUsageBytes) samples)) ∧
        stats.peakDiskReadBytes = some (greatest (counts (·.diskReadBytes) samples)) ∧
        stats.peakDiskWriteBytes = some (greatest (counts (·.diskWriteBytes) samples)) ∧
        stats.peakCpuPercent = some (greatest ((cpuSamples samples).map Prod.snd)) ∧
        stats.avgCpuPercent = some (weightedMean (cpuSamples samples)) := by
  have h := caches_putAll puts
  refine ⟨h.absent containerId, ?_⟩
  intro stats hstats
  have hsummary := h.summarizes containerId stats hstats
  exact ⟨hsummary.peakMemoryUsageBytes, hsummary.peakDiskReadBytes, hsummary.peakDiskWriteBytes,
    hsummary.peakCpuPercent, hsummary.avgCpuPercent⟩

/-- The valid CPU samples by the time that they carry. -/
def elapsedSamples (samples : List ResourceSample) : List (ℚ × ℚ) :=
  (samples.filter (·.toStats.cpuValid)).map fun s =>
    (s.cpuSampleElapsedSec.getD 0, s.toStats.cpuValue)

/-- A valid sample of the CPU alone. -/
def cpuSample (percent elapsed : ℚ) (hpercent : 0 ≤ percent) : ResourceSample where
  ok := some true
  ts := none
  memoryUsageBytes := none
  cpuPercent := some percent
  avgCpuPercent := none
  cpuSampleValid := some true
  cpuSampleElapsedSec := some elapsed
  cpuSource := none
  diskReadBytes := none
  diskWriteBytes := none
  cpuPercent_nonneg := by
    intro p hp
    rwa [← Option.some.inj hp]

/-- A busy sample without elapsed time, and an idle one of a second. -/
def busyThenIdle : List (ℚ × List (String × ResourceSample)) :=
  [(0, [("c", cpuSample 100 0 (by decide))]), (1, [("c", cpuSample 0 1 le_rfl)])]

/-- The busy sample counts, though it carries no time. -/
theorem putAll_not_elapsed :
    ∃ stats ∈ (putAll busyThenIdle).lookup "c", stats.avgCpuPercent ≠
      some (weightedMean (elapsedSamples (samplesOf "c" (busyThenIdle.flatMap (·.2))))) := by
  refine ⟨_, rfl, ?_⟩
  decide +kernel

end Belayer.Exec
