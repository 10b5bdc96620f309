import Belayer.Rollout.GroupRewards

namespace Belayer.Rollout

open Belayer.Framework

/-- A field of the metadata: absent or `None`, something that is not a list, or a list. -/
inductive MetaField (α : Type*) where
  | missing
  | other
  | list (entries : List α)

def MetaField.entries {α : Type*} : MetaField α → List α
  | .list l => l
  | .missing | .other => []

/-- `step_wise` of the metadata of a sample; a span that is null or malformed is `none`. -/
structure StepWiseMeta (K : Type*) where
  stepScoresWithOutcome : MetaField K
  stepScores : MetaField K
  stepTokenSpans : MetaField (Option (Int × Int))
  stepIndices : MetaField Int

/-- What is read of a sample; `reward` is its reward value. -/
structure StepWiseSample (K : Type*) where
  groupIndex : Option Int
  stepWise : StepWiseMeta K
  lossMask : Option (List Int)
  reward : K
  removeSample : Bool

/-- The three lists of a sample. -/
structure StepLists (K : Type*) where
  rewards : List K
  spans : List (Int × Int)
  indices : List Int

/-- Sum, sum of squares and number of the rewards of a bucket. -/
structure BucketStats (K : Type*) where
  sum : K
  sumSq : K
  count : Nat

variable {K : Type*}

namespace StepWiseMeta

variable (m : StepWiseMeta K)

def stepRewards : List K :=
  match m.stepScoresWithOutcome with
  | .missing => m.stepScores.entries
  | scores => scores.entries

def indices : List Int :=
  match m.stepIndices with
  | .list l => l
  | .missing | .other => (List.range m.stepRewards.length).map Int.ofNat

def stepSpans : List (Int × Int) := m.stepTokenSpans.entries.filterMap id

end StepWiseMeta

/-- The places with a 1. -/
def activePositions (lossMask : List Int) : List Nat :=
  (List.range lossMask.length).filter fun i => lossMask.getD i 0 = 1

/-- From the first 1 of the loss mask to the last one. -/
def inferredSpans (lossMask : List Int) : List (Int × Int) :=
  match activePositions lossMask with
  | [] => []
  | i :: rest => [((i : Int), ((i :: rest).getLastD i : Int) + 1)]

namespace StepWiseSample

variable (dynamicHistory : Bool) (s : StepWiseSample K)

def groupIdx : Int := s.groupIndex.getD (-1)

/-- The spans are inferred, since the metadata has none. -/
def infersSpan : Bool :=
  s.stepWise.stepSpans.isEmpty && dynamicHistory &&
    !(inferredSpans (s.lossMask.getD [])).isEmpty

/-- The three lists before they are cut. -/
def stepLists : StepLists K :=
  if s.infersSpan dynamicHistory then
    ⟨if s.stepWise.stepRewards.isEmpty then [s.reward] else s.stepWise.stepRewards,
      inferredSpans (s.lossMask.getD []),
      if s.stepWise.indices.isEmpty then [0] else s.stepWise.indices⟩
  else ⟨s.stepWise.stepRewards, s.stepWise.stepSpans, s.stepWise.indices⟩

/-- The three lists, cut to the length of the shortest. -/
def alignedLists : StepLists K :=
  let l := s.stepLists dynamicHistory
  let alignedLen := min l.rewards.length (min l.spans.length l.indices.length)
  ⟨l.rewards.take alignedLen, l.spans.take alignedLen, l.indices.take alignedLen⟩

end StepWiseSample

variable [Field K] [LinearOrder K]

/-- The entries of a sample, each under its bucket. -/
def StepWiseSample.bucketEntries (dynamicHistory : Bool) (s : StepWiseSample K) :
    List ((Int × Int) × K) :=
  let l := s.alignedLists dynamicHistory
  (List.range (min l.rewards.length l.indices.length)).map fun pos =>
    ((s.groupIdx, l.indices.getD pos 0), l.rewards.getD pos 0)

namespace BucketStats

def add (b : BucketStats K) (v : K) : BucketStats K := ⟨b.sum + v, b.sumSq + v * v, b.count + 1⟩

def mean (b : BucketStats K) : K := b.sum / b.count

def variance (b : BucketStats K) : K := max (b.sumSq / b.count - b.mean * b.mean) 0

/-- `1e-12`. -/
def constantMargin (K : Type*) [Field K] : K := 1 / 1000000000000

/-- More than one reward, and all the same. -/
def isConstant (b : BucketStats K) : Bool := 1 < b.count && b.variance ≤ constantMargin K

/-- A reward of the bucket, normalized; a single one stays as it is. -/
def normalize (sqrt : K → K) (b : BucketStats K) (v : K) : K :=
  if 1 < b.count then (v - b.mean) / (sqrt b.variance + stdMargin K) else v

end BucketStats

variable (dynamicHistory : Bool) (sqrt : K → K) (samples : List (StepWiseSample K))

/-- `stats`. -/
def bucketStats : Dict (Int × Int) (BucketStats K) :=
  Dict.accumulate .add ⟨0, 0, 0⟩ (samples.flatMap (·.bucketEntries dynamicHistory))

/-- `kept_keys`: the buckets that are not constant, or else the first one. -/
def keptKeys : List (Int × Int) :=
  let stats := (bucketStats dynamicHistory samples).items
  let kept := (stats.filter fun e => !e.2.isConstant).map Prod.fst
  if kept.isEmpty then (stats.take 1).map Prod.fst else kept

/-- The places of a sample whose bucket is kept. -/
def keptPositions (s : StepWiseSample K) : List Nat :=
  let l := s.alignedLists dynamicHistory
  (List.range (min l.rewards.length l.indices.length)).filter fun pos =>
    (s.groupIdx, l.indices.getD pos 0) ∈ keptKeys dynamicHistory samples

/-- The lists of a sample after the normalization. -/
def normalizedLists (s : StepWiseSample K) : StepLists K :=
  let l := s.alignedLists dynamicHistory
  let positions := keptPositions dynamicHistory samples s
  ⟨positions.map fun pos =>
      ((bucketStats dynamicHistory samples).getD (s.groupIdx, l.indices.getD pos 0)
        ⟨0, 0, 0⟩).normalize sqrt (l.rewards.getD pos 0),
    positions.map fun pos => l.spans.getD pos (0, 0),
    positions.map fun pos => l.indices.getD pos 0⟩

/-- `_post_process_step_wise_rewards`: the lists and the group of each sample, and the samples. -/
def postProcessStepWiseRewards (args : RewardArgs) :
    List (StepLists K) × List Int × List (StepWiseSample K) :=
  let groups := samples.map StepWiseSample.groupIdx
  if args.rewardsNormalization then
    let lists := samples.map (normalizedLists args.dynamicHistory sqrt samples)
    (lists, groups, samples.map fun s =>
      { s with
        removeSample := s.removeSample ||
          (normalizedLists args.dynamicHistory sqrt samples s).rewards.isEmpty })
  else (samples.map (·.alignedLists args.dynamicHistory), groups, samples)

end Belayer.Rollout
