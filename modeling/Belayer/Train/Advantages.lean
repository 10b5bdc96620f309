import Belayer.Train.CpGather
import Belayer.Train.Gae

namespace Belayer.Train

open Belayer.Framework

variable {R : Type} [CommRing R]

/-- A sample of the batch: each rank has its slices of the values and of the rewards. -/
structure GaeSample (cpSize : Nat) (R : Type) where
  totalLength : Nat
  responseLength : Nat
  values : Fin cpSize → List R
  rewards : Fin cpSize → List R

section

variable {cpSize : Nat} (cpRank : Fin cpSize)

/-- The slice of a result that a rank keeps. -/
def localPart (s : GaeSample cpSize R) (full : List R) : Option (List R) :=
  if cpSize = 1 then some full
  else sliceLogProbWithCp cpRank full s.totalLength s.responseLength .thd none

/-- `get_advantages_and_returns`. -/
def getAdvantagesAndReturns (gamma lambd : R) (s : GaeSample cpSize R) :
    Option (List R × List R) := do
  let fullRewards ← allGatherWithCp cpRank s.rewards s.totalLength s.responseLength
  let fullValues ← allGatherWithCp cpRank s.values s.totalLength s.responseLength
  guard (fullValues.length = s.responseLength ∧ s.responseLength ≤ fullRewards.length)
  let full := vanillaGae fullRewards fullValues gamma lambd
  let advantages ← localPart cpRank s full.1
  let returns ← localPart cpRank s full.2
  return (advantages, returns)

/-- `full[i, :length] = row[:length]` in a row of zeros. -/
def fillRow (maxLen length : Nat) (row : List R) : Option (List R) :=
  match row.take length with
  | [] => if length = 0 then some (List.replicate maxLen 0) else none
  | [a] => some (List.replicate length a ++ List.replicate (maxLen - length) 0)
  | part =>
    if part.length = length then some (part ++ List.replicate (maxLen - length) 0) else none

/-- The padded rows of a sample. -/
def fullRows (maxLen : Nat) (s : GaeSample cpSize R) : Option (List R × List R) := do
  let fullValues ← allGatherWithCp cpRank s.values s.totalLength s.responseLength
  let fullRewards ← allGatherWithCp cpRank s.rewards s.totalLength s.responseLength
  let values ← fillRow maxLen s.responseLength fullValues
  let rewards ← fillRow maxLen s.responseLength fullRewards
  return (rewards, values)

/-- `get_advantages_and_returns_batch`; there is no longest one of no samples. -/
def getAdvantagesAndReturnsBatch [DecidableEq R] (gamma lambd : R) (chunked : Bool)
    (samples : List (GaeSample cpSize R)) : Option (List (List R × List R)) := do
  guard (samples ≠ [])
  let maxLen := (samples.map (·.responseLength)).foldl max 0
  let rows ← samples.mapM (fullRows cpRank maxLen)
  let results := rows.map fun row =>
    if chunked then chunkedGae row.1 row.2 gamma lambd 128
    else vanillaGae row.1 row.2 gamma lambd
  (samples.zip results).mapM fun p => do
    let advantages ← localPart cpRank p.1 (p.2.1.take p.1.responseLength)
    let returns ← localPart cpRank p.1 (p.2.2.take p.1.responseLength)
    return (advantages, returns)

end

/-! ### Every rank gets its slice of what the plain loop gives for each sample alone -/

/-- The values and rewards of a whole response behind a prompt. -/
structure FullSample (R : Type) where
  totalLength : Nat
  responseLength : Nat
  values : List R
  rewards : List R
  length_values : values.length = responseLength
  length_rewards : rewards.length = responseLength
  prompt : responseLength < totalLength

namespace FullSample

/-- What the ranks have of a sample. -/
def shards (cpSize : Nat) (s : FullSample R) : GaeSample cpSize R where
  totalLength := s.totalLength
  responseLength := s.responseLength
  values := fun cpRank => cpShard cpRank s.totalLength s.responseLength .thd none s.values
  rewards := fun cpRank => cpShard cpRank s.totalLength s.responseLength .thd none s.rewards

/-- What a rank has of the advantages and of the returns. -/
def gaeShard {cpSize : Nat} (cpRank : Fin cpSize) (gamma lambd : R) (s : FullSample R) :
    List R × List R :=
  let p := vanillaGae s.rewards s.values gamma lambd
  (cpShard cpRank s.totalLength s.responseLength .thd none p.1,
    cpShard cpRank s.totalLength s.responseLength .thd none p.2)

end FullSample

variable {cpSize : Nat} {cpRank : Fin cpSize} {gamma lambd : R}

theorem length_vanillaGae (rewards values : List R) (gamma lambd : R) :
    (vanillaGae rewards values gamma lambd).1.length = values.length ∧
      (vanillaGae rewards values gamma lambd).2.length = values.length := by
  have hfst : (vanillaGae rewards values gamma lambd).1.length = values.length := by
    simp [vanillaGae_fst]
  have hsnd : (vanillaGae rewards values gamma lambd).2 =
      List.zipWith (· + ·) (vanillaGae rewards values gamma lambd).1 values := rfl
  refine ⟨hfst, ?_⟩
  rw [hsnd, List.length_zipWith, hfst, Nat.min_self]

omit [CommRing R] in
theorem localPart_shards (s : FullSample R) {full : List R} (h : full.length = s.responseLength) :
    localPart cpRank (s.shards cpSize) full =
      some (cpShard cpRank s.totalLength s.responseLength .thd none full) := by
  by_cases hone : cpSize = 1
  · simp [localPart, cpShard, hone]
  · rw [localPart, if_neg hone]
    exact sliceLogProbWithCp_eq_cpShard h s.prompt (fitsFormat_thd s.totalLength none)

theorem getAdvantagesAndReturns_shards (s : FullSample R) :
    getAdvantagesAndReturns cpRank gamma lambd (s.shards cpSize) =
      some (s.gaeShard cpRank gamma lambd) := by
  obtain ⟨hadv, hret⟩ := length_vanillaGae s.rewards s.values gamma lambd
  have hvalues : allGatherWithCp cpRank (s.shards cpSize).values s.totalLength s.responseLength =
      some s.values := allGatherWithCp_cpShard s.length_values s.prompt cpRank
  have hrewards : allGatherWithCp cpRank (s.shards cpSize).rewards s.totalLength s.responseLength =
      some s.rewards := allGatherWithCp_cpShard s.length_rewards s.prompt cpRank
  have hlen : s.values.length = (s.shards cpSize).responseLength ∧
      (s.shards cpSize).responseLength ≤ s.rewards.length :=
    ⟨s.length_values, s.length_rewards.ge⟩
  simp only [getAdvantagesAndReturns]
  rw [show (s.shards cpSize).totalLength = s.totalLength from rfl,
    show (s.shards cpSize).responseLength = s.responseLength from rfl, hvalues, hrewards]
  simp [guard, s.length_values, s.length_rewards, localPart_shards s (hadv.trans s.length_values),
    localPart_shards s (hret.trans s.length_values), FullSample.gaeShard]

/-! ### Padding -/

theorem fillRow_eq {row : List R} {maxLen length : Nat} (h : row.length = length) :
    fillRow maxLen length row = some (row ++ List.replicate (maxLen - length) 0) := by
  subst h
  match row with
  | [] => simp [fillRow]
  | [a] => simp [fillRow]
  | a :: b :: row => simp [fillRow]

theorem gaeDelta_eq (rewards values : List R) (gamma : R) (t : Nat) :
    gaeDelta rewards values gamma t =
      rewards.getD t 0 + gamma * values.getD (t + 1) 0 - values.getD t 0 := by
  have hnext : (if t < values.length - 1 then values.getD (t + 1) 0 else 0) =
      values.getD (t + 1) 0 := by
    split_ifs with hlt
    · rfl
    · exact (List.getD_eq_default _ _ (by omega)).symm
  simp only [gaeDelta, hnext]

theorem getD_append_zeros (l : List R) (n i : Nat) :
    (l ++ List.replicate n 0).getD i 0 = l.getD i 0 := by
  by_cases hi : i < l.length
  · rw [List.getD_append _ _ _ _ hi]
  · rw [List.getD_append_right _ _ _ _ (by omega), List.getD_eq_default l _ (by omega)]
    by_cases hn : i - l.length < n
    · rw [List.getD_replicate _ hn]
    · exact List.getD_eq_default _ _ (by simpa using hn)

variable (gamma lambd) in
/-- Steps of zeros behind a row add nothing to its advantages. -/
theorem vanillaGae_append_zeros {rewards values : List R} (h : rewards.length = values.length)
    (n : Nat) :
    (vanillaGae (rewards ++ List.replicate n 0) (values ++ List.replicate n 0) gamma lambd).1 =
      (vanillaGae rewards values gamma lambd).1 ++ List.replicate n 0 := by
  have hdelta : (List.range (values.length + n)).map
      (gaeDelta (rewards ++ List.replicate n 0) (values ++ List.replicate n 0) gamma) =
        (List.range values.length).map (gaeDelta rewards values gamma) ++ List.replicate n 0 := by
    rw [List.range_add, List.map_append, List.map_map]
    congr 1
    · apply List.map_congr_left
      intro t _
      simp only [gaeDelta_eq, getD_append_zeros]
    · refine List.eq_replicate_iff.mpr ⟨by simp, ?_⟩
      intro delta hdelta
      obtain ⟨i, -, rfl⟩ := List.mem_map.mp hdelta
      have hr : rewards.getD (values.length + i) 0 = 0 := List.getD_eq_default _ _ (by omega)
      have hv : values.getD (values.length + i) 0 = 0 := List.getD_eq_default _ _ (by omega)
      have hnext : values.getD (values.length + i + 1) 0 = 0 :=
        List.getD_eq_default _ _ (by omega)
      simp only [Function.comp_apply, gaeDelta_eq, getD_append_zeros, hr, hv, hnext]
      ring
  rw [vanillaGae_fst, vanillaGae_fst, List.length_append, List.length_replicate, hdelta,
    List.reverse_append, List.reverse_replicate, recurrence_append, recurrence_replicate_zero,
    runRecurrence_replicate_zero, List.reverse_append, List.reverse_replicate]

variable (gamma lambd) in
theorem take_gae {rewards values : List R} (h : rewards.length = values.length) (n : Nat) :
    let p := vanillaGae (rewards ++ List.replicate n 0) (values ++ List.replicate n 0) gamma lambd
    p.1.take values.length = (vanillaGae rewards values gamma lambd).1 ∧
      p.2.take values.length = (vanillaGae rewards values gamma lambd).2 := by
  intro p
  have hlen := (length_vanillaGae rewards values gamma lambd).1
  have hfst := vanillaGae_append_zeros gamma lambd h n
  have hsnd : p.2 = List.zipWith (· + ·) p.1 (values ++ List.replicate n 0) := rfl
  refine ⟨?_, ?_⟩
  · rw [hfst, List.take_left' hlen]
  · rw [hsnd, hfst, List.take_zipWith, List.take_left' hlen, List.take_left]
    rfl

/-- The row of a sample in the batch. -/
def paddedRow (maxLen : Nat) (s : FullSample R) : List R × List R :=
  (s.rewards ++ List.replicate (maxLen - s.responseLength) 0,
    s.values ++ List.replicate (maxLen - s.responseLength) 0)

theorem fullRows_shards (s : FullSample R) (maxLen : Nat) :
    fullRows cpRank maxLen (s.shards cpSize) = some (paddedRow maxLen s) := by
  have hvalues : allGatherWithCp cpRank (s.shards cpSize).values s.totalLength s.responseLength =
      some s.values := allGatherWithCp_cpShard s.length_values s.prompt cpRank
  have hrewards : allGatherWithCp cpRank (s.shards cpSize).rewards s.totalLength s.responseLength =
      some s.rewards := allGatherWithCp_cpShard s.length_rewards s.prompt cpRank
  simp only [fullRows]
  rw [show (s.shards cpSize).totalLength = s.totalLength from rfl,
    show (s.shards cpSize).responseLength = s.responseLength from rfl, hvalues, hrewards]
  simp [fillRow_eq s.length_values, fillRow_eq s.length_rewards, paddedRow]

/-- What a rank keeps of the padded results are its slices of the plain ones. -/
theorem localPart_paddedRow (s : FullSample R) (maxLen : Nat) :
    let p := vanillaGae (paddedRow maxLen s).1 (paddedRow maxLen s).2 gamma lambd
    ((localPart cpRank (s.shards cpSize) (p.1.take s.responseLength)).bind fun advantages =>
        (localPart cpRank (s.shards cpSize) (p.2.take s.responseLength)).bind fun returns =>
          some (advantages, returns)) =
      some (s.gaeShard cpRank gamma lambd) := by
  intro p
  obtain ⟨hfst, hsnd⟩ := take_gae gamma lambd
    (s.length_rewards.trans s.length_values.symm) (maxLen - s.responseLength)
  obtain ⟨hadv, hret⟩ := length_vanillaGae s.rewards s.values gamma lambd
  rw [s.length_values] at hfst hsnd
  have hfst : p.1.take s.responseLength = (vanillaGae s.rewards s.values gamma lambd).1 := hfst
  have hsnd : p.2.take s.responseLength = (vanillaGae s.rewards s.values gamma lambd).2 := hsnd
  rw [hfst, hsnd, localPart_shards s (hadv.trans s.length_values),
    localPart_shards s (hret.trans s.length_values)]
  rfl

variable [DecidableEq R] {chunked : Bool}

/-- Every rank gets its slices of what the plain loop gives for each sample alone. -/
theorem getAdvantagesAndReturnsBatch_shards {samples : List (FullSample R)} (hne : samples ≠ []) :
    getAdvantagesAndReturnsBatch cpRank gamma lambd chunked
        (samples.map (FullSample.shards cpSize)) =
      some (samples.map (FullSample.gaeShard cpRank gamma lambd)) := by
  have hempty : samples.map (FullSample.shards cpSize) ≠ [] := by simpa using hne
  simp only [getAdvantagesAndReturnsBatch, guard, hempty, ne_eq, not_false_eq_true, if_true]
  set maxLen := ((samples.map (FullSample.shards cpSize)).map
    (·.responseLength)).foldl max 0
  have hrows : (samples.map (FullSample.shards cpSize)).mapM (fullRows cpRank maxLen) =
      some (samples.map (paddedRow maxLen)) := by
    rw [mapM_eq_some_iff, List.map_map, List.map_map]
    exact List.map_congr_left fun s _ => fullRows_shards s maxLen
  have hgae : ∀ s : FullSample R,
      (if chunked then chunkedGae (paddedRow maxLen s).1 (paddedRow maxLen s).2 gamma lambd 128
        else vanillaGae (paddedRow maxLen s).1 (paddedRow maxLen s).2 gamma lambd) =
        vanillaGae (paddedRow maxLen s).1 (paddedRow maxLen s).2 gamma lambd := by
    intro s
    have hlen : (paddedRow maxLen s).1.length = (paddedRow maxLen s).2.length := by
      simp [paddedRow, s.length_values, s.length_rewards]
    rw [chunkedGae_eq (by omega) hlen, ite_self]
  simp only [hrows, Option.bind_eq_bind, Option.bind_some, Option.pure_def, List.map_map,
    List.zip_map', Function.comp_def, hgae]
  rw [mapM_eq_some_iff, List.map_map, List.map_map]
  apply List.map_congr_left
  intro s _
  exact localPart_paddedRow s maxLen

/-- A response of three tokens behind a prompt of four. -/
def threeTokens : FullSample ℤ := ⟨7, 3, [4, 5, 6], [3, 1, 2], rfl, rfl, by decide⟩

theorem getAdvantagesAndReturnsBatch_shards_threeTokens :
    getAdvantagesAndReturnsBatch (1 : Fin 2) 1 2 true ([threeTokens].map (FullSample.shards 2)) =
      some ([threeTokens].map (FullSample.gaeShard (1 : Fin 2) 1 2)) :=
  getAdvantagesAndReturnsBatch_shards (List.cons_ne_nil threeTokens [])

end Belayer.Train
