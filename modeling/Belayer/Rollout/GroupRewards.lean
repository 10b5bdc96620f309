import Belayer.Framework.Centered
import Belayer.Framework.Marking
import Belayer.Framework.Ordered
import Belayer.Framework.ListPlaces
import Mathlib.Analysis.Real.Sqrt
import Mathlib.Data.List.Dedup

namespace Belayer.Rollout

open Belayer.Framework

inductive AdvantageEstimator where
  | grpo
  | gspo
  | reinforcePlusPlusBaseline
  | other (name : String)
  deriving DecidableEq

structure RewardArgs where
  advantageEstimator : AdvantageEstimator
  rewardsNormalization : Bool
  grpoStdNormalization : Bool
  dynamicHistory : Bool
  nSamplesPerPrompt : Nat
  rolloutBatchSize : Nat

/-- What the normalization reads of a sample; `reward` is its reward value. -/
structure RewardSample (K : Type*) where
  groupIndex : Option Int
  index : Option Int
  reward : K

/-- The key of the trajectory of a sample at place `i`. -/
def RewardSample.key {K : Type*} (s : RewardSample K) (i : Nat) : Int × Int :=
  (s.groupIndex.getD (-1), s.index.getD i)

namespace RewardArgs

def isGroupRelative (args : RewardArgs) : Bool :=
  (args.advantageEstimator = .grpo || args.advantageEstimator = .gspo) && args.rewardsNormalization

end RewardArgs

-- `sqrt` is the square root of the arithmetic
variable {K : Type*} [Field K] (args : RewardArgs) (sqrt : K → K)

/-- `1e-6`, which keeps a standard deviation off zero. -/
def stdMargin (K : Type*) [Field K] : K := 1 / 1000000

/-- The values of one group, normalized. -/
def normalizeGroup (vals : List K) : List K :=
  let vals := vals.map fun x => x - mean vals
  if args.grpoStdNormalization then
    if 1 < vals.length then vals.map fun x => x / (sqrt (sampleVariance vals) + stdMargin K)
    else vals.map fun _ => 0
  else vals

/-- The two dicts that are built over the samples. -/
structure TrajectoryRewards (K : Type*) where
  trajRewardByKey : Dict (Int × Int) K
  groupToKeys : Dict Int (List (Int × Int))

/-- The first sample of a trajectory enters its reward. -/
def TrajectoryRewards.add (t : TrajectoryRewards K) (e : (Int × Int) × K) : TrajectoryRewards K :=
  if e.1 ∈ t.trajRewardByKey then t
  else ⟨t.trajRewardByKey.set e.1 e.2, t.groupToKeys.push e.1.1 e.1⟩

def TrajectoryRewards.collect (entries : List ((Int × Int) × K)) : TrajectoryRewards K :=
  entries.foldl .add ⟨∅, ∅⟩

/-- `normalized_by_key`. -/
def TrajectoryRewards.normalizedByKey (t : TrajectoryRewards K) : Dict (Int × Int) K :=
  t.groupToKeys.items.foldl
    (fun d e => d.setAll (e.2.zip
      (normalizeGroup args sqrt (e.2.map fun k => t.trajRewardByKey.getD k 0)))) ∅

/-- The normalization of one outcome per trajectory. -/
def trajectoryNormalized (entries : List ((Int × Int) × K)) : List K :=
  let normalizedByKey := (TrajectoryRewards.collect entries).normalizedByKey args sqrt
  entries.map fun e => normalizedByKey.getD e.1 0

/-- The normalization of the samples of each group; an entry has its group and its reward. -/
def sampleNormalized (entries : List (Int × K)) : List K :=
  let groupToIndices := Dict.groupBy (fun i => (entries[i]?).map Prod.fst) (List.range entries.length)
  let rawRewards := entries.map Prod.snd
  groupToIndices.items.foldl
    (fun rewards e =>
      (e.2.zip (normalizeGroup args sqrt (e.2.map fun i => rawRewards.getD i 0))).foldl
        (fun rewards p => rewards.set p.1 p.2) rewards) rawRewards

/-- The group norm of REINFORCE++; without whole groups, all samples are one. -/
def groupNorm (rawRewards : List K) : List K :=
  if rawRewards.length = args.nSamplesPerPrompt * args.rolloutBatchSize then
    (List.range args.rolloutBatchSize).flatMap fun i =>
      let group := (rawRewards.drop (i * args.nSamplesPerPrompt)).take args.nSamplesPerPrompt
      group.map fun x => x - mean group
  else rawRewards.map fun x => x - mean rawRewards

/-- `_post_process_rewards`: the raw rewards and those that are normalized. -/
def postProcessRewards (samples : List (RewardSample K)) : List K × List K :=
  let rawRewards := samples.map RewardSample.reward
  if args.isGroupRelative then
    if args.dynamicHistory then
      (rawRewards, trajectoryNormalized args sqrt
        (samples.zipIdx.map fun s => (s.1.key s.2, s.1.reward)))
    else
      (rawRewards, sampleNormalized args sqrt
        (samples.map fun s => (s.groupIndex.getD (-1), s.reward)))
  else if args.advantageEstimator = .reinforcePlusPlusBaseline ∧ args.rewardsNormalization then
    (rawRewards, groupNorm args rawRewards)
  else (rawRewards, rawRewards)

/-! One group -/

/-- The normalized value of one of the values of a group. -/
def scaled (vals : List K) (x : K) : K :=
  let centered := vals.map fun x => x - mean vals
  if args.grpoStdNormalization then
    if 1 < vals.length then (x - mean vals) / (sqrt (sampleVariance centered) + stdMargin K) else 0
  else x - mean vals

theorem normalizeGroup_eq (vals : List K) :
    normalizeGroup args sqrt vals = vals.map (scaled args sqrt vals) := by
  unfold normalizeGroup scaled
  dsimp only
  rw [List.length_map]
  split_ifs <;> simp [Function.comp_def]

theorem scaled_perm {vals vals' : List K} (h : vals.Perm vals') (x : K) :
    scaled args sqrt vals x = scaled args sqrt vals' x := by
  have hcentered : (vals.map fun x => x - mean vals).Perm (vals'.map fun x => x - mean vals') := by
    rw [mean_perm h]
    exact h.map _
  unfold scaled
  dsimp only
  rw [sampleVariance_perm hcentered, mean_perm h, h.length_eq]

theorem sum_map_scaled [CharZero K] (vals : List K) :
    (vals.map (scaled args sqrt vals)).sum = 0 := by
  unfold scaled
  dsimp only
  split_ifs
  · exact sum_map_sub_mean_div vals _
  · simp
  · exact sum_map_sub_mean vals

/-! The two paths in closed form -/

/-- The rewards of a group. -/
def groupVals {κ : Type*} (group : κ → Int) (entries : List (κ × K)) (g : Int) : List K :=
  (entries.filter fun e => group e.1 = g).map Prod.snd

/-- The first entry of each trajectory. -/
def trajectories (entries : List ((Int × Int) × K)) : List ((Int × Int) × K) :=
  keepFirst Prod.fst [] entries

variable {args sqrt} {entries : List ((Int × Int) × K)}

omit [Field K] in
theorem foldl_add (entries : List ((Int × Int) × K)) (t : TrajectoryRewards K)
    (seen : List (Int × Int)) (hseen : ∀ a, a ∈ t.trajRewardByKey ↔ a ∈ seen) :
    entries.foldl .add t =
      ⟨t.trajRewardByKey.setAll (keepFirst Prod.fst seen entries),
        (keepFirst Prod.fst seen entries).foldl (fun d e => d.push e.1.1 e.1) t.groupToKeys⟩ := by
  induction entries generalizing t seen with
  | nil => rfl
  | cons e entries ih =>
    rw [List.foldl_cons, keepFirst]
    by_cases he : e.1 ∈ seen
    · rw [if_pos he, TrajectoryRewards.add, if_pos ((hseen _).mpr he)]
      exact ih t seen hseen
    · rw [if_neg he, TrajectoryRewards.add, if_neg fun h => he ((hseen _).mp h)]
      refine ih _ _ fun a => ?_
      rw [Dict.mem_set, hseen, List.mem_cons]

omit [Field K] in
theorem collect_eq (entries : List ((Int × Int) × K)) :
    TrajectoryRewards.collect entries =
      ⟨(∅ : Dict _ _).setAll (trajectories entries),
        Dict.groupBy (fun k => some k.1) ((trajectories entries).map Prod.fst)⟩ := by
  rw [TrajectoryRewards.collect, foldl_add entries _ [] (by simp), Dict.groupBy,
    List.foldl_map]
  rfl

section Pairs

variable {κ : Type*} (args sqrt) (group : κ → Option Int) (val : κ → K) (ks : List κ)

/-- The normalized values of all groups, each under its key. -/
def normalizedPairs : List (κ × K) :=
  (Dict.groupBy group ks).items.flatMap fun e =>
    e.2.zip (normalizeGroup args sqrt (e.2.map val))

variable {group ks}

theorem items_groupBy {g : Int} {keys : List κ} (h : (g, keys) ∈ (Dict.groupBy group ks).items) :
    keys = ks.filter fun k => group k = some g := by
  rw [← Dict.getD_groupBy, Dict.getD, Dict.mem_items.mp h, Option.getD_some]

variable (group) in
theorem mem_normalizedPairs {k : κ} (hk : k ∈ ks) {g : Int} (hg : group k = some g) :
    (k, scaled args sqrt ((ks.filter fun k => group k = some g).map val) (val k)) ∈
      normalizedPairs args sqrt group val ks := by
  obtain ⟨keys, hkeys⟩ := Option.isSome_iff_exists.mp
    (AList.lookup_isSome.mpr (Dict.mem_groupBy.mpr ⟨k, hk, hg⟩))
  have hitem := Dict.mem_items.mpr hkeys
  refine List.mem_flatMap.mpr ⟨(g, keys), hitem, ?_⟩
  rw [normalizeGroup_eq, List.map_map, zip_map_self, ← items_groupBy hitem]
  refine List.mem_map_of_mem ?_
  rw [items_groupBy hitem, List.mem_filter]
  exact ⟨hk, decide_eq_true hg⟩

theorem keys_normalizedPairs :
    ((normalizedPairs args sqrt group val ks).map Prod.fst).Perm
      (ks.filter fun k => (group k).isSome) := by
  have hkeys : (normalizedPairs args sqrt group val ks).map Prod.fst =
      (Dict.groupBy group ks).items.flatMap Prod.snd := by
    rw [normalizedPairs, List.map_flatMap]
    congr 1
    funext e
    rw [normalizeGroup_eq, List.map_map, zip_map_self, List.map_map]
    exact List.map_id _
  rw [hkeys]
  exact Dict.perm_groupBy group ks

end Pairs

omit [Field K] in
theorem nodup_trajectories : ((trajectories entries).map Prod.fst).Nodup := nodup_keys_keepFirst

/-- What is looked up of a trajectory is its own normalized value. -/
theorem lookup_normalizedByKey {e : (Int × Int) × K} (he : e ∈ trajectories entries) :
    ((TrajectoryRewards.collect entries).normalizedByKey args sqrt).lookup e.1 =
      some (scaled args sqrt (groupVals Prod.fst (trajectories entries) e.1.1) e.2) := by
  have hreward : ∀ e ∈ trajectories entries,
      ((∅ : Dict _ _).setAll (trajectories entries)).getD e.1 0 = e.2 := by
    intro e he
    rw [Dict.getD, Dict.lookup_setAll_of_mem nodup_trajectories he, Option.getD_some]
  have hpairs := mem_normalizedPairs args sqrt (fun k : Int × Int => some k.1)
    (fun k => ((∅ : Dict _ _).setAll (trajectories entries)).getD k 0)
    (List.mem_map_of_mem (f := Prod.fst) he) rfl
  have hnodup : ((normalizedPairs args sqrt (fun k : Int × Int => some k.1)
      (fun k => ((∅ : Dict _ _).setAll (trajectories entries)).getD k 0)
      ((trajectories entries).map Prod.fst)).map Prod.fst).Nodup := by
    rw [(keys_normalizedPairs args sqrt _).nodup_iff]
    exact nodup_trajectories.filter _
  have hvals : (((trajectories entries).map Prod.fst).filter fun k => some k.1 = some e.1.1).map
      (fun k => ((∅ : Dict _ _).setAll (trajectories entries)).getD k 0) =
      groupVals Prod.fst (trajectories entries) e.1.1 := by
    rw [List.filter_map, List.map_map, groupVals]
    simp only [Function.comp_def, Option.some.injEq]
    exact List.map_congr_left fun e he => hreward e (List.mem_of_mem_filter he)
  rw [hvals, hreward e he] at hpairs
  have hlookup := Dict.lookup_setAll_of_mem hnodup hpairs ∅
  rw [TrajectoryRewards.normalizedByKey, collect_eq]
  rw [Dict.setAll, normalizedPairs, List.foldl_flatMap] at hlookup
  exact hlookup

/-- One reward for each trajectory. -/
def IsConsistent (entries : List ((Int × Int) × K)) : Prop :=
  ∀ e ∈ entries, ∀ e' ∈ entries, e.1 = e'.1 → e.2 = e'.2

omit [Field K] in
theorem mem_trajectories (h : IsConsistent entries) {e : (Int × Int) × K} :
    e ∈ trajectories entries ↔ e ∈ entries := by
  refine ⟨fun he => keepFirst_sublist.subset he, fun he => ?_⟩
  obtain ⟨c, hc, hkey⟩ := exists_mem_keepFirst Prod.fst he List.not_mem_nil
  have hreward := h c (keepFirst_sublist.subset hc) e he hkey
  rwa [← Prod.ext hkey hreward]

theorem trajectoryNormalized_eq (h : IsConsistent entries) :
    trajectoryNormalized args sqrt entries =
      entries.map fun e => scaled args sqrt (groupVals Prod.fst (trajectories entries) e.1.1) e.2 := by
  refine List.map_congr_left fun e he => ?_
  rw [Dict.getD, lookup_normalizedByKey ((mem_trajectories h).mpr he), Option.getD_some]

omit [Field K] in
/-- Lists of the same trajectories have the same groups up to their order. -/
theorem groupVals_perm {entries' : List ((Int × Int) × K)} (h : IsConsistent entries)
    (h' : IsConsistent entries') (hsame : ∀ e, e ∈ entries ↔ e ∈ entries') (g : Int) :
    (groupVals Prod.fst (trajectories entries) g).Perm
      (groupVals Prod.fst (trajectories entries') g) := by
  have hperm : (trajectories entries).Perm (trajectories entries') := by
    refine (List.perm_ext_iff_of_nodup nodup_trajectories.of_map nodup_trajectories.of_map).mpr
      fun e => ?_
    rw [mem_trajectories h, mem_trajectories h', hsame]
  exact (hperm.filter _).map _

/-! Lists with one sample for each place -/

omit [Field K] in
theorem filter_range_map (entries : List (Int × K)) (g : Int) (x : K) :
    ((List.range entries.length).filter fun i => (entries[i]?).map Prod.fst = some g).map
      (fun i => (entries.map Prod.snd).getD i x) = groupVals id entries g := by
  have hrange : (List.range entries.length).map (fun i => entries[i]?) = entries.map some := by
    refine List.ext_getElem (by simp) fun i hi _ => ?_
    simp at hi
    simp [hi]
  have hvals : ((List.range entries.length).map fun i => entries[i]?).filterMap (fun e =>
      e.bind fun e => if e.1 = g then some e.2 else none) = groupVals id entries g := by
    rw [hrange, List.filterMap_map, groupVals, ← List.filterMap_eq_map, List.filterMap_filter]
    refine List.filterMap_congr fun e _ => ?_
    by_cases hg : e.1 = g <;> simp [hg]
  rw [← hvals, List.filterMap_map, ← List.filterMap_eq_map, List.filterMap_filter]
  refine List.filterMap_congr fun i _ => ?_
  cases hentry : entries[i]? with
  | none => simp [hentry]
  | some e => by_cases hg : e.1 = g <;> simp [hentry, hg]

theorem sampleNormalized_eq (entries : List (Int × K)) :
    sampleNormalized args sqrt entries =
      entries.map fun e => scaled args sqrt (groupVals id entries e.1) e.2 := by
  have hpairs : sampleNormalized args sqrt entries =
      (normalizedPairs args sqrt (fun i => (entries[i]?).map Prod.fst)
        (fun i => (entries.map Prod.snd).getD i 0) (List.range entries.length)).foldl
          (fun rewards p => rewards.set p.1 p.2) (entries.map Prod.snd) := by
    rw [sampleNormalized, normalizedPairs, List.foldl_flatMap]
  have hnodup : ((normalizedPairs args sqrt (fun i => (entries[i]?).map Prod.fst)
      (fun i => (entries.map Prod.snd).getD i 0) (List.range entries.length)).map
        Prod.fst).Nodup := by
    rw [(keys_normalizedPairs args sqrt _).nodup_iff]
    exact List.nodup_range.filter _
  refine List.ext_getElem? fun i => ?_
  by_cases hi : i < entries.length
  · have hmem := mem_normalizedPairs args sqrt (fun i => (entries[i]?).map Prod.fst)
      (fun i => (entries.map Prod.snd).getD i 0) (List.mem_range.mpr hi) (g := entries[i].1)
      (by simp [hi])
    rw [filter_range_map] at hmem
    have hval : (entries.map Prod.snd).getD i 0 = entries[i].2 := by
      simp [List.getD_eq_getElem?_getD, hi]
    rw [hval] at hmem
    rw [hpairs, getElem?_foldl_set_of_mem hnodup hmem (by simpa using hi)]
    simp [hi]
  · rw [List.getElem?_eq_none (by rw [hpairs, length_foldl_set]; simpa using hi),
      List.getElem?_eq_none (by simpa using hi)]

/-! The samples -/

/-- The trajectory of a sample that has one. -/
def RewardSample.trajectory (s : RewardSample K) : Int × Int := s.key 0

/-- Each sample has a group and a trajectory. -/
def IsIndexed (samples : List (RewardSample K)) : Prop :=
  ∀ s ∈ samples, s.groupIndex.isSome ∧ s.index.isSome

/-- The samples of a trajectory have one raw reward. -/
def HasOutcomes (samples : List (RewardSample K)) : Prop :=
  ∀ s ∈ samples, ∀ t ∈ samples, s.trajectory = t.trajectory → s.reward = t.reward

/-- The lists have the same trajectories with the same rewards, in any order and each with any
number of samples. -/
def SameTrajectories (samples samples' : List (RewardSample K)) : Prop :=
  ∀ e, e ∈ samples.map (fun s => (s.trajectory, s.reward)) ↔
    e ∈ samples'.map fun s => (s.trajectory, s.reward)

variable {samples samples' : List (RewardSample K)}

omit [Field K] in
theorem zipIdx_key (h : IsIndexed samples) :
    (samples.zipIdx.map fun s => (s.1.key s.2, s.1.reward)) =
      samples.map fun s => (s.trajectory, s.reward) := by
  refine List.ext_getElem (by simp) fun i hi _ => ?_
  simp only [List.length_map, List.length_zipIdx] at hi
  obtain ⟨index, hindex⟩ := Option.isSome_iff_exists.mp (h samples[i] (List.getElem_mem hi)).2
  simp [RewardSample.trajectory, RewardSample.key, hindex]

omit [Field K] in
theorem HasOutcomes.isConsistent (h : HasOutcomes samples) :
    IsConsistent (samples.map fun s => (s.trajectory, s.reward)) := by
  intro e he e' he' hkey
  obtain ⟨s, hs, rfl⟩ := List.mem_map.mp he
  obtain ⟨t, ht, rfl⟩ := List.mem_map.mp he'
  exact h s hs t ht hkey

omit [Field K] in
theorem SameTrajectories.isConsistent (hsame : SameTrajectories samples samples')
    (h : HasOutcomes samples) : IsConsistent (samples'.map fun s => (s.trajectory, s.reward)) :=
  fun e he e' he' hkey => h.isConsistent e ((hsame e).mpr he) e' ((hsame e').mpr he') hkey

/-- The value of a trajectory: its reward, normalized in its group. -/
def trajectoryValue (args : RewardArgs) (sqrt : K → K) (samples : List (RewardSample K))
    (k : Int × Int) : K :=
  let entries := samples.map fun s => (s.trajectory, s.reward)
  scaled args sqrt (groupVals Prod.fst (trajectories entries) k.1)
    (((entries.find? fun e => e.1 = k).map Prod.snd).getD 0)

theorem trajectoryValue_of_mem (h : HasOutcomes samples) {e : (Int × Int) × K}
    (he : e ∈ samples.map fun s => (s.trajectory, s.reward)) :
    trajectoryValue args sqrt samples e.1 = scaled args sqrt (groupVals Prod.fst
      (trajectories (samples.map fun s => (s.trajectory, s.reward))) e.1.1) e.2 := by
  unfold trajectoryValue
  dsimp only
  obtain ⟨c, hc⟩ : ∃ c, (samples.map fun s => (s.trajectory, s.reward)).find?
      (fun c => c.1 = e.1) = some c := by
    rw [← Option.isSome_iff_exists, List.find?_isSome]
    exact ⟨e, he, decide_eq_true rfl⟩
  have hkey : c.1 = e.1 := by simpa using List.find?_some hc
  rw [hc, Option.map_some, Option.getD_some,
    h.isConsistent c (List.mem_of_find?_eq_some hc) e he hkey]

/-- With dynamic history each sample gets the value of its trajectory, whatever list of the same
trajectories it stands in. -/
theorem postProcessRewards_dynamic (hargs : args.isGroupRelative = true)
    (hdynamic : args.dynamicHistory = true) (h : HasOutcomes samples)
    (hindexed : IsIndexed samples') (hsame : SameTrajectories samples samples') :
    (postProcessRewards args sqrt samples').2 =
      samples'.map fun s => trajectoryValue args sqrt samples s.trajectory := by
  have hconsistent := hsame.isConsistent h
  rw [postProcessRewards, if_pos hargs, if_pos hdynamic]
  dsimp only
  rw [zipIdx_key hindexed, trajectoryNormalized_eq hconsistent, List.map_map]
  refine List.map_congr_left fun s hs => ?_
  have hmem := (hsame _).mpr (List.mem_map_of_mem (f := fun s => (s.trajectory, s.reward)) hs)
  have hvalue : trajectoryValue args sqrt samples s.trajectory = _ := trajectoryValue_of_mem h hmem
  rw [hvalue]
  exact (scaled_perm args sqrt (groupVals_perm h.isConsistent hconsistent hsame _) _).symm

/-- The values of the trajectories of a group cancel. -/
theorem sum_trajectoryValue [CharZero K] (h : HasOutcomes samples) (g : Int) :
    (((samples.map RewardSample.trajectory).dedup.filter fun k => k.1 = g).map
      (trajectoryValue args sqrt samples)).sum = 0 := by
  set entries := samples.map fun s => (s.trajectory, s.reward) with hentries
  have hkeys : ((samples.map RewardSample.trajectory).dedup).Perm
      ((trajectories entries).map Prod.fst) := by
    refine (List.perm_ext_iff_of_nodup (List.nodup_dedup _) nodup_trajectories).mpr fun k => ?_
    rw [List.mem_dedup, List.mem_map, List.mem_map]
    constructor
    · rintro ⟨s, hs, rfl⟩
      exact ⟨(s.trajectory, s.reward),
        (mem_trajectories h.isConsistent).mpr (List.mem_map_of_mem hs), rfl⟩
    · rintro ⟨e, he, rfl⟩
      obtain ⟨s, hs, rfl⟩ := List.mem_map.mp ((mem_trajectories h.isConsistent).mp he)
      exact ⟨s, hs, rfl⟩
  have hvals : (((trajectories entries).map Prod.fst).filter fun k => k.1 = g).map
      (trajectoryValue args sqrt samples) =
        (groupVals Prod.fst (trajectories entries) g).map
          (scaled args sqrt (groupVals Prod.fst (trajectories entries) g)) := by
    rw [List.filter_map, List.map_map, groupVals, List.map_map]
    refine List.map_congr_left fun e he => ?_
    obtain ⟨hmem, hg⟩ := List.mem_filter.mp he
    have hgroup : e.1.1 = g := by simpa using hg
    have hvalue : trajectoryValue args sqrt samples e.1 = _ :=
      trajectoryValue_of_mem h ((mem_trajectories h.isConsistent).mp hmem)
    rw [Function.comp_apply, hvalue, hgroup]
    rfl
  rw [((hkeys.filter _).map _).sum_eq, hvals, sum_map_scaled]

omit [Field K] in
/-- One sample for each trajectory: the trajectories are the samples. -/
theorem trajectories_of_nodup {entries : List ((Int × Int) × K)}
    (h : (entries.map Prod.fst).Nodup) : trajectories entries = entries := by
  have hkeep : ∀ (l : List ((Int × Int) × K)) (seen : List (Int × Int)),
      (∀ e ∈ l, e.1 ∉ seen) → (l.map Prod.fst).Nodup → keepFirst Prod.fst seen l = l := by
    intro l
    induction l with
    | nil => intros; rfl
    | cons e l ih =>
      intro seen hseen hn
      rw [List.map_cons, List.nodup_cons] at hn
      rw [keepFirst, if_neg (hseen e List.mem_cons_self), ih]
      · intro c hc
        rw [List.mem_cons, not_or]
        refine ⟨fun heq => hn.1 ?_, hseen c (List.mem_cons_of_mem _ hc)⟩
        rw [← heq]
        exact List.mem_map_of_mem hc
      · exact hn.2
  exact hkeep entries [] (by simp) h

/-- With one sample for each trajectory the two paths agree. -/
theorem postProcessRewards_plain (hargs : args.isGroupRelative = true)
    (hindexed : IsIndexed samples) (hsingle : (samples.map RewardSample.trajectory).Nodup) :
    (postProcessRewards { args with dynamicHistory := false } sqrt samples).2 =
      (postProcessRewards { args with dynamicHistory := true } sqrt samples).2 := by
  have hkeys : ((samples.map fun s => (s.trajectory, s.reward)).map Prod.fst).Nodup := by
    rwa [List.map_map]
  have hconsistent : IsConsistent (samples.map fun s => (s.trajectory, s.reward)) :=
    fun e he e' he' hkey => congrArg Prod.snd (List.inj_on_of_nodup_map hkeys he he' hkey)
  have hvals : ∀ g, groupVals id (samples.map fun s => (s.groupIndex.getD (-1), s.reward)) g =
      groupVals Prod.fst (samples.map fun s => (s.trajectory, s.reward)) g := by
    intro g
    simp only [groupVals, List.filter_map, List.map_map]
    rfl
  have hplain : (postProcessRewards { args with dynamicHistory := false } sqrt samples).2 =
      sampleNormalized args sqrt (samples.map fun s => (s.groupIndex.getD (-1), s.reward)) := by
    rw [postProcessRewards, if_pos (by exact hargs), if_neg Bool.false_ne_true]
    rfl
  have hdynamic : (postProcessRewards { args with dynamicHistory := true } sqrt samples).2 =
      trajectoryNormalized args sqrt (samples.map fun s => (s.trajectory, s.reward)) := by
    rw [postProcessRewards, if_pos (by exact hargs), if_pos rfl, zipIdx_key hindexed]
    rfl
  rw [hplain, hdynamic, sampleNormalized_eq, trajectoryNormalized_eq hconsistent,
    trajectories_of_nodup hkeys, List.map_map, List.map_map]
  refine List.map_congr_left fun s _ => ?_
  simp only [Function.comp_apply, hvals]
  rfl

/-- With dynamic history, group-relative rewards are those of the trajectories: each sample has the
value of its trajectory in every list of the same trajectories, the values of a group cancel, and
lists with one sample for each trajectory are treated as without dynamic history. -/
theorem rewards_groupRelative [CharZero K] (args : RewardArgs) (sqrt : K → K)
    (hargs : args.isGroupRelative = true) (samples : List (RewardSample K))
    (hindexed : IsIndexed samples) (h : HasOutcomes samples) :
    ∃ value : Int × Int → K,
      (∀ samples', IsIndexed samples' → SameTrajectories samples samples' →
        (postProcessRewards { args with dynamicHistory := true } sqrt samples').2 =
          samples'.map fun s => value s.trajectory) ∧
      (∀ g, (((samples.map RewardSample.trajectory).dedup.filter fun k => k.1 = g).map value).sum =
        0) ∧
      ((samples.map RewardSample.trajectory).Nodup →
        (postProcessRewards { args with dynamicHistory := false } sqrt samples).2 =
          (postProcessRewards { args with dynamicHistory := true } sqrt samples).2) := by
  refine ⟨trajectoryValue { args with dynamicHistory := true } sqrt samples, ?_, ?_, ?_⟩
  · intro samples' hindexed' hsame
    exact postProcessRewards_dynamic (by exact hargs) rfl h hindexed' hsame
  · exact sum_trajectoryValue h
  · exact postProcessRewards_plain hargs hindexed

def groupArgs : RewardArgs := ⟨.grpo, true, true, true, 2, 1⟩

/-- Two trajectories of one task, the first with two steps. -/
def twoTrajectories (K : Type*) [Field K] : List (RewardSample K) :=
  [⟨some 0, some 0, 1⟩, ⟨some 0, some 1, -1⟩, ⟨some 0, some 0, 1⟩]

theorem rewards_groupRelative_twoTrajectories :
    ∃ value : Int × Int → ℝ,
      (∀ samples', IsIndexed samples' → SameTrajectories (twoTrajectories ℝ) samples' →
        (postProcessRewards groupArgs Real.sqrt samples').2 =
          samples'.map fun s => value s.trajectory) ∧
      (∀ g, ((((twoTrajectories ℝ).map RewardSample.trajectory).dedup.filter fun k =>
        k.1 = g).map value).sum = 0) ∧
      (((twoTrajectories ℝ).map RewardSample.trajectory).Nodup →
        (postProcessRewards { groupArgs with dynamicHistory := false } Real.sqrt
            (twoTrajectories ℝ)).2 =
          (postProcessRewards groupArgs Real.sqrt (twoTrajectories ℝ)).2) :=
  rewards_groupRelative groupArgs Real.sqrt rfl (twoTrajectories ℝ)
    (by simp [IsIndexed, twoTrajectories])
    (by simp [HasOutcomes, twoTrajectories, RewardSample.trajectory, RewardSample.key])

end Belayer.Rollout
