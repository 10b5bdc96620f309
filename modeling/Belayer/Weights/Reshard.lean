import Belayer.Framework.Traverse
import Belayer.Weights.Pipeline

namespace Belayer.Weights

open Belayer.Framework

variable {α : Type} {tp pp : Nat} {name : String} {tpShards : List (Tensor α)}
  {sharded out : List (TensorDict α)}

/-- The weights of a rank. -/
def shardOf (sharded : List (TensorDict α)) (tp ppRank tpRank : Nat) : TensorDict α :=
  sharded.getD (ppRank * tp + tpRank) ∅

theorem shardIndex_lt {ppRank tpRank : Nat} (hp : ppRank < pp) (ht : tpRank < tp) :
    ppRank * tp + tpRank < tp * pp := by
  calc ppRank * tp + tpRank < ppRank * tp + tp := Nat.add_lt_add_left ht _
    _ = (ppRank + 1) * tp := (Nat.succ_mul ppRank tp).symm
    _ ≤ pp * tp := Nat.mul_le_mul_right tp hp
    _ = tp * pp := Nat.mul_comm pp tp

theorem shardIndex_inj {p q r k : Nat} (hr : r < tp) (hk : k < tp)
    (h : p * tp + r = q * tp + k) : p = q ∧ r = k := by
  have htp : 0 < tp := Nat.lt_of_le_of_lt (Nat.zero_le r) hr
  have hp : (p * tp + r) / tp = p := by
    rw [Nat.mul_comm, Nat.mul_add_div htp, Nat.div_eq_of_lt hr, Nat.add_zero]
  have hq : (q * tp + k) / tp = q := by
    rw [Nat.mul_comm, Nat.mul_add_div htp, Nat.div_eq_of_lt hk, Nat.add_zero]
  have hpq : p = q := by rw [← hp, h, hq]
  subst hpq
  exact ⟨rfl, Nat.add_left_cancel h⟩

theorem getD_modify {β : Type} (l : List β) (i j : Nat) (f : β → β) (b : β) (hi : i < l.length) :
    (l.modify i f).getD j b = if i = j then f (l.getD j b) else l.getD j b := by
  rw [List.getD_eq_getElem?_getD, List.getElem?_modify, List.getD_eq_getElem?_getD]
  by_cases h : i = j
  · subst h
    simp [List.getElem?_eq_getElem hi]
  · simp [h]

/-- One rank gets its shard, and the others keep what they have. -/
theorem assignShard_spec {q k : Nat} (h : assignShard tp name tpShards q sharded k = some out)
    (hsize : sharded.length = tp * pp) (hq : q < pp) (hk : k < tp) :
    out.length = tp * pp ∧ ∀ p r other, r < tp →
      (shardOf out tp p r).lookup other =
        if other = name ∧ p = q ∧ r = k then tpShards[r]?
        else (shardOf sharded tp p r).lookup other := by
  unfold assignShard at h
  obtain ⟨shard, hshard, rfl⟩ := Option.map_eq_some_iff.mp h
  refine ⟨by rw [List.length_modify, hsize], fun p r other hr => ?_⟩
  have hlt : q * tp + k < sharded.length := by
    rw [hsize]
    exact shardIndex_lt hq hk
  unfold shardOf
  rw [getD_modify _ _ _ _ _ hlt]
  by_cases hindex : q * tp + k = p * tp + r
  · obtain ⟨rfl, rfl⟩ := shardIndex_inj hk hr hindex
    rw [if_pos rfl, Dict.lookup_set_ite, hshard]
    simp
  · have hne : ¬(other = name ∧ p = q ∧ r = k) := by
      rintro ⟨-, rfl, rfl⟩
      exact hindex rfl
    rw [if_neg hindex, if_neg hne]

/-- The ranks of one pipeline rank get their shards. -/
theorem assignShard_ranks {q : Nat} (hq : q < pp) {k : Nat} (hk : k ≤ tp)
    (hsize : sharded.length = tp * pp)
    (h : (List.range k).foldlM (assignShard tp name tpShards q) sharded = some out) :
    out.length = tp * pp ∧ ∀ p r other, r < tp →
      (shardOf out tp p r).lookup other =
        if other = name ∧ p = q ∧ r < k then tpShards[r]?
        else (shardOf sharded tp p r).lookup other := by
  induction k generalizing out with
  | zero =>
    cases h
    exact ⟨hsize, fun p r other _ => by simp⟩
  | succ k ih =>
    rw [List.range_succ, List.foldlM_append] at h
    obtain ⟨middle, hmiddle, hlast⟩ := Option.bind_eq_some_iff.mp h
    obtain ⟨hlength, hearlier⟩ := ih (Nat.le_of_succ_le hk) hmiddle
    rw [List.foldlM_cons] at hlast
    obtain ⟨next, hnext, hend⟩ := Option.bind_eq_some_iff.mp hlast
    cases hend
    obtain ⟨hlength', hspec⟩ := assignShard_spec hnext hlength hq hk
    refine ⟨hlength', fun p r other hr => ?_⟩
    rw [hspec p r other hr, hearlier p r other hr]
    by_cases hplace : other = name ∧ p = q
    · obtain ⟨rfl, rfl⟩ := hplace
      by_cases hrk : r = k
      · subst hrk
        simp
      · by_cases hlt : r < k
        · simp [hrk, hlt, Nat.lt_succ_of_lt hlt]
        · have hge : ¬r < k + 1 := by omega
          simp [hrk, hlt, hge]
    · have hne : ∀ P : Prop, ¬(other = name ∧ p = q ∧ P) := fun P hP =>
        hplace ⟨hP.1, hP.2.1⟩
      rw [if_neg (hne _), if_neg (hne _), if_neg (hne _)]

/-- A tensor's shards are at its pipeline ranks, each at its tensor rank. -/
theorem assignShards_spec {ppRanks : List Nat} (hranks : ∀ q ∈ ppRanks, q < pp)
    (hsize : sharded.length = tp * pp) (h : assignShards tp name tpShards ppRanks sharded = some out) :
    out.length = tp * pp ∧ ∀ p r other, r < tp →
      (shardOf out tp p r).lookup other =
        if other = name ∧ p ∈ ppRanks then tpShards[r]?
        else (shardOf sharded tp p r).lookup other := by
  unfold assignShards at h
  induction ppRanks generalizing sharded with
  | nil =>
    cases h
    exact ⟨hsize, fun p r other _ => by simp⟩
  | cons q ppRanks ih =>
    obtain ⟨hq, hrest⟩ := List.forall_mem_cons.mp hranks
    rw [List.foldlM_cons] at h
    obtain ⟨next, hnext, hend⟩ := Option.bind_eq_some_iff.mp h
    obtain ⟨hlength, hfirst⟩ := assignShard_ranks hq (Nat.le_refl tp) hsize hnext
    obtain ⟨hlength', hspec⟩ := ih hrest hlength hend
    refine ⟨hlength', fun p r other hr => ?_⟩
    rw [hspec p r other hr, hfirst p r other hr]
    by_cases hname : other = name
    · by_cases hp : p ∈ ppRanks
      · simp [hname, hp]
      · by_cases hpq : p = q <;> simp [hname, hp, hpq, hr]
    · simp [hname]

/-- There is a shard for each rank. -/
def IsSplit (tpSize : Nat) (shards : Option (List (Tensor α))) : Prop :=
  ∃ l, shards = some l ∧ l.length = tpSize

theorem IsSplit.ite {c : Prop} [Decidable c] {s t : Option (List (Tensor α))}
    (hs : c → IsSplit tp s) (ht : ¬c → IsSplit tp t) : IsSplit tp (if c then s else t) := by
  split_ifs with h
  · exact hs h
  · exact ht h

theorem exists_assignShards (hlength : tpShards.length = tp) (ppRanks : List Nat)
    (sharded : List (TensorDict α)) :
    ∃ out, assignShards tp name tpShards ppRanks sharded = some out := by
  refine exists_foldlM (fun ppRank _ sharded => ?_) sharded
  refine exists_foldlM (fun tpRank htpRank sharded => ?_) sharded
  have hlt : tpRank < tpShards.length := by
    rw [hlength]
    exact List.mem_range.mp htpRank
  unfold assignShard
  rw [List.getElem?_eq_getElem hlt]
  exact ⟨_, rfl⟩

section Loop

variable {lower : String → String} {config : ShardConfig} {boundaries : List (Int × Int)}

/-- A rank's shard of a tensor, where the tensor is cut. -/
def rankShard (lower : String → String) (tp : Nat) (config : ShardConfig) (e : String × Tensor α)
    (tpRank : Nat) : Option (Tensor α) := do
  (← shardForTp lower e.1 e.2 tp config.numHeads config.numKvHeads config.hiddenSize
    config.headDim)[tpRank]?

theorem targetPpRanks_lt (name : String) :
    ∀ rank ∈ targetPpRanks boundaries name, rank < boundaries.length := by
  intro rank hrank
  unfold targetPpRanks at hrank
  cases hid : getLayerId name with
  | none =>
    rw [hid] at hrank
    exact List.mem_range.mp hrank
  | some layer =>
    rw [hid] at hrank
    obtain ⟨hlt, -⟩ := List.findIdx?_eq_some_iff_getElem.mp (Option.mem_toList.mp hrank)
    exact hlt

/-- A tensor of a layer is at one pipeline rank. -/
theorem targetPpRanks_unique {layer p q : Nat} (hid : getLayerId name = some layer)
    (hp : p ∈ targetPpRanks boundaries name) (hq : q ∈ targetPpRanks boundaries name) : p = q := by
  rw [targetPpRanks, hid] at hp hq
  exact Option.some.inj ((Option.mem_toList.mp hp).symm.trans (Option.mem_toList.mp hq))

/-- A tensor without a layer is at every pipeline rank. -/
theorem mem_targetPpRanks_of_none (hid : getLayerId name = none) {p : Nat} :
    p ∈ targetPpRanks boundaries name ↔ p < boundaries.length := by
  rw [targetPpRanks, hid]
  exact List.mem_range

/-- A turn of the loop assigns a tensor's shards to its ranks. -/
theorem reshardTensor_spec {e : String × Tensor α} (hpp : boundaries.length = pp)
    (hsize : sharded.length = tp * pp)
    (h : reshardTensor lower tp config boundaries sharded e = some out) :
    out.length = tp * pp ∧ ∀ p r other, r < tp →
      (shardOf out tp p r).lookup other =
        if other = e.1 ∧ p ∈ targetPpRanks boundaries e.1 then rankShard lower tp config e r
        else (shardOf sharded tp p r).lookup other := by
  unfold reshardTensor at h
  dsimp only at h
  split_ifs at h with hnil
  · cases h
    exact ⟨hsize, fun p r other _ => by simp [hnil]⟩
  · obtain ⟨tpShards, hshards, hassign⟩ := Option.bind_eq_some_iff.mp h
    have hranks : ∀ rank ∈ targetPpRanks boundaries e.1, rank < boundaries.length :=
      targetPpRanks_lt e.1
    rw [hpp] at hranks
    obtain ⟨hlength, hspec⟩ := assignShards_spec hranks hsize hassign
    refine ⟨hlength, fun p r other hr => ?_⟩
    rw [hspec p r other hr, rankShard, hshards]
    rfl

/-- After the loop each tensor's shards are at its ranks, and at no other. -/
theorem reshardTensors_spec {items : NamedTensors α} (hnodup : (items.map Prod.fst).Nodup)
    (hpp : boundaries.length = pp) (hsize : sharded.length = tp * pp)
    (h : items.foldlM (reshardTensor lower tp config boundaries) sharded = some out) :
    out.length = tp * pp ∧ ∀ p r, r < tp →
      (∀ other, other ∉ items.map Prod.fst →
        (shardOf out tp p r).lookup other = (shardOf sharded tp p r).lookup other) ∧
      ∀ e ∈ items, (shardOf out tp p r).lookup e.1 =
        if p ∈ targetPpRanks boundaries e.1 then rankShard lower tp config e r
        else (shardOf sharded tp p r).lookup e.1 := by
  induction items generalizing sharded with
  | nil =>
    cases h
    exact ⟨hsize, fun p r _ => ⟨fun _ _ => rfl, fun e he => absurd he List.not_mem_nil⟩⟩
  | cons e items ih =>
    rw [List.map_cons, List.nodup_cons] at hnodup
    rw [List.foldlM_cons] at h
    obtain ⟨next, hnext, hrest⟩ := Option.bind_eq_some_iff.mp h
    obtain ⟨hlength, hfirst⟩ := reshardTensor_spec hpp hsize hnext
    obtain ⟨hlength', hspec⟩ := ih hnodup.2 hlength hrest
    refine ⟨hlength', fun p r hr => ⟨fun other hother => ?_, fun e' he' => ?_⟩⟩
    · rw [List.map_cons, List.mem_cons, not_or] at hother
      rw [(hspec p r hr).1 other hother.2, hfirst p r other hr, if_neg fun hc => hother.1 hc.1]
    · rcases List.mem_cons.mp he' with rfl | hmem
      · rw [(hspec p r hr).1 e'.1 hnodup.1, hfirst p r e'.1 hr]
        simp only [true_and]
      · have hne : e'.1 ≠ e.1 := by
          intro heq
          exact hnodup.1 (heq ▸ List.mem_map_of_mem hmem)
        have hother : ¬(e'.1 = e.1 ∧ p ∈ targetPpRanks boundaries e.1) := fun hc => hne hc.1
        rw [(hspec p r hr).2 e' hmem, hfirst p r e'.1 hr, if_neg hother]

/-- Over more than one rank a rank has its shards of the tensors that are its. -/
theorem shardWeights_spec {packed : TensorDict α} (hranks : ¬(tp = 1 ∧ pp = 1))
    (h : shardWeights lower tp pp packed config = some out) :
    ∃ numLayers, number config.numLayers = some numLayers ∧ out.length = tp * pp ∧
      ∀ p < pp, ∀ r < tp, ∀ name, (shardOf out tp p r).lookup name =
        if p ∈ targetPpRanks (computePpBoundaries numLayers pp) name then
          (packed.lookup name).bind fun t => rankShard lower tp config (name, t) r
        else none := by
  rw [shardWeights, if_neg hranks] at h
  obtain ⟨numLayers, hnumber, h⟩ := Option.bind_eq_some_iff.mp h
  have hempty : ∀ p < pp, ∀ r < tp, ∀ name,
      (shardOf (List.replicate (tp * pp) (∅ : TensorDict α)) tp p r).lookup name = none := by
    intro p hp r hr name
    unfold shardOf
    rw [List.getD_eq_getElem?_getD, List.getElem?_replicate_of_lt (shardIndex_lt hp hr)]
    rfl
  obtain ⟨hlength, hspec⟩ := reshardTensors_spec packed.nodup_items
    (length_computePpBoundaries numLayers pp) List.length_replicate h
  refine ⟨numLayers, hnumber, hlength, fun p hp r hr name => ?_⟩
  cases hname : packed.lookup name with
  | none =>
    have hnot : name ∉ packed.items.map Prod.fst := by
      rw [Dict.map_fst_items]
      exact AList.lookup_eq_none.mp hname
    rw [(hspec p r hr).1 name hnot, hempty p hp r hr name]
    simp
  | some t =>
    rw [(hspec p r hr).2 (name, t) (Dict.mem_items.mpr hname), hempty p hp r hr name]
    rfl

/-- Sharding does not raise where each tensor has a shard for each rank. -/
theorem exists_shardWeights {packed : TensorDict α} {numLayers : Int}
    (hlayers : number config.numLayers = some numLayers)
    (hsplit : ∀ name t, packed.lookup name = some t → IsSplit tp (shardForTp lower name t tp
      config.numHeads config.numKvHeads config.hiddenSize config.headDim)) :
    ∃ out, shardWeights lower tp pp packed config = some out := by
  unfold shardWeights
  split_ifs
  · exact ⟨_, rfl⟩
  · rw [hlayers]
    refine exists_foldlM (fun e he sharded => ?_) _
    obtain ⟨shards, hshards, hlength⟩ := hsplit e.1 e.2 (Dict.mem_items.mp he)
    unfold reshardTensor
    dsimp only
    split_ifs
    · exact ⟨_, rfl⟩
    · rw [hshards]
      exact exists_assignShards hlength _ sharded

end Loop

end Belayer.Weights
