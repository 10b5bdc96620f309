import Belayer.Weights.H2DBuckets
import Belayer.Weights.ReceiverRanks
import Belayer.Weights.UpdateProgress

namespace Belayer.Weights.Ps

open Belayer.Framework

/-! The plan of an update takes every registered tensor to every rank. -/

/-- The memory buffers of the ranks for a checkpoint and the tensors in them. -/
structure Registered (pool : Nat → List MemoryBuffer)
    (tensors : Nat → List (List (String × RawTensor))) : Prop where
  fits : ∀ i, ∀ b ∈ pool i, b.Fits
  read : ∀ i, (pool i).mapM MemoryBuffer.tensors = some (tensors i)

/-- A bucket with its owner delivers these tensors. -/
def OwnerDelivers (pool : Nat → List MemoryBuffer) (bucketSize : Nat) (b : Nat × H2DBucket)
    (load : List (String × RawTensor)) : Prop :=
  Delivers ((pool b.1).map MemoryBuffer.buffer) b.2 load ∧ b.2.size ≤ bucketSize

variable {pool : Nat → List MemoryBuffer} {tensors : Nat → List (List (String × RawTensor))}
  {bucketSize worldSize : Nat}

/-! The buckets -/

/-- The ranks that own memory buffers. -/
def ownersOf (pool : Nat → List MemoryBuffer) (worldSize : Nat) : List Nat :=
  (List.range worldSize).filter fun i => !(pool i).isEmpty

theorem items_gatherMetas (pool : Nat → List MemoryBuffer) (worldSize : Nat) :
    (gatherMetas pool worldSize).items =
      (ownersOf pool worldSize).map fun i => (i, (pool i).map MemoryBuffer.metas) := by
  have hkeys : (((ownersOf pool worldSize).map fun i =>
      (i, (pool i).map MemoryBuffer.metas)).map Prod.fst).Nodup := by
    rw [List.map_map]
    have hid : (Prod.fst ∘ fun i => (i, (pool i).map MemoryBuffer.metas)) = id := rfl
    rw [hid, List.map_id]
    exact List.nodup_range.filter _
  exact Dict.items_setAll_of_nodup hkeys fun a _ => AList.lookup_empty a

/-- Every tensor is counted in `max_tensor_bytes`. -/
theorem size_le_maxTensorBytes {i : Nat} (hi : i ∈ ownersOf pool worldSize) {m : MemoryBuffer}
    (hm : m ∈ pool i) {p : ParameterMeta} (hp : p ∈ m.metas) :
    p.size ≤ maxTensorBytes (gatherMetas pool worldSize) := by
  unfold maxTensorBytes
  rw [items_gatherMetas]
  refine List.le_max_of_le (List.mem_flatMap.mpr
    ⟨(i, (pool i).map MemoryBuffer.metas), List.mem_map_of_mem hi, List.mem_map_of_mem ?_⟩) le_rfl
  exact List.mem_flatten.mpr ⟨m.metas, List.mem_map_of_mem hm, hp⟩

theorem dvd_maxTensorBytes (globalMetas : Dict Nat (List (List ParameterMeta))) :
    256 ∣ maxTensorBytes globalMetas := by
  unfold maxTensorBytes
  have hall : ∀ n ∈ globalMetas.items.flatMap fun e => e.2.flatten.map ParameterMeta.size,
      256 ∣ n := by
    intro n hn
    obtain ⟨e, -, hn⟩ := List.mem_flatMap.mp hn
    obtain ⟨m, -, rfl⟩ := List.mem_map.mp hn
    exact dvd_alignSize m.dtype m.shape
  generalize (globalMetas.items.flatMap fun e => e.2.flatten.map ParameterMeta.size) = l at hall ⊢
  induction l with
  | nil => exact Nat.dvd_zero 256
  | cons n l ih =>
    obtain ⟨hn, hrest⟩ := List.forall_mem_cons.mp hall
    rw [List.foldr_cons]
    rcases Nat.le_total n (l.foldr max 0) with hle | hle
    · rw [Nat.max_eq_right hle]
      exact ih hrest
    · rwa [Nat.max_eq_left hle]

/-- A size of buckets that has been detected is aligned and has room for every tensor; the buffer
and the h2d buffer of a rank then fit into the free memory. -/
theorem detectBucketSize_spec {freeBytes maxBytes gb : Nat} {disable disabled : Bool}
    (hmax : 256 ∣ maxBytes)
    (h : detectBucketSize freeBytes maxBytes gb disable = some (bucketSize, disabled)) :
    256 ∣ bucketSize ∧ maxBytes ≤ bucketSize ∧
      2 * bucketSize + (if disabled then 0 else bucketSize) ≤ freeBytes := by
  have hgb : 256 ∣ gb * 2 ^ 30 := Dvd.dvd.mul_left (by decide) gb
  have hmaxs : 256 ∣ max (gb * 2 ^ 30) maxBytes := by
    rcases Nat.le_total (gb * 2 ^ 30) maxBytes with hle | hle
    · rwa [Nat.max_eq_right hle]
    · rwa [Nat.max_eq_left hle]
  have hmin : ∀ n, 256 ∣ n → 256 ∣ min (max (gb * 2 ^ 30) maxBytes) n := by
    intro n hn
    rcases Nat.le_total (max (gb * 2 ^ 30) maxBytes) n with hle | hle
    · rwa [Nat.min_eq_left hle]
    · rwa [Nat.min_eq_right hle]
  unfold detectBucketSize at h
  dsimp only at h
  split_ifs at h with hthird hhalf
  · obtain ⟨rfl, rfl⟩ := Prod.mk.inj (Option.some.inj h)
    have hdisabled : disable = false := by simpa using hthird.2
    refine ⟨hmin _ (Nat.dvd_mul_left _ _), Nat.le_min.mpr ⟨Nat.le_max_right _ _, hthird.1⟩, ?_⟩
    have hle := Nat.min_le_right (max (gb * 2 ^ 30) maxBytes) (freeBytes / (3 * 256) * 256)
    rw [hdisabled]
    simp only [Bool.false_eq_true, if_false]
    omega
  · obtain ⟨rfl, rfl⟩ := Prod.mk.inj (Option.some.inj h)
    refine ⟨hmin _ (Nat.dvd_mul_left _ _), Nat.le_min.mpr ⟨Nat.le_max_right _ _, hhalf⟩, ?_⟩
    have hle := Nat.min_le_right (max (gb * 2 ^ 30) maxBytes) (freeBytes / (2 * 256) * 256)
    simp only [if_true]
    omega

theorem flatMap_filter_of_nil {α β : Type*} {l : List α} {p : α → Bool} {f : α → List β}
    (h : ∀ a ∈ l, p a = false → f a = []) : (l.filter p).flatMap f = l.flatMap f := by
  induction l with
  | nil => rfl
  | cons a l ih =>
    obtain ⟨ha, hl⟩ := List.forall_mem_cons.mp h
    rw [List.flatMap_cons, ← ih hl, List.filter_cons]
    cases hp : p a with
    | false => rw [if_neg (by simp), ha hp, List.nil_append]
    | true => rw [if_pos rfl, List.flatMap_cons]

/-- The buckets of all owners deliver the tensors of all of them. -/
theorem owned_delivers (hreg : Registered pool tensors) {is : List Nat}
    (hfit : ∀ i ∈ is, ∀ m ∈ pool i, ∀ p ∈ m.metas, p.size ≤ bucketSize)
    {owned : List (List (Nat × H2DBucket))}
    (h : (is.map fun i => (i, (pool i).map MemoryBuffer.metas)).mapM (fun e =>
      (ownerBuckets bucketSize e.2).map fun buckets => buckets.map fun b => (e.1, b)) =
        some owned) :
    (∀ b ∈ owned.flatten, b.1 ∈ is) ∧
      ∃ loads, List.Forall₂ (OwnerDelivers pool bucketSize) owned.flatten loads ∧
        loads.flatten = is.flatMap fun i => (tensors i).flatten := by
  induction is generalizing owned with
  | nil =>
    rw [List.map_nil, List.mapM_nil] at h
    cases h
    exact ⟨fun _ h => absurd h List.not_mem_nil, [], .nil, rfl⟩
  | cons i is ih =>
    obtain ⟨hi, his⟩ := List.forall_mem_cons.mp hfit
    rw [List.map_cons, List.mapM_cons] at h
    obtain ⟨first, hfirst, h⟩ := Option.bind_eq_some_iff.mp h
    obtain ⟨rest, hrest, he⟩ := Option.bind_eq_some_iff.mp h
    cases he
    obtain ⟨buckets, hbuckets, rfl⟩ := Option.map_eq_some_iff.mp hfirst
    obtain ⟨hsizes, loads₁, hloads₁, hflat₁⟩ :=
      delivers_of_ownerBuckets (hreg.fits i) (hreg.read i) hi hbuckets
    obtain ⟨hmem, loads₂, hloads₂, hflat₂⟩ := ih his hrest
    refine ⟨fun b hb => ?_, loads₁ ++ loads₂, ?_, ?_⟩
    · rw [List.flatten_cons, List.mem_append] at hb
      rcases hb with hb | hb
      · obtain ⟨b', -, rfl⟩ := List.mem_map.mp hb
        exact List.mem_cons_self
      · exact List.mem_cons_of_mem i (hmem b hb)
    · rw [List.flatten_cons]
      refine List.rel_append (List.forall₂_map_left_iff.mpr ?_) hloads₂
      exact forall₂_imp_of_mem hloads₁ fun b hb load hdel => ⟨hdel, hsizes b hb⟩
    · rw [List.flatten_append, hflat₁, hflat₂, List.flatMap_cons]

/-- The receivers are among the ranks that the local topology is cut to. -/
theorem mem_ranks_of_receiverList {T : Type} {localTopo remoteTopo : Dict String (List Nat)}
    {ranks receivers : List Nat} {buckets : List (Nat × T)}
    (h : receiverList ((∅ : Dict String (List Nat)).setAll (localTopo.items.filterMap fun e =>
        if e.2.filter (· ∈ ranks) = [] then none else some (e.1, e.2.filter (· ∈ ranks))))
      remoteTopo buckets = some receivers) : ∀ r ∈ receivers, r ∈ ranks := by
  intro r hr
  have hmem : some r ∈ receivers.map some := List.mem_map_of_mem hr
  rw [← mapM_eq_some_iff.mp h] at hmem
  obtain ⟨members, hmembers, hmin⟩ := List.mem_map.mp hmem
  have hr' : r ∈ members := List.min?_mem hmin
  obtain ⟨e, he, rfl⟩ := List.mem_map.mp (List.mem_of_mem_take hmembers)
  have hitems : e ∈ localTopo.items.filterMap fun e =>
      if e.2.filter (· ∈ ranks) = [] then none else some (e.1, e.2.filter (· ∈ ranks)) := by
    have hkeys : ((localTopo.items.filterMap fun e =>
        if e.2.filter (· ∈ ranks) = [] then none
        else some (e.1, e.2.filter (· ∈ ranks))).map Prod.fst).Nodup := by
      refine List.Nodup.sublist ?_ (Dict.nodup_items localTopo)
      induction localTopo.items with
      | nil => exact List.Sublist.slnil
      | cons d items ih =>
        rw [List.filterMap_cons]
        split_ifs
        · exact ih.cons _
        · exact ih.cons_cons _
    rwa [Dict.items_setAll_of_nodup hkeys fun a _ => AList.lookup_empty a] at he
  obtain ⟨d, -, hd⟩ := List.mem_filterMap.mp hitems
  split_ifs at hd
  obtain rfl := Option.some.inj hd
  simpa using (List.mem_filter.mp hr').2

/-- The buckets with their receivers: each comes from its owner, and its receiver takes part. -/
theorem genH2dBuckets_spec (hreg : Registered pool tensors) {fuel : Nat}
    {localTopo remoteTopo : Dict String (List Nat)} {ranks : List Nat}
    {buckets : List (Nat × Nat × H2DBucket)}
    (hfit : ∀ i ∈ ownersOf pool worldSize, ∀ m ∈ pool i, ∀ p ∈ m.metas, p.size ≤ bucketSize)
    (h : genH2dBuckets fuel (gatherMetas pool worldSize) bucketSize localTopo remoteTopo ranks =
      some buckets) :
    (∃ owned loads, (buckets.map Prod.snd).Perm owned ∧
        List.Forall₂ (OwnerDelivers pool bucketSize) owned loads ∧
        loads.flatten = (List.range worldSize).flatMap fun i => (tensors i).flatten) ∧
      (ranks = [] → ∀ b ∈ buckets, b.1 = b.2.1) ∧
      ∀ b ∈ buckets, b.1 ∈ if ranks = [] then List.range worldSize else ranks := by
  unfold genH2dBuckets at h
  rw [items_gatherMetas] at h
  obtain ⟨owned, howned, h⟩ := Option.bind_eq_some_iff.mp h
  obtain ⟨hmem, loads, hloads, hflat⟩ := owned_delivers hreg hfit howned
  have hall : loads.flatten = (List.range worldSize).flatMap fun i => (tensors i).flatten := by
    rw [hflat]
    refine flatMap_filter_of_nil fun i _ hempty => ?_
    have hnil : pool i = [] := by simpa using hempty
    have hread := hreg.read i
    rw [hnil, List.mapM_nil] at hread
    rw [← Option.some.inj hread]
    rfl
  dsimp only at h
  split_ifs at h with hranks
  · obtain rfl := Option.some.inj h
    refine ⟨⟨owned.flatten, loads, ?_, hloads, hall⟩, fun _ b hb => ?_, fun b hb => ?_⟩
    · rw [List.map_map]
      exact List.Perm.of_eq (List.map_id _)
    · obtain ⟨b', -, rfl⟩ := List.mem_map.mp hb
      rfl
    · obtain ⟨b', hb', rfl⟩ := List.mem_map.mp hb
      rw [if_pos hranks]
      exact List.mem_of_mem_filter (hmem b' hb')
  · by_cases hempty : owned.flatten = []
    · rw [assignReceiverRanks, if_pos hempty] at h
      obtain rfl := Option.some.inj h
      exact ⟨⟨owned.flatten, loads, by rw [hempty]; rfl, hloads, hall⟩, fun h => absurd h hranks,
        fun b hb => absurd hb List.not_mem_nil⟩
    · obtain ⟨receivers, rounds, hreceivers, hperm, hrounds, hround⟩ :=
        rounds_of_assignReceiverRanks h hempty
      refine ⟨⟨owned.flatten, loads, hperm, hloads, hall⟩, fun h => absurd h hranks, ?_⟩
      intro b hb
      rw [if_neg hranks]
      rw [hrounds] at hb
      obtain ⟨round, hroundMem, hb⟩ := List.mem_flatten.mp hb
      have hreceiver : b.1 ∈ receivers :=
        (hround round hroundMem).receivers.subset (List.mem_map_of_mem hb)
      exact mem_ranks_of_receiverList hreceivers b.1 hreceiver

/-! The turns -/

/-- The entries of the plan's buckets, grouped by their receivers. -/
def Plan.groups (plan : Plan) : List (Nat × List (Nat × Nat × H2DBucket)) :=
  (Dict.groupBy (fun b => some b.1) plan.buckets).items

/-- The entries in the order of the turns. -/
def Plan.entries (plan : Plan) : List (Nat × Nat × H2DBucket) :=
  byColumns plan.maxLen (plan.groups.map Prod.snd)

/-- The entry that a turn is about. -/
structure Plan.TurnOf (plan : Plan) (t : Turn) (b : Nat × Nat × H2DBucket) : Prop where
  receiver : t.receiver = b.1
  bucket : t.bucket = b.2.2
  own : (plan.receiverRankBuckets t.receiver)[t.i]? = some b.2

theorem Plan.group_eq {plan : Plan} {e : Nat × List (Nat × Nat × H2DBucket)}
    (he : e ∈ plan.groups) : e.2 = plan.buckets.filter (·.1 = e.1) := by
  have hget := Dict.getD_groupBy (fun b : Nat × Nat × H2DBucket => some b.1) plan.buckets e.1
  have hlookup : (Dict.groupBy (fun b : Nat × Nat × H2DBucket => some b.1) plan.buckets).lookup e.1 =
      some e.2 := Dict.mem_items.mp he
  rw [Dict.getD, hlookup, Option.getD_some] at hget
  rw [hget]
  exact List.filter_congr fun b _ => by simp

theorem Plan.turns_entries (plan : Plan) : List.Forall₂ plan.TurnOf plan.turns plan.entries := by
  unfold turns entries byColumns
  refine forall₂_flatMap fun i _ => ?_
  unfold column bucketsByReceiverRank
  rw [List.filterMap_map, List.filterMap_map]
  simp only [Function.comp_def, List.getElem?_map, Option.map_map]
  change List.Forall₂ _ (plan.groups.filterMap _) _
  have hsub : ∀ e ∈ plan.groups, e.2 = plan.buckets.filter (·.1 = e.1) := fun e => Plan.group_eq
  generalize plan.groups = groups at hsub
  induction groups with
  | nil => exact .nil
  | cons e groups ih =>
    obtain ⟨he, hgroups⟩ := List.forall_mem_cons.mp hsub
    rw [List.filterMap_cons, List.filterMap_cons]
    cases hb : e.2[i]? with
    | none => exact ih hgroups
    | some b =>
      have hown : b.1 = e.1 := by
        have hmem := List.mem_of_getElem? hb
        rw [he] at hmem
        simpa using (List.mem_filter.mp hmem).2
      refine .cons ⟨hown.symm, rfl, ?_⟩ (ih hgroups)
      rw [receiverRankBuckets, List.getElem?_map, ← he, hb]
      rfl

theorem Plan.entries_perm (plan : Plan) : plan.entries.Perm plan.buckets := by
  have hgroups := Dict.perm_groupBy (fun b : Nat × Nat × H2DBucket => some b.1) plan.buckets
  have hall : plan.buckets.filter (fun b => (some b.1).isSome) = plan.buckets :=
    List.filter_eq_self.mpr fun _ _ => rfl
  rw [hall, List.flatMap_def] at hgroups
  refine (byColumns_perm fun row hrow => ?_).trans hgroups
  obtain ⟨e, he, rfl⟩ := List.mem_map.mp hrow
  have hmem : e.2.length ∈ plan.bucketsByReceiverRank.map fun e => e.2.length := by
    unfold bucketsByReceiverRank
    rw [List.map_map]
    refine List.mem_map.mpr ⟨e, he, ?_⟩
    simp
  unfold maxLen
  cases hmax : (plan.bucketsByReceiverRank.map fun e => e.2.length).max? with
  | none =>
    rw [List.max?_eq_none_iff] at hmax
    rw [hmax] at hmem
    exact absurd hmem List.not_mem_nil
  | some n => exact (List.max?_eq_some_iff.mp hmax).2 _ hmem

/-- A turn brings what its bucket delivers from the owner. -/
theorem Plan.TurnOf.brings {plan : Plan} {t : Turn} {b : Nat × Nat × H2DBucket}
    (h : plan.TurnOf t b) (hpools : plan.pools = fun i => (pool i).map MemoryBuffer.buffer)
    (hmode : plan.ranks = [] ∧ b.1 = b.2.1 ∨ plan.ranks ≠ [] ∧ plan.disableH2dBuffer = false)
    {load : List (String × RawTensor)}
    (hload : OwnerDelivers pool plan.bucketSize b.2 load) : plan.Brings t load := by
  obtain ⟨⟨bytes, hcopy, hlength, hread⟩, hle⟩ := hload
  rw [← h.bucket] at hcopy hlength hread hle
  refine ⟨bytes, ?_, hlength, hle, hread⟩
  have htake : bytes.take t.bucket.size = bytes := List.take_of_length_le hlength.le
  unfold fill
  rcases hmode with ⟨hranks, howner⟩ | ⟨hranks, henabled⟩
  · have hreceiver : t.receiver = b.2.1 := h.receiver.trans howner
    split_ifs
    · rw [hpools, hreceiver]
      exact hcopy
    · rw [h.own]
      simp only [Option.bind_eq_bind, Option.bind_some, hpools, hreceiver]
      rw [← h.bucket, hcopy]
      simp [htake]
  · rw [henabled, if_neg Bool.false_ne_true, h.own]
    simp only [Option.bind_eq_bind, Option.bind_some, hpools, if_neg hranks]
    rw [← h.bucket, hcopy]
    simp [htake]

/-- The plan of an update brings all registered tensors. -/
theorem updatePlan_sound (hreg : Registered pool tensors)
    {fuel freeBytes psMaxBucketSizeGb : Nat} {localTopo remoteTopo : Dict String (List Nat)}
    {ranks : List Nat} {plan : Plan}
    (h : updatePlan fuel pool worldSize freeBytes psMaxBucketSizeGb localTopo remoteTopo ranks =
      some plan) (hmode : ranks = [] ∨ plan.disableH2dBuffer = false) :
    plan.members = (if ranks = [] then List.range worldSize else ranks) ∧
      ∃ loads, plan.Sound loads ∧
        loads.flatten.Perm ((List.range worldSize).flatMap fun i => (tensors i).flatten) := by
  unfold updatePlan at h
  dsimp only at h
  have hne : gatherMetas pool worldSize ≠ ∅ := by
    intro he
    rw [if_pos he] at h
    cases h
  rw [if_neg hne] at h
  obtain ⟨⟨bucketSize, disabled⟩, hdetect, h⟩ := Option.bind_eq_some_iff.mp h
  obtain ⟨buckets, hbuckets, h⟩ := Option.bind_eq_some_iff.mp h
  obtain rfl := Option.some.inj h
  obtain ⟨haligned, hroom, -⟩ := detectBucketSize_spec (dvd_maxTensorBytes _) hdetect
  obtain ⟨⟨owned, loads, hperm, hloads, hflat⟩, howner, hmembers⟩ := genH2dBuckets_spec hreg
    (fun i hi m hm p hp => (size_le_maxTensorBytes hi hm hp).trans hroom) hbuckets
  refine ⟨rfl, ?_⟩
  generalize hplan : ({ bucketSize := bucketSize
                        pools := fun i => (pool i).map MemoryBuffer.buffer
                        buckets := buckets
                        ranks := ranks
                        members := if ranks = [] then List.range worldSize else ranks
                        disableH2dBuffer := disabled } : Plan) = plan at hmode ⊢
  have hentries := plan.entries_perm
  have hbucketsEq : plan.buckets = buckets := by rw [← hplan]
  rw [hbucketsEq] at hentries
  obtain ⟨loads', hloads', hpermLoads⟩ :=
    List.perm_comp_forall₂ ((hentries.map Prod.snd).trans hperm) hloads
  have hentryMem : ∀ b ∈ plan.entries, b ∈ buckets := fun b hb => hentries.mem_iff.mp hb
  refine ⟨loads', ⟨by rw [← hplan]; exact haligned, fun t ht => ?_, ?_⟩, ?_⟩
  · obtain ⟨b, hb, hturn⟩ := exists_of_mem_forall₂ plan.turns_entries ht
    rw [hturn.receiver, ← hplan]
    exact hmembers b (hentryMem b hb)
  · refine forall₂_trans plan.turns_entries (List.forall₂_map_left_iff.mp hloads')
      fun t b hb load hturn hload => ?_
    refine hturn.brings (by rw [← hplan]) ?_ (by rw [← hplan]; exact hload)
    rw [← hplan] at hmode ⊢
    by_cases hranks : ranks = []
    · exact .inl ⟨hranks, howner hranks b (hentryMem b hb)⟩
    · exact .inr ⟨hranks, hmode.resolve_left hranks⟩
  · rw [← hflat]
    exact hpermLoads.flatten

/-! One tensor on one rank -/

/-- A memory buffer with one tensor. -/
def oneBuffer : MemoryBuffer := ⟨[7, 9] ++ List.replicate 254 0, 256, [metaOf "w" byteTensor]⟩

theorem registered_oneBuffer :
    Registered (fun _ => [oneBuffer]) fun _ => [[("w", byteTensor)]] := by
  refine ⟨fun _ b hb => ?_, fun _ => rfl⟩
  rw [List.mem_singleton.mp hb]
  exact ⟨List.length_append.trans (by rw [List.length_replicate]; rfl), by decide⟩

def oneBufferPlan : Plan :=
  { bucketSize := 256
    pools := fun _ => [oneBuffer.buffer]
    buckets := [(0, 0, ⟨256, [⟨0, 0, 256⟩], [metaOf "w" byteTensor]⟩)]
    ranks := []
    members := [0]
    disableH2dBuffer := false }

theorem updatePlan_oneBuffer :
    updatePlan 0 (fun _ => [oneBuffer]) 1 768 8 ∅ ∅ [] = some oneBufferPlan := by
  have hmax : maxTensorBytes (gatherMetas (fun _ => [oneBuffer]) 1) = 256 := by decide
  have hdetect : detectBucketSize 768 256 8 false = some (256, false) := by decide
  have hgen : genH2dBuckets 0 (gatherMetas (fun _ => [oneBuffer]) 1) 256 ∅ ∅ [] =
      some oneBufferPlan.buckets := by decide
  unfold updatePlan
  dsimp only
  rw [if_neg (by decide), hmax, hdetect]
  simp only [Option.bind_eq_bind, Option.bind_some, hgen]
  rfl

/-- All the steps of the update. -/
def oneBufferRun : List UpdateStep :=
  [.server 0, .worker 0, .server 0, .server 0, .server 0, .server 0, .worker 0, .worker 0,
    .worker 0, .server 0, .server 0, .worker 0, .server 0, .server 0]

set_option maxRecDepth 20000 in
theorem exec_oneBufferRun :
    ∃ st, exec oneBufferPlan.next (rankInit fun _ => List.replicate 512 0) oneBufferRun = some st :=
  ⟨_, rfl⟩

/-- An update to all ranks can be planned where memory is registered on every rank that owns
buffers and each tensor fits into half of the free memory. -/
theorem exists_updatePlan (hreg : Registered pool tensors) {freeBytes psMaxBucketSizeGb : Nat}
    (hsome : ∃ i < worldSize, pool i ≠ [])
    (hpos : ∀ i < worldSize, pool i ≠ [] → ∃ m ∈ pool i, 0 < m.size)
    (hroom : ∀ i < worldSize, ∀ m ∈ pool i, ∀ p ∈ m.metas, p.size ≤ freeBytes / 512 * 256)
    (fuel : Nat) (localTopo remoteTopo : Dict String (List Nat)) :
    ∃ plan, updatePlan fuel pool worldSize freeBytes psMaxBucketSizeGb localTopo remoteTopo [] =
      some plan := by
  have hmax : maxTensorBytes (gatherMetas pool worldSize) ≤ freeBytes / (2 * 256) * 256 := by
    unfold maxTensorBytes
    rw [items_gatherMetas]
    refine List.max_le_of_forall_le _ _ fun n hn => ?_
    obtain ⟨e, he, hn⟩ := List.mem_flatMap.mp hn
    obtain ⟨i, hi, rfl⟩ := List.mem_map.mp he
    obtain ⟨p, hp, rfl⟩ := List.mem_map.mp hn
    obtain ⟨metas, hmetas, hp⟩ := List.mem_flatten.mp hp
    obtain ⟨m, hm, rfl⟩ := List.mem_map.mp hmetas
    exact hroom i (List.mem_range.mp (List.mem_filter.mp hi).1) m hm p hp
  obtain ⟨⟨bucketSize, disabled⟩, hdetect⟩ : ∃ detected,
      detectBucketSize freeBytes (maxTensorBytes (gatherMetas pool worldSize)) psMaxBucketSizeGb
        false = some detected := by
    unfold detectBucketSize
    dsimp only
    split_ifs
    · exact ⟨_, rfl⟩
    · exact ⟨_, rfl⟩
  have hfits := (detectBucketSize_spec (dvd_maxTensorBytes _) hdetect).2.1
  have hne : gatherMetas pool worldSize ≠ ∅ := by
    intro he
    obtain ⟨i, hi, hpool⟩ := hsome
    have hitems := items_gatherMetas pool worldSize
    rw [he] at hitems
    have hmem : i ∈ ownersOf pool worldSize :=
      List.mem_filter.mpr ⟨List.mem_range.mpr hi, by simpa using hpool⟩
    rw [List.map_eq_nil_iff.mp hitems.symm] at hmem
    exact List.not_mem_nil hmem
  obtain ⟨owned, howned⟩ : ∃ owned, (gatherMetas pool worldSize).items.mapM (fun e =>
      (ownerBuckets bucketSize e.2).map fun buckets => buckets.map fun b => (e.1, b)) =
        some owned := by
    refine exists_mapM fun e he => ?_
    rw [items_gatherMetas] at he
    obtain ⟨i, hi, rfl⟩ := List.mem_map.mp he
    obtain ⟨hlt, hpool⟩ := List.mem_filter.mp hi
    obtain ⟨buckets, hbuckets⟩ := exists_ownerBuckets (hreg.fits i)
      (fun m hm p hp => (size_le_maxTensorBytes hi hm hp).trans hfits)
      (hpos i (List.mem_range.mp hlt) (by simpa using hpool))
    dsimp only
    rw [hbuckets]
    rfl
  unfold updatePlan genH2dBuckets
  dsimp only
  rw [if_neg hne, hdetect]
  simp only [Option.bind_eq_bind, Option.bind_some, howned, if_true]
  exact ⟨_, rfl⟩

theorem exists_updatePlan_oneBuffer :
    ∃ plan, updatePlan 0 (fun _ => [oneBuffer]) 1 768 8 ∅ ∅ [] = some plan :=
  exists_updatePlan registered_oneBuffer ⟨0, by decide, by decide⟩
    (fun _ _ _ => ⟨oneBuffer, List.mem_singleton_self _, by decide⟩)
    (fun _ _ m hm p hp => by
      rw [List.mem_singleton.mp hm] at hp
      rw [List.mem_singleton.mp hp]
      decide) 0 ∅ ∅

end Belayer.Weights.Ps
