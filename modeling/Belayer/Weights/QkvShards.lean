import Belayer.Weights.PackedDecoder
import Belayer.Weights.Reshard

namespace Belayer.Weights

open Belayer.Framework

variable {α : Type} {a : Attention} {tp : Nat}

/-! The engine's side: `QKVParallelLinear` -/

/-- `num_kv_heads`: the heads of K and of V that a rank has. -/
def rankKvHeads (a : Attention) (tpSize : Nat) : Nat :=
  if a.numKvHeads ≤ tpSize then 1 else a.numKvHeads / tpSize

/-- `num_kv_head_replicas`: how many ranks have the same head. -/
def numKvHeadReplicas (a : Attention) (tpSize : Nat) : Nat :=
  if a.numKvHeads ≤ tpSize then tpSize / a.numKvHeads else 1

/-- `shard_size`: the rows of a projection that a rank has. -/
def shardSize (a : Attention) (tpSize : Nat) : Part → Nat
  | .qWeight | .qBias => a.numHeads / tpSize * a.headSize
  | _ => rankKvHeads a tpSize * a.headSize

/-- `shard_id`: which of a projection's shards a rank has. -/
def shardId (a : Attention) (tpSize tpRank : Nat) : Part → Nat
  | .qWeight | .qBias => tpRank
  | _ => tpRank / numKvHeadReplicas a tpSize

/-- The part of a projection that the engine's `weight_loader` loads on a rank. -/
def loadedShard (a : Attention) (tpSize tpRank : Nat) (part : Part) (loadedWeight : Tensor α) :
    Tensor α :=
  let startIdx := shardId a tpSize tpRank part * shardSize a tpSize part
  loadedWeight.slice 0 startIdx (startIdx + shardSize a tpSize part)

/-- The fused attention of a layer on a rank of the engine: Q, K and V one after the other. -/
def engineShard (a : Attention) (tpSize tpRank layer : Nat) (fused : Fused)
    (weights : TensorDict α) : Option (Tensor α) := do
  let parts ← fused.parts.mapM fun part =>
    (weights.lookup (attnName layer part)).map (loadedShard a tpSize tpRank part)
  Tensor.cat parts

/-! Plain splits -/

theorem range_map_getElem? {β : Type} (f : Nat → β) {n r : Nat} (h : r < n) :
    ((List.range n).map f)[r]? = some (f r) := by
  rw [List.getElem?_map, List.getElem?_range h, Option.map_some]

/-- A plain split has equal parts of a dimension that the ranks divide, else copies. -/
theorem exists_shardParallel {t : Tensor α} {dim n : Nat} (hdim : t.shape[dim]? = some n)
    (hn : 0 < n) (htp : 0 < tp) :
    ∃ shards, shardParallel t tp dim = some shards ∧ shards.length = tp ∧
      ∀ r < tp, shards[r]? =
        some (if n % tp = 0 then t.slice dim (r * (n / tp)) ((r + 1) * (n / tp)) else t) := by
  unfold shardParallel
  rw [hdim]
  simp only [Option.bind_eq_bind, Option.bind_some, Option.pure_def]
  by_cases hmod : n % tp = 0
  · have hsize : 0 < n / tp := Nat.div_pos (Nat.le_of_dvd hn (Nat.dvd_of_mod_eq_zero hmod)) htp
    have hmul : n = tp * (n / tp) := (Nat.mul_div_cancel' (Nat.dvd_of_mod_eq_zero hmod)).symm
    have hcount : max 1 ((n + n / tp - 1) / (n / tp)) = tp := by
      have hdiv : (n + n / tp - 1) / (n / tp) = tp := by
        have hrest : n + n / tp - 1 = n / tp - 1 + n / tp * tp := by
          rw [Nat.mul_comm (n / tp), ← hmul]
          omega
        rw [hrest, Nat.add_mul_div_left _ _ hsize, Nat.div_eq_of_lt (Nat.sub_lt hsize Nat.one_pos),
          Nat.zero_add]
      rw [hdiv, Nat.max_eq_right htp]
    have hsplit : t.split (n / tp) dim =
        (List.range tp).map fun i => t.slice dim (i * (n / tp)) ((i + 1) * (n / tp)) := by
      unfold Tensor.split
      rw [hdim]
      dsimp only [Option.getD_some]
      rw [if_neg (Nat.pos_iff_ne_zero.mp hsize), hcount]
    refine ⟨_, if_neg (not_not_intro hmod), by rw [hsplit, List.length_map, List.length_range],
      fun r hr => ?_⟩
    rw [hsplit, range_map_getElem? _ hr, if_pos hmod]
  · refine ⟨_, if_pos hmod, List.length_replicate, fun r hr => ?_⟩
    rw [List.getElem?_replicate_of_lt hr, if_neg hmod]

/-! Fused attention -/

theorem sliceRows_natCast (t : Tensor α) (m n : Nat) : sliceRows t m n = t.slice 0 m n := by
  have hindex : ∀ i : Nat, sliceIndex t.rows (i : Int) = i := by
    intro i
    rw [sliceIndex, if_neg (Int.not_lt.mpr (Int.natCast_nonneg i)), Int.toNat_natCast]
  rw [sliceRows, hindex, hindex]

theorem exists_combineShards {f g h : Nat → Tensor α} {inner : List Nat}
    (hf : ∀ i, ∃ n, (f i).shape = n :: inner) (hg : ∀ i, ∃ n, (g i).shape = n :: inner)
    (hh : ∀ i, ∃ n, (h i).shape = n :: inner) (tp : Nat) :
    ∃ shards, combineShards ((List.range tp).map f) ((List.range tp).map g)
        ((List.range tp).map h) = some shards ∧ shards.length = tp ∧
      ∀ r < tp, shards[r]? = Tensor.cat [f r, g r, h r] := by
  have hzip : List.zip ((List.range tp).map f)
      (List.zip ((List.range tp).map g) ((List.range tp).map h)) =
      (List.range tp).map fun i => (f i, g i, h i) := by
    rw [List.zip_map', List.zip_map']
  have hcat : ∀ i, (Tensor.cat [f i, g i, h i]).isSome := by
    intro i
    have hshapes : ∀ t ∈ [f i, g i, h i], ∃ n, t.shape = n :: inner :=
      List.forall_mem_cons.mpr ⟨hf i, List.forall_mem_cons.mpr
        ⟨hg i, List.forall_mem_cons.mpr ⟨hh i, fun _ ht => absurd ht List.not_mem_nil⟩⟩⟩
    obtain ⟨u, hu, -⟩ := Tensor.cat_of_shapes (List.cons_ne_nil _ _) hshapes
    rw [hu]
    rfl
  unfold combineShards
  rw [hzip]
  obtain ⟨shards, hshards⟩ := exists_mapM
    (f := fun e : Tensor α × Tensor α × Tensor α => Tensor.cat [e.1, e.2.1, e.2.2])
    (l := (List.range tp).map fun i => (f i, g i, h i)) (by
      intro e he
      obtain ⟨i, -, rfl⟩ := List.mem_map.mp he
      exact hcat i)
  have hlength : shards.length = tp := by
    have hsame := congrArg List.length (mapM_eq_some_iff.mp hshards)
    simpa using hsame.symm
  refine ⟨shards, hshards, hlength, fun r hr => ?_⟩
  rw [getElem?_of_mapM hshards, range_map_getElem? _ hr, Option.bind_some]

/-- The rows that a fused tensor of the decoder has. -/
def fusedRows (a : Attention) : Nat :=
  a.numHeads * a.headSize + a.numKvHeads * a.headSize + a.numKvHeads * a.headSize

/-- Q, K and V of a fused tensor, each cut as the engine cuts it. -/
def headShards (a : Attention) (tpSize tpRank : Nat) (tensor : Tensor α) : List (Tensor α) :=
  let qSize := a.numHeads * a.headSize
  let kSize := a.numKvHeads * a.headSize
  [loadedShard a tpSize tpRank .qWeight (tensor.slice 0 0 qSize),
    loadedShard a tpSize tpRank .kWeight (tensor.slice 0 qSize (qSize + kSize)),
    loadedShard a tpSize tpRank .vWeight
      (tensor.slice 0 (qSize + kSize) (qSize + kSize + kSize))]

theorem exists_slice_shape {t : Tensor α} {n : Nat} {inner : List Nat} (h : t.shape = n :: inner)
    (i j : Nat) : ∃ m, (t.slice 0 i j).shape = m :: inner :=
  ⟨_, (Tensor.slice_rows h i j).1⟩

theorem shardQ_eq (hheads : tp ∣ a.numHeads) (t : Tensor α) :
    shardQ t tp ((a.numHeads * a.headSize : Nat) : Int) =
      (List.range tp).map fun i => loadedShard a tp i .qWeight t := by
  refine List.map_congr_left fun i _ => ?_
  have hsize : shardSize a tp .qWeight = a.numHeads * a.headSize / tp :=
    (Nat.mul_div_right_comm hheads a.headSize).symm
  dsimp only [loadedShard, shardId]
  rw [hsize, ← Nat.succ_mul, ← sliceRows_natCast]
  push_cast
  rfl

theorem shardKvHeads_eq (hkv : tp ∣ a.numKvHeads) (htp : 0 < tp) (t : Tensor α) :
    shardKvHeads t tp a.numKvHeads a.headSize =
      (List.range tp).map fun i => loadedShard a tp i .kWeight t := by
  refine List.map_congr_left fun i _ => ?_
  have hle : tp ≤ a.numKvHeads := Nat.le_of_dvd a.numKvHeads_pos hkv
  have hheads : rankKvHeads a tp = a.numKvHeads / tp := by
    unfold rankKvHeads
    split_ifs with h
    · rw [Nat.le_antisymm h hle, Nat.div_self htp]
    · rfl
  have hreplicas : numKvHeadReplicas a tp = 1 := by
    unfold numKvHeadReplicas
    split_ifs with h
    · rw [Nat.le_antisymm h hle, Nat.div_self htp]
    · rfl
  have hsize : shardSize a tp .kWeight = a.headSize * (a.numKvHeads / tp) := by
    calc shardSize a tp .kWeight = rankKvHeads a tp * a.headSize := rfl
      _ = a.headSize * (a.numKvHeads / tp) := by rw [hheads, Nat.mul_comm]
  dsimp only [loadedShard, shardId]
  rw [hsize, hreplicas, Nat.div_one, ← Nat.succ_mul, ← sliceRows_natCast]
  push_cast
  rfl

theorem replicateKvHeads_eq (hlt : a.numKvHeads < tp) (t : Tensor α) :
    replicateKvHeads t tp a.numKvHeads a.headSize =
      (List.range tp).map fun i => loadedShard a tp i .kWeight t := by
  refine List.map_congr_left fun i _ => ?_
  have hreplicas : numKvHeadReplicas a tp = tp / a.numKvHeads := if_pos (Nat.le_of_lt hlt)
  have hsize : shardSize a tp .kWeight = a.headSize := by
    have hheads : rankKvHeads a tp = 1 := if_pos (Nat.le_of_lt hlt)
    calc shardSize a tp .kWeight = rankKvHeads a tp * a.headSize := rfl
      _ = a.headSize := by rw [hheads, Nat.one_mul]
  dsimp only [loadedShard, shardId]
  rw [hsize, hreplicas, ← sliceRows_natCast, ← Int.ofNat_fdiv, ← Int.ofNat_fdiv]
  push_cast
  rfl

/-- The sizes of a decoder are there. -/
theorem not_isZero_sizes (a : Attention) (headDim : Json) :
    ¬((isZero (.int a.hiddenSize) && isZero headDim) || isZero (.int a.numHeads)) = true := by
  have hH := a.numHeads_pos
  have hE := a.hiddenSize_pos
  simp [isZero]
  omega

/-- With the right head size each rank gets its heads of a fused tensor. -/
theorem exists_shardQkvFused_of_rows {t : Tensor α} {inner : List Nat} {headDim : Json}
    (htp : 0 < tp) (hheads : tp ∣ a.numHeads) (hkv : tp ∣ a.numKvHeads ∨ a.numKvHeads ∣ tp)
    (hshape : t.shape = fusedRows a :: inner)
    (hresolve : resolveHeadDim (.int a.numHeads) (.int a.hiddenSize) headDim = some (a.headSize : Int)) :
    ∃ shards, shardQkvFused t tp (.int a.numHeads) (.int a.numKvHeads) (.int a.hiddenSize) headDim =
        some shards ∧ shards.length = tp ∧
      ∀ r < tp, shards[r]? = Tensor.cat (headShards a tp r t) := by
  have hK := a.numKvHeads_pos
  have hzero := not_isZero_sizes a headDim
  have hget : t.shape[0]? = some (fusedRows a) := by rw [hshape]; rfl
  have hrows : ((fusedRows a : Nat) : Int) = ((a.numHeads * a.headSize + a.numKvHeads * a.headSize +
      a.numKvHeads * a.headSize : Nat) : Int) := rfl
  have hmod : ((a.numHeads * a.headSize : Nat) : Int) % (tp : Int) = 0 := by
    rw [← Int.natCast_emod, Nat.mod_eq_zero_of_dvd (Dvd.dvd.mul_right hheads a.headSize),
      Int.natCast_zero]
  unfold shardQkvFused
  rw [if_neg hzero, hresolve, hget]
  simp only [number, Option.bind_eq_bind, Option.bind_some]
  rw [← Int.natCast_mul, ← Int.natCast_mul, ← Int.natCast_add, ← Int.natCast_add,
    if_neg (not_not_intro hrows), if_neg (not_not_intro hmod), sliceRows_natCast,
    sliceRows_natCast, ← Int.natCast_zero, sliceRows_natCast, shardQ_eq hheads]
  have hshapes : ∀ (part : Part) (m n i : Nat), ∃ rows,
      (loadedShard a tp i part (t.slice 0 m n)).shape = rows :: inner := by
    intro part m n i
    obtain ⟨_, hslice⟩ := exists_slice_shape hshape m n
    exact exists_slice_shape hslice _ _
  obtain ⟨shards, hshards, hlength, heach⟩ := exists_combineShards
    (hshapes .qWeight 0 (a.numHeads * a.headSize))
    (hshapes .kWeight (a.numHeads * a.headSize)
      (a.numHeads * a.headSize + a.numKvHeads * a.headSize))
    (hshapes .kWeight (a.numHeads * a.headSize + a.numKvHeads * a.headSize) (fusedRows a)) tp
  refine ⟨shards, ?_, hlength, heach⟩
  by_cases hle : tp ≤ a.numKvHeads
  · have hdiv : tp ∣ a.numKvHeads := by
      rcases hkv with h | h
      · exact h
      · rw [Nat.le_antisymm hle (Nat.le_of_dvd htp h)]
    have hkmod : (a.numKvHeads : Int) % (tp : Int) = ((0 : Nat) : Int) := by
      rw [← Int.natCast_emod, Nat.mod_eq_zero_of_dvd hdiv]
    rw [if_pos (Int.ofNat_le.mpr hle), if_neg (not_not_intro hkmod), shardKvHeads_eq hdiv htp,
      shardKvHeads_eq hdiv htp]
    exact hshards
  · have hlt := Nat.lt_of_not_le hle
    have hdiv : a.numKvHeads ∣ tp := by
      rcases hkv with h | h
      · exact absurd (Nat.le_of_dvd hK h) hle
      · exact h
    have hkmod : Int.fmod tp a.numKvHeads = ((0 : Nat) : Int) := by
      rw [← Int.ofNat_fmod, Nat.mod_eq_zero_of_dvd hdiv]
    have hne : ¬(a.numKvHeads : Int) = ((0 : Nat) : Int) := by omega
    rw [if_neg (fun h => hle (Int.ofNat_le.mp h)), if_neg hne, if_neg (not_not_intro hkmod),
      replicateKvHeads_eq hlt, replicateKvHeads_eq hlt]
    exact hshards

/-- Without the head size of the rows a fused tensor of the decoder is split plainly. -/
theorem shardQkvFused_of_ne {t : Tensor α} {inner : List Nat} {headDim : Json} {size : Int}
    (hshape : t.shape = fusedRows a :: inner)
    (hresolve : resolveHeadDim (.int a.numHeads) (.int a.hiddenSize) headDim = some size)
    (hne : size ≠ a.headSize) :
    shardQkvFused t tp (.int a.numHeads) (.int a.numKvHeads) (.int a.hiddenSize) headDim =
      shardParallel t tp 0 := by
  have hH := a.numHeads_pos
  have hzero := not_isZero_sizes a headDim
  have hget : t.shape[0]? = some (fusedRows a) := by rw [hshape]; rfl
  have hrows : ((fusedRows a : Nat) : Int) ≠
      a.numHeads * size + a.numKvHeads * size + a.numKvHeads * size := by
    intro h
    have hcount : ((a.numHeads + a.numKvHeads + a.numKvHeads : Nat) : Int) ≠ 0 := by omega
    refine hne (mul_left_cancel₀ hcount ?_)
    unfold fusedRows at h
    push_cast at h ⊢
    linarith
  unfold shardQkvFused
  rw [if_neg hzero, hresolve, hget]
  simp only [number, Option.bind_eq_bind, Option.bind_some]
  rw [if_pos hrows]

/-- A fused tensor is split for each rank, whatever its rows are. -/
theorem exists_shardQkvFused {t : Tensor α} {rows : Nat} {inner : List Nat} {headDim : Json}
    (htp : 0 < tp) (hheads : tp ∣ a.numHeads) (hkv : tp ∣ a.numKvHeads ∨ a.numKvHeads ∣ tp)
    (hshape : t.shape = rows :: inner) (hrows : 0 < rows)
    (hresolve : resolveHeadDim (.int a.numHeads) (.int a.hiddenSize) headDim = some (a.headSize : Int)) :
    ∃ shards, shardQkvFused t tp (.int a.numHeads) (.int a.numKvHeads) (.int a.hiddenSize) headDim =
        some shards ∧ shards.length = tp := by
  by_cases hsame : rows = fusedRows a
  · subst hsame
    obtain ⟨shards, hshards, hlength, -⟩ :=
      exists_shardQkvFused_of_rows htp hheads hkv hshape hresolve
    exact ⟨shards, hshards, hlength⟩
  · have hzero := not_isZero_sizes a headDim
    have hget : t.shape[0]? = some rows := by rw [hshape]; rfl
    have hmismatch : (rows : Int) ≠
        a.numHeads * a.headSize + a.numKvHeads * a.headSize + a.numKvHeads * a.headSize := by
      intro h
      exact hsame (by unfold fusedRows; exact_mod_cast h)
    obtain ⟨shards, hshards, hlength, -⟩ := exists_shardParallel hget hrows htp
    refine ⟨shards, ?_, hlength⟩
    unfold shardQkvFused
    rw [if_neg hzero, hresolve, hget]
    simp only [number, Option.bind_eq_bind, Option.bind_some]
    rw [if_pos hmismatch, hshards]

theorem exists_shardGateUpFused {t : Tensor α} {rows : Nat} {inner : List Nat} (htp : 0 < tp)
    (hshape : t.shape = rows :: inner) (hrows : 0 < rows) :
    ∃ shards, shardGateUpFused t tp = some shards ∧ shards.length = tp := by
  have hget : t.shape[0]? = some rows := by rw [hshape]; rfl
  unfold shardGateUpFused
  rw [hget]
  simp only [Option.bind_eq_bind, Option.bind_some]
  by_cases hodd : rows % 2 = 0
  · rw [if_neg (not_not_intro hodd)]
    have hslice : ∀ m n i j, ∃ k, ((t.slice 0 m n).slice 0 i j).shape = k :: inner := by
      intro m n i j
      obtain ⟨_, hfirst⟩ := exists_slice_shape hshape m n
      exact exists_slice_shape hfirst i j
    obtain ⟨shards, hshards⟩ := exists_mapM (l := List.range tp) (f := fun i => Tensor.cat
      [(t.slice 0 0 (rows / 2)).slice 0 (i * (rows / 2 / tp)) ((i + 1) * (rows / 2 / tp)),
        (t.slice 0 (rows / 2) rows).slice 0 (i * (rows / 2 / tp)) ((i + 1) * (rows / 2 / tp))]) (by
      intro i _
      obtain ⟨u, hu, -⟩ := Tensor.cat_of_shapes (List.cons_ne_nil _ _) (List.forall_mem_cons.mpr
        ⟨hslice 0 (rows / 2) (i * (rows / 2 / tp)) ((i + 1) * (rows / 2 / tp)),
          List.forall_mem_singleton.mpr
            (hslice (rows / 2) rows (i * (rows / 2 / tp)) ((i + 1) * (rows / 2 / tp)))⟩)
      rw [hu]
      rfl)
    refine ⟨shards, hshards, ?_⟩
    have hlength := congrArg List.length (mapM_eq_some_iff.mp hshards)
    simpa using hlength.symm
  · rw [if_pos hodd]
    obtain ⟨shards, hshards, hlength, -⟩ := exists_shardParallel hget hrows htp
    exact ⟨shards, hshards, hlength⟩

/-- Every tensor of a packed decoder is split for each rank. -/
theorem exists_shardForTp {lower : String → String} {name : String} {t : Tensor α} {rows : Nat}
    {inner : List Nat} {headDim : Json} (htp : 0 < tp) (hheads : tp ∣ a.numHeads)
    (hkv : tp ∣ a.numKvHeads ∨ a.numKvHeads ∣ tp) (hshape : t.shape = rows :: inner)
    (hrows : 0 < rows) (hinner : 0 ∉ inner) (hrow : isRowParallel name = true → inner ≠ [])
    (hresolve : tp = 1 ∨
      resolveHeadDim (.int a.numHeads) (.int a.hiddenSize) headDim = some (a.headSize : Int)) :
    IsSplit tp (shardForTp lower name t tp (.int a.numHeads) (.int a.numKvHeads)
      (.int a.hiddenSize) headDim) := by
  have hcolumn : IsSplit tp (shardParallel t tp 0) := by
    have hget : t.shape[0]? = some rows := by rw [hshape]; rfl
    obtain ⟨shards, hshards, hlength, -⟩ := exists_shardParallel hget hrows htp
    exact ⟨shards, hshards, hlength⟩
  have hcopies : IsSplit tp (some (List.replicate tp t)) :=
    ⟨_, rfl, List.length_replicate⟩
  by_cases hone : tp = 1
  · rw [shardForTp, if_pos hone]
    exact ⟨[t], rfl, hone.symm⟩
  have hfused := exists_shardQkvFused htp hheads hkv hshape hrows (hresolve.resolve_left hone)
  have hrowParallel : isRowParallel name = true → IsSplit tp (shardParallel t tp 1) := by
    intro h
    obtain ⟨width, rest, rfl⟩ := List.exists_cons_of_ne_nil (hrow h)
    have hwidth : 0 < width := Nat.pos_of_ne_zero fun h => hinner (h ▸ List.mem_cons_self ..)
    have hget : t.shape[1]? = some width := by rw [hshape]; rfl
    obtain ⟨shards, hshards, hlength, -⟩ := exists_shardParallel hget hwidth htp
    exact ⟨shards, hshards, hlength⟩
  rw [shardForTp, if_neg hone]
  refine IsSplit.ite (fun _ => hcopies) fun _ => ?_
  refine IsSplit.ite (fun _ => hfused) fun _ => ?_
  refine IsSplit.ite (fun _ => hfused) fun _ => ?_
  refine IsSplit.ite (fun _ => exists_shardGateUpFused htp hshape hrows) fun _ => ?_
  refine IsSplit.ite (fun _ => hcolumn) fun _ => ?_
  refine IsSplit.ite hrowParallel fun _ => ?_
  refine IsSplit.ite (fun _ => hcolumn) fun _ => ?_
  refine IsSplit.ite (fun _ => hcolumn) fun _ => ?_
  refine IsSplit.ite (fun _ => ?_) fun _ => hcopies
  exact IsSplit.ite (fun _ => hcolumn) fun _ => hcopies

end Belayer.Weights
