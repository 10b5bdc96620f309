import Mathlib.Algebra.BigOperators.Group.List.Basic
import Mathlib.Algebra.Order.Ring.Nat

namespace Belayer.Framework

/-- A contiguous tensor: its elements in row-major order. -/
structure Tensor (α : Type*) where
  shape : List Nat
  data : List α
  length_data : data.length = shape.prod
  deriving DecidableEq

namespace Tensor

variable {α : Type*}

theorem ext_data {s t : Tensor α} (hs : s.shape = t.shape) (hd : s.data = t.data) : s = t := by
  obtain ⟨_, _, _⟩ := s
  obtain ⟨_, _, _⟩ := t
  cases hs
  cases hd
  rfl

/-- How many elements an index of a dimension spans. -/
def stride (t : Tensor α) (dim : Nat) : Nat := (t.shape.drop (dim + 1)).prod

/-- The elements at the indices from `a` to `b` of a dimension of `n`, in each of the blocks
that the dimensions before it make. -/
def sliceData (data : List α) (blocks n stride a b : Nat) : List α :=
  (List.range blocks).flatMap fun i =>
    (data.drop ((i * n + a) * stride)).take ((b - a) * stride)

theorem length_sliceData {data : List α} {blocks n stride a b : Nat}
    (hdata : data.length = blocks * (n * stride)) (hb : b ≤ n) :
    (sliceData data blocks n stride a b).length = blocks * ((b - a) * stride) := by
  have hpiece : ∀ i ∈ List.range blocks,
      ((data.drop ((i * n + a) * stride)).take ((b - a) * stride)).length =
        (b - a) * stride := by
    intro i hi
    rcases Nat.le_total a b with hab | hba
    · have hi : i + 1 ≤ blocks := List.mem_range.mp hi
      have hfit : (i * n + a) * stride + (b - a) * stride ≤ blocks * (n * stride) := by
        calc (i * n + a) * stride + (b - a) * stride
            = (i * n + b) * stride := by rw [← Nat.add_mul]; congr 1; omega
          _ ≤ ((i + 1) * n) * stride := Nat.mul_le_mul_right _ (by rw [Nat.add_mul]; omega)
          _ ≤ (blocks * n) * stride := Nat.mul_le_mul_right _ (Nat.mul_le_mul_right _ hi)
          _ = blocks * (n * stride) := Nat.mul_assoc ..
      rw [List.length_take, List.length_drop, hdata]
      omega
    · rw [Nat.sub_eq_zero_of_le hba, Nat.zero_mul, List.take_zero, List.length_nil]
  rw [sliceData, List.length_flatMap, List.map_congr_left hpiece]
  simp

/-- The part of a tensor at the indices from `a` to `b` of a dimension, both cut at its end;
there is nothing to cut in a dimension that the tensor lacks. -/
def slice (t : Tensor α) (dim a b : Nat) : Tensor α :=
  match h : t.shape[dim]? with
  | none => t
  | some n =>
    { shape := t.shape.set dim (min b n - min a n)
      data := sliceData t.data (t.shape.take dim).prod n (t.stride dim) (min a n) (min b n)
      length_data := by
        obtain ⟨hd, hn⟩ := List.getElem?_eq_some_iff.mp h
        have hsplit : t.shape.prod = (t.shape.take dim).prod * (n * t.stride dim) := by
          rw [stride, ← hn, ← List.prod_cons, List.getElem_cons_drop, List.prod_take_mul_prod_drop]
        rw [length_sliceData (t.length_data.trans hsplit) (Nat.min_le_right ..),
          List.set_eq_take_append_cons_drop, if_pos hd, List.prod_append, List.prod_cons, stride] }

/-- The parts of `size` indices each along a dimension; the last one may be shorter. -/
def split (t : Tensor α) (size dim : Nat) : List (Tensor α) :=
  let n := (t.shape[dim]?).getD 0
  let count := if size = 0 then 1 else max 1 ((n + size - 1) / size)
  (List.range count).map fun i => t.slice dim (i * size) ((i + 1) * size)

/-- The length of the first dimension. -/
def rows (t : Tensor α) : Nat := t.shape.headD 0

theorem length_data_of_shape {t : Tensor α} {n : Nat} {inner : List Nat}
    (h : t.shape = n :: inner) : t.data.length = n * inner.prod := by
  rw [t.length_data, h, List.prod_cons]

/-- Two tensors one after the other along the first dimension. A one-dimensional tensor
without elements goes with every other one. -/
def append (s t : Tensor α) : Option (Tensor α) :=
  if s.shape = [] ∨ t.shape = [] then none
  else if s.shape = [0] then some t
  else if t.shape = [0] then some s
  else if h : s.shape = s.rows :: s.shape.tail ∧ t.shape = t.rows :: s.shape.tail then
    some
      { shape := (s.rows + t.rows) :: s.shape.tail
        data := s.data ++ t.data
        length_data := by
          rw [List.length_append, length_data_of_shape h.1, length_data_of_shape h.2,
            List.prod_cons, Nat.add_mul] }
  else none

/-- `torch.cat(ts, dim=0)`; `none` where it raises. -/
def cat : List (Tensor α) → Option (Tensor α)
  | [] => none
  | t :: ts => if t.shape = [] then none else ts.foldlM append t

theorem append_of_shape {s t : Tensor α} {m n : Nat} {inner : List Nat}
    (hs : s.shape = m :: inner) (ht : t.shape = n :: inner) :
    ∃ u, s.append t = some u ∧ u.shape = (m + n) :: inner ∧ u.data = s.data ++ t.data := by
  have hnil : ¬(s.shape = [] ∨ t.shape = []) := by simp [hs, ht]
  unfold append
  rw [if_neg hnil]
  split_ifs with hs0 ht0 h
  · rw [hs] at hs0
    cases hs0
    have hempty : s.data = [] := List.length_eq_zero_iff.mp (by rw [s.length_data, hs]; simp)
    exact ⟨t, rfl, by rw [ht, Nat.zero_add], by rw [hempty, List.nil_append]⟩
  · rw [ht] at ht0
    cases ht0
    have hempty : t.data = [] := List.length_eq_zero_iff.mp (by rw [t.length_data, ht]; simp)
    exact ⟨s, rfl, by rw [hs, Nat.add_zero], by rw [hempty, List.append_nil]⟩
  · exact ⟨_, rfl, by simp [rows, hs, ht], rfl⟩
  · exact absurd ⟨by simp [rows, hs], by simp [rows, hs, ht]⟩ h

/-- Tensors with rows of one shape go one after the other. -/
theorem foldlM_append {inner : List Nat} (ts : List (Tensor α)) {s : Tensor α} {m : Nat}
    (hs : s.shape = m :: inner) (hts : ∀ t ∈ ts, ∃ n, t.shape = n :: inner) :
    ∃ u, ts.foldlM append s = some u ∧ u.shape = (m + (ts.map rows).sum) :: inner ∧
      u.data = s.data ++ (ts.map data).flatten := by
  induction ts generalizing s m with
  | nil => exact ⟨s, rfl, by simp [hs], by simp⟩
  | cons t ts ih =>
    obtain ⟨⟨n, ht⟩, hrest⟩ := List.forall_mem_cons.mp hts
    obtain ⟨u, hu, hushape, hudata⟩ := append_of_shape hs ht
    obtain ⟨v, hv, hvshape, hvdata⟩ := ih hushape hrest
    refine ⟨v, by rw [List.foldlM_cons, hu]; exact hv, ?_, ?_⟩
    · have hn : t.rows = n := by rw [rows, ht]; rfl
      rw [hvshape, List.map_cons, List.sum_cons, hn, Nat.add_assoc]
    · rw [hvdata, hudata, List.map_cons, List.flatten_cons, List.append_assoc]

theorem cat_of_shapes {inner : List Nat} {ts : List (Tensor α)} (hne : ts ≠ [])
    (hts : ∀ t ∈ ts, ∃ n, t.shape = n :: inner) :
    ∃ u, cat ts = some u ∧ u.shape = (ts.map rows).sum :: inner ∧
      u.data = (ts.map data).flatten := by
  cases ts with
  | nil => exact absurd rfl hne
  | cons t ts =>
    obtain ⟨⟨n, ht⟩, hrest⟩ := List.forall_mem_cons.mp hts
    obtain ⟨u, hu, hshape, hdata⟩ := foldlM_append ts ht hrest
    have hnil : ¬t.shape = [] := by simp [ht]
    have hn : t.rows = n := by rw [rows, ht]; rfl
    exact ⟨u, by rw [cat, if_neg hnil, hu], by rw [hshape, List.map_cons, List.sum_cons, hn],
      by rw [hdata, List.map_cons, List.flatten_cons]⟩

theorem cat_three {s t u w : Tensor α} {l m n : Nat} {inner : List Nat} (h : cat [s, t, u] = some w)
    (hs : s.shape = l :: inner) (ht : t.shape = m :: inner) (hu : u.shape = n :: inner) :
    w.shape = (l + m + n) :: inner ∧ w.data = s.data ++ (t.data ++ u.data) := by
  have hshapes : ∀ v ∈ [s, t, u], ∃ n, v.shape = n :: inner :=
    List.forall_mem_cons.mpr ⟨⟨l, hs⟩, List.forall_mem_cons.mpr ⟨⟨m, ht⟩,
      List.forall_mem_singleton.mpr ⟨n, hu⟩⟩⟩
  obtain ⟨v, hv, hshape, hdata⟩ := cat_of_shapes (List.cons_ne_nil _ _) hshapes
  obtain rfl : v = w := Option.some.inj (hv.symm.trans h)
  refine ⟨?_, ?_⟩
  · simp [hshape, rows, hs, ht, hu, Nat.add_assoc]
  · simp [hdata]

/-! Rows -/

theorem slice_rows {t : Tensor α} {n : Nat} {inner : List Nat} (h : t.shape = n :: inner)
    (a b : Nat) :
    (t.slice 0 a b).shape = (min b n - min a n) :: inner ∧
      (t.slice 0 a b).data =
        (t.data.drop (min a n * inner.prod)).take ((min b n - min a n) * inner.prod) := by
  have hget : t.shape[0]? = some n := by rw [h]; rfl
  unfold slice
  split
  · rename_i hnone
    rw [hget] at hnone
    cases hnone
  · rename_i m hm
    obtain rfl : n = m := Option.some.inj (hget.symm.trans hm)
    constructor
    · simp [h]
    · simp [sliceData, stride, h]

/-- A part of the rows within bounds. -/
theorem slice_rows_of_le {t : Tensor α} {n : Nat} {inner : List Nat} (h : t.shape = n :: inner)
    {a b : Nat} (hab : a ≤ b) (hb : b ≤ n) :
    (t.slice 0 a b).shape = (b - a) :: inner ∧
      (t.slice 0 a b).data = (t.data.drop (a * inner.prod)).take ((b - a) * inner.prod) := by
  have hslice := slice_rows h a b
  rwa [Nat.min_eq_left hb, Nat.min_eq_left (hab.trans hb)] at hslice

theorem length_flatten_data {inner : List Nat} {ts : List (Tensor α)}
    (hts : ∀ t ∈ ts, ∃ n, t.shape = n :: inner) :
    (ts.map data).flatten.length = (ts.map rows).sum * inner.prod := by
  induction ts with
  | nil => simp
  | cons t ts ih =>
    obtain ⟨⟨n, ht⟩, hrest⟩ := List.forall_mem_cons.mp hts
    have hn : t.rows = n := by rw [rows, ht]; rfl
    rw [List.map_cons, List.flatten_cons, List.length_append, length_data_of_shape ht, ih hrest,
      List.map_cons, List.sum_cons, Nat.add_mul, hn]

/-- The rows of one of the tensors that `cat` was made of. -/
theorem slice_cat {inner : List Nat} {l m : List (Tensor α)} {t u : Tensor α}
    (hcat : cat (l ++ t :: m) = some u) (hts : ∀ s ∈ l ++ t :: m, ∃ n, s.shape = n :: inner) :
    u.slice 0 (l.map rows).sum ((l.map rows).sum + t.rows) = t := by
  obtain ⟨v, hv, hshape, hdata⟩ := cat_of_shapes (by simp) hts
  obtain rfl : v = u := Option.some.inj (hv.symm.trans hcat)
  obtain ⟨n, ht⟩ := hts t (List.mem_append_right l (List.mem_cons_self ..))
  have hn : t.rows = n := by rw [rows, ht]; rfl
  have hbefore := length_flatten_data fun s hs => hts s (List.mem_append_left _ hs)
  have hbound : (l.map rows).sum + t.rows ≤ ((l ++ t :: m).map rows).sum := by
    rw [List.map_append, List.sum_append, List.map_cons, List.sum_cons]
    omega
  obtain ⟨hslice, hsliced⟩ := slice_rows_of_le hshape (Nat.le_add_right _ t.rows) hbound
  rw [Nat.add_sub_cancel_left] at hslice hsliced
  refine ext_data (by rw [hslice, ht, hn]) ?_
  have hlength : t.data.length = t.rows * inner.prod := by rw [length_data_of_shape ht, hn]
  rw [hsliced, hdata, List.map_append, List.flatten_append, ← hbefore, List.drop_left,
    List.map_cons, List.flatten_cons, ← hlength, List.take_left]

/-! Rows at given places -/

/-- The elements of a row. -/
def row (t : Tensor α) (i : Nat) : List α := (t.data.drop (i * t.stride 0)).take (t.stride 0)

/-- A tensor is made of the rows of another one at given places, in this order. -/
def IsRows (s t : Tensor α) (places : List Nat) : Prop :=
  s.shape = places.length :: t.shape.tail ∧ s.data = places.flatMap t.row

section Rows

variable {s t u : Tensor α} {n : Nat} {inner places places' : List Nat}

theorem length_row (h : t.shape = n :: inner) {i : Nat} (hi : i < n) :
    (t.row i).length = inner.prod := by
  have hstride : t.stride 0 = inner.prod := by rw [stride, h]; rfl
  have hfit : i * inner.prod + inner.prod ≤ n * inner.prod := by
    rw [← Nat.succ_mul]
    exact Nat.mul_le_mul_right _ hi
  rw [row, hstride, List.length_take, List.length_drop, length_data_of_shape h]
  omega

theorem isRows_self (h : t.shape = n :: inner) : t.IsRows t (List.range n) := by
  have hrows : ∀ k ≤ n, (List.range k).flatMap t.row = t.data.take (k * inner.prod) := by
    intro k
    induction k with
    | zero => simp
    | succ k ih =>
      intro hk
      have hstride : t.stride 0 = inner.prod := by rw [stride, h]; rfl
      rw [List.range_succ, List.flatMap_append, ih (Nat.le_of_succ_le hk), List.flatMap_singleton,
        row, hstride, Nat.succ_mul, List.take_add]
  refine ⟨by rw [h, List.length_range, List.tail_cons], ?_⟩
  rw [hrows n le_rfl, ← length_data_of_shape h, List.take_length]

theorem sum_take_lengths {l : List (List α)} {k : Nat} (hl : ∀ x ∈ l, x.length = k) (i : Nat) :
    ((l.map List.length).take i).sum = min i l.length * k := by
  have hmap : l.map List.length = List.replicate l.length k := by
    rw [List.eq_replicate_iff]
    refine ⟨List.length_map _, fun m hm => ?_⟩
    obtain ⟨x, hx, rfl⟩ := List.mem_map.mp hm
    exact hl x hx
  rw [hmap, List.take_replicate, List.sum_replicate_nat]

theorem IsRows.slice (hs : s.IsRows t places) (ht : t.shape = n :: inner)
    (hplaces : ∀ i ∈ places, i < n) (a b : Nat) :
    (s.slice 0 a b).IsRows t ((places.drop a).take (b - a)) := by
  obtain ⟨hshape, hdata⟩ := hs
  have hlengths : ∀ x ∈ places.map t.row, x.length = inner.prod := by
    intro x hx
    obtain ⟨i, hi, rfl⟩ := List.mem_map.mp hx
    exact length_row ht (hplaces i hi)
  rw [ht, List.tail_cons] at hshape
  obtain ⟨hslice, hsliced⟩ := slice_rows hshape a b
  have hcount : min b places.length - min a places.length = min (b - a) (places.length - a) := by
    omega
  refine ⟨?_, ?_⟩
  · rw [hslice, ht, List.tail_cons, List.length_take, List.length_drop, hcount]
  · have hdrop : (places.flatMap t.row).drop (min a places.length * inner.prod) =
        ((places.map t.row).drop a).flatten := by
      rw [List.flatMap_def, ← List.drop_sum_flatten, sum_take_lengths hlengths, List.length_map]
    have htake : (((places.map t.row).drop a).flatten).take
        (min (b - a) (places.length - a) * inner.prod) =
          (((places.map t.row).drop a).take (b - a)).flatten := by
      rw [← List.take_sum_flatten, sum_take_lengths
        (fun x hx => hlengths x (List.mem_of_mem_drop hx)), List.length_drop, List.length_map]
    rw [hsliced, hdata, hcount, hdrop, htake, List.flatMap_def, List.map_take, List.map_drop]

theorem IsRows.exists_cat (hs : s.IsRows t places) (hu : u.IsRows t places') :
    ∃ v, cat [s, u] = some v ∧ v.IsRows t (places ++ places') := by
  obtain ⟨v, hv, hshape, hdata⟩ := cat_of_shapes (List.cons_ne_nil s [u])
    (List.forall_mem_cons.mpr ⟨⟨_, hs.1⟩, List.forall_mem_singleton.mpr ⟨_, hu.1⟩⟩)
  have hsRows : s.rows = places.length := by rw [rows, hs.1]; rfl
  have huRows : u.rows = places'.length := by rw [rows, hu.1]; rfl
  refine ⟨v, hv, ?_, ?_⟩
  · rw [hshape, List.map_cons, List.map_cons, List.map_nil, List.sum_cons, List.sum_singleton,
      hsRows, huRows, List.length_append]
  · rw [hdata, List.map_cons, List.map_cons, List.map_nil, List.flatten_cons, List.flatten_singleton,
      hs.2, hu.2, List.flatMap_append]

end Rows

/-- A tensor of a shape with given elements. -/
def fill (g : Nat → α) (shape : List Nat) : Tensor α :=
  ⟨shape, (List.range shape.prod).map g, by simp⟩

/-- Where the rows are single elements that tell their places, a tensor made of rows shows where
they stood. -/
theorem data_of_isRows_fill {s : Tensor Nat} {n : Nat} {inner places : List Nat}
    (hinner : inner.prod = 1) (hs : s.IsRows (fill id (n :: inner)) places)
    (hplaces : ∀ i ∈ places, i < n) : s.data = places := by
  have hrow : ∀ i < n, (fill id (n :: inner)).row i = [i] := by
    intro i hi
    have hdata : (fill id (n :: inner)).data = List.range n := by
      simp [fill, hinner]
    have hstride : (fill id (n :: inner)).stride 0 = 1 := hinner
    have hlt : i < (List.range n).length := by rwa [List.length_range]
    rw [row, hstride, Nat.mul_one, hdata, List.drop_eq_getElem_cons hlt, List.take_succ_cons,
      List.take_zero, List.getElem_range]
  rw [hs.2, List.flatMap_congr fun i hi => hrow i (hplaces i hi), List.flatMap_singleton']

theorem IsRows.places_unique {s : Tensor Nat} {n : Nat} {inner places places' : List Nat}
    (hinner : inner.prod = 1) (hs : s.IsRows (fill id (n :: inner)) places)
    (hs' : s.IsRows (fill id (n :: inner)) places') (hplaces : ∀ i ∈ places, i < n)
    (hplaces' : ∀ i ∈ places', i < n) : places = places' := by
  rw [← data_of_isRows_fill hinner hs hplaces, data_of_isRows_fill hinner hs' hplaces']

end Tensor

end Belayer.Framework
