import Belayer.Framework.CombineLeast
import Belayer.Framework.ListPlaces
import Belayer.Framework.Segments
import Mathlib.Data.List.Lex
import Mathlib.Data.List.Sort
import Mathlib.Data.Prod.Lex

namespace Belayer.Train

open Belayer.Framework

namespace KarmarkarKarp

/-- `Set`: the items of one partition, each with its index and its length. -/
abbrev Items := List (Nat × Nat)

/-- `State`: the partitions of some of the sequences, the largest first. -/
abbrev State := List Items

def sum (s : Items) : Nat := (s.map Prod.snd).sum

/-- What `Set.__lt__` compares. -/
def key (s : Items) : ℕ ×ₗ ℕ ×ₗ List (ℕ ×ₗ ℕ) := toLex (sum s, toLex (s.length, s.map toLex))

/-- `sorted(self.sets, reverse=True)`. -/
def sortSets (sets : List Items) : State := sets.insertionSort fun a b => key b ≤ key a

namespace State

def ofItems (items : List (Nat × Nat)) (k : Nat) : State :=
  sortSets ((List.range k).map fun i => items[i]?.toList)

/-- The largest sets of the one join the smallest sets of the other. -/
def merge (s t : State) : State := sortSets (List.zipWith (· ++ ·) s t.reverse)

def spread (s : State) : Nat := sum (s.head?.getD []) - sum (s.getLast?.getD [])

/-- `State.__lt__`: the largest spread comes first, and with one spread the largest set. No two
states have a sequence in common, so one of them comes first. -/
def before (s t : State) : Bool :=
  if s.spread ≠ t.spread then t.spread < s.spread
  else key (t.head?.getD []) < key (s.head?.getD [])

def getPartitions (s : State) : List (List Nat) := s.map fun items => items.map Prod.fst

end State

end KarmarkarKarp

open KarmarkarKarp

/-- `sorted_seqlen_list`, each length behind its index. -/
def sortedSeqlens (seqlens : List Nat) : List (Nat × Nat) :=
  (seqlens.zipIdx.insertionSort fun a b => toLex a ≤ toLex b).map Prod.swap

/-- The states that the heap starts with. -/
def startStates (seqlens : List Nat) (k : Nat) (equalSize : Bool) : List State :=
  if equalSize then
    (List.range (seqlens.length / k)).map fun j =>
      State.ofItems (segmentAt k (sortedSeqlens seqlens) j) k
  else (sortedSeqlens seqlens).map fun item => State.ofItems [item] k

def karmarkarKarp (seqlens : List Nat) (k : Nat) (equalSize : Bool) : Option (List (List Nat)) :=
  if k = 0 ∨ equalSize ∧ seqlens.length % k ≠ 0 then none
  else
    let states := startStates seqlens k equalSize
    match combineLeast State.before State.merge (states.length - 1) states with
    | [] => none
    | final :: _ =>
      let partitions := final.getPartitions
      if equalSize ∧ ∃ partition ∈ partitions, partition.length * k ≠ seqlens.length then none
      else some partitions

def getSeqlenBalancedPartitions (seqlens : List Nat) (k : Nat) (equalSize : Bool) :
    Option (List (List Nat)) :=
  if seqlens.length < k then none
  else
    match karmarkarKarp seqlens k equalSize with
    | none => none
    | some partitions =>
      if partitions.length = k ∧ (∀ partition ∈ partitions, partition ≠ []) ∧
          (∀ i ∈ partitions.flatten, i < seqlens.length) ∧
          (∀ i ∈ List.range seqlens.length, i ∈ partitions.flatten) then
        some (partitions.map fun partition => partition.insertionSort (· ≤ ·))
      else none

/-! ### The sets of a state -/

namespace KarmarkarKarp

variable {k : Nat} {s t : State}

theorem perm_sortSets (sets : List Items) : (sortSets sets).Perm sets :=
  List.perm_insertionSort _ sets

theorem pairwise_sortSets (sets : List Items) :
    (sortSets sets).Pairwise fun a b => key b ≤ key a := by
  have : Std.Total fun a b : Items => key b ≤ key a := ⟨fun a b => le_total (key b) (key a)⟩
  have : IsTrans Items fun a b => key b ≤ key a := ⟨fun _ _ _ hab hbc => hbc.trans hab⟩
  exact List.pairwise_insertionSort _ sets

/-- No set is smaller than an empty one. -/
theorem eq_nil_of_key_le {items : Items} (h : key items ≤ key []) : items = [] := by
  rcases Prod.Lex.toLex_le_toLex.mp h with hlt | ⟨-, hrest⟩
  · exact absurd hlt (Nat.not_lt_zero _)
  · rcases Prod.Lex.toLex_le_toLex.mp hrest with hlt | ⟨heq, -⟩
    · exact absurd hlt (Nat.not_lt_zero _)
    · exact List.eq_nil_of_length_eq_zero heq

/-- `k` sets with the empty ones last, no more of them than the items leave. -/
structure State.Fills (k : Nat) (s : State) : Prop where
  length : s.length = k
  sorted : s.Pairwise fun a b => key b ≤ key a
  empty_le : s.countP (fun items => items.isEmpty) ≤ k - s.flatten.length

namespace State

theorem Fills.place_of_empty (h : s.Fills k) {i : Nat} (hi : s[i]? = some []) :
    k - s.countP (fun items => items.isEmpty) ≤ i := by
  have hrest : ∀ items ∈ s.drop i, items.isEmpty = true := by
    intro items hitems
    rw [List.isEmpty_iff]
    obtain ⟨j, hj⟩ := List.mem_iff_getElem?.mp hitems
    rw [List.getElem?_drop] at hj
    obtain ⟨hlt, hget⟩ := List.getElem?_eq_some_iff.mp hi
    obtain ⟨hlt', hget'⟩ := List.getElem?_eq_some_iff.mp hj
    rcases Nat.eq_zero_or_pos j with rfl | hpos
    · rw [← hget', ← hget]
      rfl
    · have hle := List.pairwise_iff_getElem.mp h.sorted i (i + j) hlt hlt' (by omega)
      rw [hget, hget'] at hle
      exact eq_nil_of_key_le hle
  have hcount : (s.drop i).countP (fun items => items.isEmpty) = (s.drop i).length :=
    List.countP_eq_length.mpr hrest
  have hle := (List.drop_sublist i s).countP_le (p := fun items => items.isEmpty)
  rw [hcount, List.length_drop, h.length] at hle
  omega

theorem fills_sortSets {sets : List Items} (hlength : sets.length = k)
    (hempty : sets.countP (fun items => items.isEmpty) ≤ k - sets.flatten.length) :
    Fills k (sortSets sets) where
  length := (perm_sortSets sets).length_eq.trans hlength
  sorted := pairwise_sortSets sets
  empty_le := by
    rw [(perm_sortSets sets).countP_eq, (perm_sortSets sets).flatten.length_eq]
    exact hempty

theorem perm_merge_flatten (hlength : s.length = t.length) :
    (merge s t).flatten.Perm (s.flatten ++ t.flatten) := by
  have hzip : ∀ {a b : List Items}, a.length = b.length →
      (List.zipWith (· ++ ·) a b).flatten.Perm (a.flatten ++ b.flatten) := by
    intro a b hab
    induction a generalizing b with
    | nil =>
      rw [List.eq_nil_of_length_eq_zero hab.symm]
      exact .refl _
    | cons x a ih =>
      cases b with
      | nil => cases hab
      | cons y b =>
        have hrest := ih (Nat.succ.inj hab)
        rw [List.zipWith_cons_cons, List.flatten_cons, List.flatten_cons, List.flatten_cons,
          List.append_assoc, List.append_assoc]
        refine List.Perm.append_left x ((List.Perm.append_left y hrest).trans ?_)
        rw [← List.append_assoc, ← List.append_assoc]
        exact List.perm_append_comm.append_right _
  refine (perm_sortSets _).flatten.trans ((hzip ?_).trans ?_)
  · rw [hlength, List.length_reverse]
  · exact List.Perm.append_left _ (List.reverse_perm t).flatten

/-- In a combination a set is empty only where both were. -/
theorem Fills.merge (hs : s.Fills k) (ht : t.Fills k) : (s.merge t).Fills k := by
  have hzip : (List.zipWith (· ++ ·) s t.reverse).length = k := by
    rw [List.length_zipWith, List.length_reverse, hs.length, ht.length, Nat.min_self]
  have hflat := (perm_merge_flatten (hs.length.trans ht.length.symm)).length_eq
  rw [State.merge, (perm_sortSets _).flatten.length_eq, List.length_append] at hflat
  refine fills_sortSets hzip ?_
  have hplaces : (List.zipWith (· ++ ·) s t.reverse).countP (fun items => items.isEmpty) ≤
      t.countP (fun items => items.isEmpty) - (k - s.countP (fun items => items.isEmpty)) := by
    refine countP_le_of_places fun i items hi hempty => ?_
    obtain ⟨a, b, ha, hb, rfl⟩ := List.getElem?_zipWith_eq_some.mp hi
    rw [List.isEmpty_iff, List.append_eq_nil_iff] at hempty
    obtain ⟨rfl, rfl⟩ := hempty
    have hlt := (List.getElem?_eq_some_iff.mp hb).1
    rw [List.length_reverse, ht.length] at hlt
    rw [List.getElem?_reverse (by rw [ht.length]; exact hlt), ht.length] at hb
    have hfirst := hs.place_of_empty ha
    have hlast := ht.place_of_empty hb
    omega
  have hs' := hs.empty_le
  have ht' := ht.empty_le
  rw [hflat]
  omega

theorem flatten_range_toList {items : List (Nat × Nat)} (h : items.length ≤ k) :
    ((List.range k).map fun i => items[i]?.toList).flatten = items := by
  have hsegment : ∀ i, items[i]?.toList = segmentAt 1 items i := by
    intro i
    rw [segmentAt, Nat.mul_one, List.take_one, List.head?_drop]
  simp only [hsegment, ← List.flatMap_def]
  exact flatMap_segment (by omega)

theorem perm_ofItems {items : List (Nat × Nat)} (h : items.length ≤ k) :
    (ofItems items k).flatten.Perm items := by
  have hflat := (perm_sortSets ((List.range k).map fun i => items[i]?.toList)).flatten
  rwa [flatten_range_toList h] at hflat

theorem fills_ofItems {items : List (Nat × Nat)} (h : items.length ≤ k) :
    (ofItems items k).Fills k := by
  refine fills_sortSets (by rw [List.length_map, List.length_range]) ?_
  rw [flatten_range_toList h]
  refine countP_le_of_places fun i set hi hempty => ?_
  rw [List.getElem?_map] at hi
  obtain ⟨j, hj, rfl⟩ := Option.map_eq_some_iff.mp hi
  obtain ⟨hlt, hget⟩ := List.getElem?_eq_some_iff.mp hj
  rw [List.getElem_range] at hget
  rw [List.length_range] at hlt
  subst hget
  rw [List.isEmpty_iff, Option.toList_eq_nil_iff, List.getElem?_eq_none_iff] at hempty
  exact ⟨hempty, hlt⟩

theorem length_of_mem_ofItems {items : List (Nat × Nat)} (h : items.length = k) :
    ∀ set ∈ ofItems items k, set.length = 1 := by
  intro set hset
  obtain ⟨i, hi, rfl⟩ := List.mem_map.mp ((perm_sortSets _).subset hset)
  rw [List.mem_range, ← h] at hi
  rw [List.getElem?_eq_getElem hi]
  rfl

theorem length_of_mem_merge {c d : Nat} (hs : ∀ items ∈ s, items.length = c)
    (ht : ∀ items ∈ t, items.length = d) : ∀ items ∈ s.merge t, items.length = c + d := by
  intro items hitems
  obtain ⟨i, hi⟩ := List.mem_iff_getElem?.mp ((perm_sortSets _).subset hitems)
  obtain ⟨a, b, ha, hb, rfl⟩ := List.getElem?_zipWith_eq_some.mp hi
  rw [List.length_append, hs a (List.mem_of_getElem? ha),
    ht b (List.mem_reverse.mp (List.mem_of_getElem? hb))]

/-- What a state is while the heap is worked on: as far as the sets are to have one size, they
have. -/
def Regular (k : Nat) (equalSize : Bool) (s : State) : Prop :=
  s.Fills k ∧ (equalSize = true → ∃ c, ∀ items ∈ s, items.length = c)

theorem Regular.merge {equalSize : Bool} (hs : s.Regular k equalSize)
    (ht : t.Regular k equalSize) : (s.merge t).Regular k equalSize := by
  refine ⟨hs.1.merge ht.1, fun hequal => ?_⟩
  obtain ⟨c, hc⟩ := hs.2 hequal
  obtain ⟨d, hd⟩ := ht.2 hequal
  exact ⟨c + d, length_of_mem_merge hc hd⟩

end State

end KarmarkarKarp

/-! ### The partitions -/

section Partitions

variable {seqlens : List Nat} {k : Nat} {equalSize : Bool}

theorem length_sortedSeqlens : (sortedSeqlens seqlens).length = seqlens.length := by
  rw [sortedSeqlens, List.length_map, List.length_insertionSort, List.length_zipIdx]

theorem perm_fst_sortedSeqlens :
    ((sortedSeqlens seqlens).map Prod.fst).Perm (List.range seqlens.length) := by
  have hsorted := List.perm_insertionSort (fun a b => toLex a ≤ toLex b) seqlens.zipIdx
  have hsnd := hsorted.map Prod.snd
  rw [List.zipIdx_map_snd, ← List.range_eq_range'] at hsnd
  rw [sortedSeqlens, List.map_map]
  exact hsnd

/-- The states of the heap have each sequence once. -/
theorem perm_startStates (hk : 0 < k) (hequal : equalSize = true → seqlens.length % k = 0) :
    ((startStates seqlens k equalSize).flatMap List.flatten).Perm (sortedSeqlens seqlens) := by
  rw [startStates]
  split_ifs with hsize
  · have hdiv := Nat.div_mul_cancel (Nat.dvd_of_mod_eq_zero (hequal hsize))
    rw [List.flatMap_map]
    have hle : (sortedSeqlens seqlens).length ≤ seqlens.length / k * k := by
      rw [length_sortedSeqlens]
      omega
    have hsegments := flatMap_segment hle
    refine (List.Perm.flatMap_left _ fun j _ => State.perm_ofItems ?_).trans
      (List.Perm.of_eq hsegments)
    rw [length_segment]
    exact Nat.min_le_left _ _
  · rw [List.flatMap_map]
    refine (List.Perm.flatMap_left _ fun item _ => State.perm_ofItems ?_).trans
      (List.Perm.of_eq (List.flatMap_singleton' _))
    exact hk

theorem regular_startStates (hk : 0 < k) (hequal : equalSize = true → seqlens.length % k = 0) :
    ∀ s ∈ startStates seqlens k equalSize, s.Regular k equalSize := by
  intro s hs
  rw [startStates] at hs
  split_ifs at hs with hsize
  · obtain ⟨j, hj, rfl⟩ := List.mem_map.mp hs
    have hdiv := Nat.div_mul_cancel (Nat.dvd_of_mod_eq_zero (hequal hsize))
    have hle := Nat.mul_le_mul_right k (List.mem_range.mp hj)
    rw [Nat.succ_mul, hdiv] at hle
    have hlength : (segmentAt k (sortedSeqlens seqlens) j).length = k := by
      rw [length_segment, length_sortedSeqlens]
      omega
    exact ⟨State.fills_ofItems hlength.le, fun _ => ⟨1, State.length_of_mem_ofItems hlength⟩⟩
  · obtain ⟨item, -, rfl⟩ := List.mem_map.mp hs
    exact ⟨State.fills_ofItems hk, fun h => absurd h hsize⟩

theorem startStates_ne_nil (equalSize : Bool) (hk : 0 < k) (hn : k ≤ seqlens.length) :
    startStates seqlens k equalSize ≠ [] := by
  intro hnil
  have hlength := congrArg List.length hnil
  rw [startStates] at hlength
  split_ifs at hlength
  · rw [List.length_map, List.length_range, List.length_nil] at hlength
    have := Nat.div_pos hn hk
    omega
  · rw [List.length_map, length_sortedSeqlens, List.length_nil] at hlength
    omega

/-- What the differencing makes of at least `k` sequences: `k` partitions, none of them empty, with
each sequence in one of them, and of one size where this is asked for. -/
structure IsPartition (n k : Nat) (equalSize : Bool) (partitions : List (List Nat)) : Prop where
  length : partitions.length = k
  nonempty : ∀ partition ∈ partitions, partition ≠ []
  perm : partitions.flatten.Perm (List.range n)
  equal : equalSize = true → ∀ partition ∈ partitions, partition.length * k = n

theorem exists_karmarkarKarp (hk : 0 < k) (hn : k ≤ seqlens.length)
    (hequal : equalSize = true → seqlens.length % k = 0) :
    ∃ partitions, karmarkarKarp seqlens k equalSize = some partitions ∧
      IsPartition seqlens.length k equalSize partitions := by
  have hpositive := List.length_pos_of_ne_nil
    (startStates_ne_nil equalSize hk hn)
  obtain ⟨final, hfinal, ⟨hfills, hsized⟩, hperm⟩ :=
    exists_combineLeast (State.Regular k equalSize) List.flatten State.before State.merge
      (fun _ _ => State.Regular.merge)
      (fun _ _ hs ht => State.perm_merge_flatten (hs.1.length.trans ht.1.length.symm))
      (n := (startStates seqlens k equalSize).length - 1) (by omega)
      (regular_startStates hk hequal)
  have hitems := hperm.trans (perm_startStates hk hequal)
  have hcount : final.flatten.length = seqlens.length :=
    hitems.length_eq.trans length_sortedSeqlens
  have hnone : ∀ items ∈ final, items ≠ [] := by
    have hzero : final.countP (fun items => items.isEmpty) = 0 := by
      have := hfills.empty_le
      omega
    intro items hmem hnil
    exact List.countP_eq_zero.mp hzero items hmem (List.isEmpty_iff.mpr hnil)
  have hpart : IsPartition seqlens.length k equalSize final.getPartitions := by
    refine ⟨?_, ?_, ?_, fun hsize => ?_⟩
    · rw [State.getPartitions, List.length_map, hfills.length]
    · intro partition hpartition
      obtain ⟨items, hmem, rfl⟩ := List.mem_map.mp hpartition
      rw [Ne, List.map_eq_nil_iff]
      exact hnone items hmem
    · rw [State.getPartitions, ← List.map_flatten]
      exact (hitems.map Prod.fst).trans perm_fst_sortedSeqlens
    · obtain ⟨c, hc⟩ := hsized hsize
      have hsum : final.flatten.length = k * c := by
        rw [List.length_flatten, List.map_congr_left hc, List.map_const',
          List.sum_replicate_nat, hfills.length]
      intro partition hpartition
      obtain ⟨items, hmem, rfl⟩ := List.mem_map.mp hpartition
      rw [List.length_map, hc items hmem, ← hcount, hsum, Nat.mul_comm]
  refine ⟨final.getPartitions, ?_, hpart⟩
  rw [karmarkarKarp, if_neg]
  · dsimp only
    rw [hfinal]
    exact if_neg fun ⟨hsize, partition, hmem, hne⟩ => hne (hpart.equal hsize partition hmem)
  · rintro (rfl | ⟨hsize, hmod⟩)
    · exact absurd hk (Nat.lt_irrefl 0)
    · exact hmod (hequal hsize)

theorem exists_getSeqlenBalancedPartitions (hk : 0 < k) (hn : k ≤ seqlens.length)
    (hequal : equalSize = true → seqlens.length % k = 0) :
    ∃ partitions, getSeqlenBalancedPartitions seqlens k equalSize = some partitions ∧
      IsPartition seqlens.length k equalSize partitions := by
  obtain ⟨partitions, hkk, hpart⟩ := exists_karmarkarKarp hk hn hequal
  have hmem : ∀ i, i ∈ partitions.flatten ↔ i < seqlens.length := fun i =>
    hpart.perm.mem_iff.trans List.mem_range
  refine ⟨partitions.map fun partition => partition.insertionSort (· ≤ ·), ?_, ?_⟩
  · rw [getSeqlenBalancedPartitions, if_neg (by omega), hkk]
    exact if_pos ⟨hpart.length, hpart.nonempty, fun i hi => (hmem i).mp hi,
      fun i hi => (hmem i).mpr (List.mem_range.mp hi)⟩
  · refine ⟨?_, ?_, ?_, fun hsize => ?_⟩
    · rw [List.length_map, hpart.length]
    · intro sorted hsorted
      obtain ⟨partition, hpartition, rfl⟩ := List.mem_map.mp hsorted
      rw [Ne, ← List.length_eq_zero_iff, List.length_insertionSort, List.length_eq_zero_iff]
      exact hpart.nonempty partition hpartition
    · refine List.Perm.trans ?_ hpart.perm
      rw [← List.flatMap_def]
      refine (List.Perm.flatMap_left _ fun partition _ =>
        List.perm_insertionSort _ partition).trans (List.Perm.of_eq ?_)
      rw [List.flatMap_def, List.map_id']
    · intro sorted hsorted
      obtain ⟨partition, hpartition, rfl⟩ := List.mem_map.mp hsorted
      rw [List.length_insertionSort]
      exact hpart.equal hsize partition hpartition

end Partitions

end Belayer.Train
