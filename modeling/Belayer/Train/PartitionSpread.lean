import Belayer.Train.SeqlenBalancing

namespace Belayer.Train

open Belayer.Framework

/-! The partitions of the differencing method are balanced: two of them differ by one sequence at
most. -/

namespace KarmarkarKarp

variable {k m : Nat} {s t : State}

@[simp] theorem sum_append (a b : Items) : sum (a ++ b) = sum a + sum b := by simp [sum]

@[simp] theorem sum_nil : sum [] = 0 := rfl

namespace State

/-- Two sets of a state differ by `m` at most. -/
def Balanced (m : Nat) (s : State) : Prop := ∀ a ∈ s, ∀ b ∈ s, sum a ≤ sum b + m

theorem sum_le_of_key_le {a b : Items} (h : key a ≤ key b) : sum a ≤ sum b := by
  rcases Prod.Lex.toLex_le_toLex.mp h with hlt | ⟨heq, -⟩
  · exact hlt.le
  · exact heq.le

theorem balanced_sortSets {sets : List Items} : Balanced m (sortSets sets) ↔ Balanced m sets := by
  have hmem : ∀ a, a ∈ sortSets sets ↔ a ∈ sets := fun a => (perm_sortSets sets).mem_iff
  simp only [Balanced, hmem]

/-- Where large sets get small ones, a difference does not grow: it is one of the first state less
one of the second. -/
theorem Balanced.merge (hs : s.Balanced m) (ht : t.Balanced m) (hfs : s.Fills k)
    (hft : t.Fills k) : (s.merge t).Balanced m := by
  rw [State.merge, balanced_sortSets]
  have hlength : (List.zipWith (· ++ ·) s t.reverse).length = k := by
    simp [hfs.length, hft.length]
  have hdesc : ∀ {u : State}, u.Fills k → ∀ {i j : Nat} (_ : i < u.length) (_ : j < u.length),
      i ≤ j → sum u[j] ≤ sum u[i] := by
    intro u hu i j _ hj hij
    rcases Nat.eq_or_lt_of_le hij with rfl | hlt
    · exact le_rfl
    · exact sum_le_of_key_le (List.pairwise_iff_getElem.mp hu.sorted i j _ hj hlt)
  intro a ha b hb
  obtain ⟨i, hi, rfl⟩ := List.getElem_of_mem ha
  obtain ⟨j, hj, rfl⟩ := List.getElem_of_mem hb
  have hik : i < k := hlength ▸ hi
  have hjk : j < k := hlength ▸ hj
  have hs' : ∀ n, n < k → n < s.length := fun n hn => by rw [hfs.length]; exact hn
  have ht' : ∀ n, n < k → t.length - 1 - n < t.length := fun n hn => by rw [hft.length]; omega
  simp only [List.getElem_zipWith, List.getElem_reverse, sum_append]
  have hsij := hs _ (List.getElem_mem (hs' i hik)) _ (List.getElem_mem (hs' j hjk))
  have htij := ht _ (List.getElem_mem (ht' i hik)) _ (List.getElem_mem (ht' j hjk))
  rcases Nat.le_total i j with hij | hji
  · have hrest := hdesc hft (ht' j hjk) (ht' i hik) (by omega)
    omega
  · have hrest := hdesc hfs (hs' j hjk) (hs' i hik) hji
    omega

/-- Sets of one item each, and empty ones, differ by the longest item at most. -/
theorem balanced_ofItems {items : List (Nat × Nat)} (h : ∀ item ∈ items, item.2 ≤ m) :
    (ofItems items k).Balanced m := by
  rw [ofItems, balanced_sortSets]
  have hsmall : ∀ a ∈ (List.range k).map fun i => items[i]?.toList, sum a ≤ m := by
    intro a ha
    obtain ⟨i, -, rfl⟩ := List.mem_map.mp ha
    cases hget : items[i]? with
    | none => simp
    | some item => simpa [sum] using h item (List.mem_of_getElem? hget)
  intro a ha b hb
  have := hsmall a ha
  omega

end State

end KarmarkarKarp

open KarmarkarKarp

section Partitions

variable {seqlens : List Nat} {k m : Nat} {equalSize : Bool} {partitions : List (List Nat)}

/-- The lengths of the sequences of a partition together. -/
def load (seqlens : List Nat) (partition : List Nat) : Nat :=
  (partition.map fun i => seqlens.getD i 0).sum

theorem load_perm {p q : List Nat} (h : p.Perm q) : load seqlens p = load seqlens q :=
  (h.map _).sum_eq

theorem mem_sortedSeqlens {item : Nat × Nat} (h : item ∈ sortedSeqlens seqlens) :
    seqlens[item.1]? = some item.2 := by
  obtain ⟨⟨n, i⟩, hitem, rfl⟩ := List.mem_map.mp h
  have hitem := (List.perm_insertionSort _ _).subset hitem
  exact List.mem_zipIdx_iff_getElem?.mp hitem

theorem sum_eq_load {items : Items} (h : ∀ item ∈ items, item ∈ sortedSeqlens seqlens) :
    KarmarkarKarp.sum items = load seqlens (items.map Prod.fst) := by
  rw [KarmarkarKarp.sum, load, List.map_map]
  congr 1
  apply List.map_congr_left
  intro item hitem
  simp [List.getD_eq_getElem?_getD, mem_sortedSeqlens (h item hitem)]

theorem balanced_startStates (hm : ∀ n ∈ seqlens, n ≤ m) :
    ∀ s ∈ startStates seqlens k equalSize, s.Balanced m := by
  have hitems : ∀ item ∈ sortedSeqlens seqlens, item.2 ≤ m :=
    fun item hitem => hm _ (List.mem_of_getElem? (mem_sortedSeqlens hitem))
  intro s hs
  rw [startStates] at hs
  split_ifs at hs
  · obtain ⟨j, -, rfl⟩ := List.mem_map.mp hs
    apply State.balanced_ofItems
    intro item hitem
    exact hitems item (List.mem_of_mem_drop (List.mem_of_mem_take hitem))
  · obtain ⟨item, hitem, rfl⟩ := List.mem_map.mp hs
    apply State.balanced_ofItems
    intro item' hitem'
    rw [List.mem_singleton.mp hitem']
    exact hitems item hitem

theorem load_le_of_karmarkarKarp (hk : 0 < k) (hn : k ≤ seqlens.length)
    (h : karmarkarKarp seqlens k equalSize = some partitions) (hm : ∀ n ∈ seqlens, n ≤ m) :
    ∀ p ∈ partitions, ∀ q ∈ partitions, load seqlens p ≤ load seqlens q + m := by
  have hequal : equalSize = true → seqlens.length % k = 0 := by
    intro hsize
    by_contra hmod
    rw [karmarkarKarp, if_pos (Or.inr ⟨hsize, hmod⟩)] at h
    cases h
  have hpositive := List.length_pos_of_ne_nil (startStates_ne_nil equalSize hk hn)
  obtain ⟨final, hfinal, ⟨hfills, hbalanced⟩, hperm⟩ :=
    exists_combineLeast (fun s : State => s.Fills k ∧ s.Balanced m) List.flatten State.before State.merge
      (fun _ _ hs ht => ⟨hs.1.merge ht.1, hs.2.merge ht.2 hs.1 ht.1⟩)
      (fun _ _ hs ht => State.perm_merge_flatten (hs.1.length.trans ht.1.length.symm))
      (n := (startStates seqlens k equalSize).length - 1) (by omega)
      (fun s hs => ⟨(regular_startStates hk hequal s hs).1, balanced_startStates hm s hs⟩)
  have hitems := hperm.trans (perm_startStates hk hequal)
  have hpartitions : partitions = State.getPartitions final := by
    rw [karmarkarKarp] at h
    split_ifs at h
    dsimp only at h
    rw [hfinal] at h
    dsimp only at h
    split_ifs at h
    exact (Option.some.inj h).symm
  have hload : ∀ items ∈ final, KarmarkarKarp.sum items = load seqlens (items.map Prod.fst) := by
    intro items hmem
    apply sum_eq_load
    intro item hitem
    exact hitems.subset (List.mem_flatten_of_mem hmem hitem)
  subst hpartitions
  intro p hp q hq
  obtain ⟨a, ha, rfl⟩ := List.mem_map.mp hp
  obtain ⟨b, hb, rfl⟩ := List.mem_map.mp hq
  rw [← hload a ha, ← hload b hb]
  exact hbalanced a ha b hb

theorem load_le_of_getSeqlenBalancedPartitions (hk : 0 < k)
    (h : getSeqlenBalancedPartitions seqlens k equalSize = some partitions)
    (hm : ∀ n ∈ seqlens, n ≤ m) :
    ∀ p ∈ partitions, ∀ q ∈ partitions, load seqlens p ≤ load seqlens q + m := by
  rw [getSeqlenBalancedPartitions] at h
  split_ifs at h with hn
  cases hkk : karmarkarKarp seqlens k equalSize with
  | none =>
    rw [hkk] at h
    cases h
  | some parts =>
    rw [hkk] at h
    dsimp only at h
    split_ifs at h
    obtain rfl := Option.some.inj h
    intro p hp q hq
    obtain ⟨a, ha, rfl⟩ := List.mem_map.mp hp
    obtain ⟨b, hb, rfl⟩ := List.mem_map.mp hq
    rw [load_perm (List.perm_insertionSort _ a), load_perm (List.perm_insertionSort _ b)]
    exact load_le_of_karmarkarKarp hk (by omega) hkk hm a ha b hb

theorem load_flatten (ps : List (List Nat)) :
    load seqlens ps.flatten = (ps.map (load seqlens)).sum := by
  induction ps with
  | nil => rfl
  | cons p ps ih => rw [List.map_cons, List.sum_cons, ← ih]; simp [load]

theorem sum_load (h : partitions.flatten.Perm (List.range seqlens.length)) :
    (partitions.map (load seqlens)).sum = seqlens.sum := by
  have hrange : (List.range seqlens.length).map (fun i => seqlens.getD i 0) = seqlens := by
    apply List.ext_getElem
    · simp
    · intro i hi _
      simp at hi
      simp [hi]
  calc (partitions.map (load seqlens)).sum
      = load seqlens partitions.flatten := (load_flatten partitions).symm
    _ = load seqlens (List.range seqlens.length) := load_perm h
    _ = seqlens.sum := by rw [load, hrange]

/-- Each load is `m` at most above each of the others, and so above their mean. -/
theorem length_mul_le {loads : List Nat} {m x : Nat} (hx : x ∈ loads)
    (h : ∀ y ∈ loads, x ≤ y + m) : loads.length * x ≤ loads.sum + (loads.length - 1) * m := by
  have hall : ∀ ys : List Nat, (∀ y ∈ ys, x ≤ y + m) → ys.length * x ≤ ys.sum + ys.length * m := by
    intro ys hys
    induction ys with
    | nil => simp
    | cons y ys ih =>
      have hy := hys y List.mem_cons_self
      have hrest := ih fun z hz => hys z (List.mem_cons_of_mem _ hz)
      simp only [List.length_cons, List.sum_cons, Nat.add_mul, Nat.one_mul]
      omega
  obtain ⟨before, after, rfl⟩ := List.append_of_mem hx
  have hbefore := hall before fun y hy => h y (List.mem_append_left _ hy)
  have hafter := hall after fun y hy => h y (List.mem_append_right _ (List.mem_cons_of_mem _ hy))
  have hlength : (before ++ x :: after).length - 1 = before.length + after.length := by
    simp only [List.length_append, List.length_cons]
    omega
  rw [hlength]
  simp only [List.length_append, List.length_cons, List.sum_append, List.sum_cons, Nat.add_mul,
    Nat.one_mul]
  omega

/-- The balanced partitions are there, two of them differ by the longest sequence at most, and none
is further than that above the mean. -/
theorem getSeqlenBalancedPartitions_balanced (hk : 0 < k) (hn : k ≤ seqlens.length)
    (hequal : equalSize = true → seqlens.length % k = 0) (hm : ∀ n ∈ seqlens, n ≤ m) :
    ∃ partitions, getSeqlenBalancedPartitions seqlens k equalSize = some partitions ∧
      (∀ p ∈ partitions, ∀ q ∈ partitions, load seqlens p ≤ load seqlens q + m) ∧
      ∀ p ∈ partitions, k * load seqlens p ≤ seqlens.sum + (k - 1) * m := by
  obtain ⟨partitions, hpartitions, hpart⟩ :=
    exists_getSeqlenBalancedPartitions hk hn hequal
  have hpairs := load_le_of_getSeqlenBalancedPartitions hk hpartitions hm
  refine ⟨partitions, hpartitions, hpairs, fun p hp => ?_⟩
  have hmean := length_mul_le (List.mem_map_of_mem (f := load seqlens) hp) fun y hy => by
    obtain ⟨q, hq, rfl⟩ := List.mem_map.mp hy
    exact hpairs p hp q hq
  rwa [List.length_map, hpart.length, sum_load hpart.perm] at hmean

theorem getSeqlenBalancedPartitions_balanced_five :
    ∃ partitions, getSeqlenBalancedPartitions [7, 6, 5, 4, 3] 2 false = some partitions ∧
      (∀ p ∈ partitions, ∀ q ∈ partitions,
        load [7, 6, 5, 4, 3] p ≤ load [7, 6, 5, 4, 3] q + 7) ∧
      ∀ p ∈ partitions, 2 * load [7, 6, 5, 4, 3] p ≤ [7, 6, 5, 4, 3].sum + (2 - 1) * 7 :=
  getSeqlenBalancedPartitions_balanced (by decide) (by decide) (fun h => absurd h (by decide))
    (by decide)

end Partitions

end Belayer.Train
