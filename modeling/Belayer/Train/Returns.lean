import Belayer.Train.Advantages

namespace Belayer.Train

open Belayer.Framework

variable {R : Type} [CommRing R]

/-! REINFORCE++ -/

/-- `full_mask.nonzero()[0][-1]`. -/
def lastNonzero (mask : List Nat) : Option Nat :=
  ((List.range mask.length).filter fun i => mask.getD i 0 ≠ 0).getLast?

/-- `token_level_rewards`: the penalty of each token, and the reward at the last one of the mask. -/
def tokenLevelRewards (reward klCoef : R) (fullKl : List R) (mask : List Nat) : Option (List R) := do
  guard (0 < mask.sum)
  guard (fullKl.length = mask.length)
  let maskedKl := List.zipWith (fun k (m : Nat) => k * (m : R)) fullKl mask
  let lastIdx ← lastNonzero mask
  return (maskedKl.map (-klCoef * ·)).modify lastIdx (· + reward)

/-- `returns_for_seq`: `G_t = r_t + gamma * G_{t+1}`. -/
def discountedReturns (gamma : R) (rewards : List R) : List R :=
  ((List.range rewards.length).reverse.foldl
    (fun (p : R × List R) t =>
      let runningReturn := rewards.getD t 0 + gamma * p.1
      (runningReturn, runningReturn :: p.2)) (0, [])).2

/-- A sample of which each rank has a slice of the penalties. -/
structure KlSample (cpSize : Nat) (R : Type) where
  totalLength : Nat
  responseLength : Nat
  reward : R
  lossMask : List Nat
  kl : Fin cpSize → List R

section

variable {cpSize : Nat} (cpRank : Fin cpSize)

/-- `get_reinforce_plus_plus_returns` for one sequence. -/
def reinforceReturns (klCoef gamma : R) (s : KlSample cpSize R) : Option (List R) := do
  let fullKl ← allGatherWithCp cpRank s.kl s.totalLength s.responseLength
  let rewards ← tokenLevelRewards s.reward klCoef fullKl s.lossMask
  let returns := discountedReturns gamma rewards
  if cpSize = 1 then return returns
  else sliceLogProbWithCp cpRank returns s.totalLength s.responseLength .thd none

/-- `get_reinforce_plus_plus_returns`. -/
def getReinforcePlusPlusReturns (klCoef gamma : R) (samples : List (KlSample cpSize R)) :
    Option (List (List R)) :=
  samples.mapM (reinforceReturns cpRank klCoef gamma)

/-- The rewards of the `ppo` estimator: rank 0 adds the reward of the sequence to the last token
that it has. -/
def ppoRewards (klCoef reward : R) (kl : List R) : Option (List R) :=
  let k := kl.map (· * -klCoef)
  if cpRank.val = 0 then
    if k = [] then none else some (k.modify (k.length - 1) (· + reward))
  else some k

end

variable {cpSize : Nat} {cpRank : Fin cpSize} {totalLength responseLength : Nat} {gamma : R}

theorem foldl_returns (f : Nat → R) (s : R) (ts : List Nat) (acc : List R) :
    ts.foldl (fun (p : R × List R) t => (f t + gamma * p.1, (f t + gamma * p.1) :: p.2)) (s, acc) =
      (runRecurrence gamma s (ts.map f), (recurrence gamma s (ts.map f)).reverse ++ acc) := by
  induction ts generalizing s acc with
  | nil => simp [runRecurrence]
  | cons t ts ih => simp [ih, runRecurrence, recurrence]

theorem discountedReturns_eq (gamma : R) (rewards : List R) :
    discountedReturns gamma rewards = (recurrence gamma 0 rewards.reverse).reverse := by
  have hlist : (List.range rewards.length).map (rewards.getD · 0) = rewards := by
    apply List.ext_getElem
    · simp
    · intro t ht ht'
      rw [List.getElem_map, List.getElem_range, List.getD_eq_getElem _ _ ht']
  rw [discountedReturns, foldl_returns, List.append_nil, List.map_reverse, hlist]

/-- A return adds up the rewards from its token on, discounted by their distance. -/
theorem getD_discountedReturns (gamma : R) (rewards : List R) {t : Nat} (ht : t < rewards.length) :
    (discountedReturns gamma rewards).getD t 0 =
      ∑ k ∈ Finset.range (rewards.length - t), gamma ^ k * rewards.getD (t + k) 0 := by
  have hlt : rewards.length - 1 - t < rewards.reverse.length := by
    rw [List.length_reverse]
    omega
  have hback : ((recurrence gamma 0 rewards.reverse).reverse).getD t 0 =
      (recurrence gamma 0 rewards.reverse).getD (rewards.length - 1 - t) 0 := by
    rw [List.getD_eq_getElem _ _ (by simpa using ht), List.getD_eq_getElem _ _ (by simpa using hlt),
      List.getElem_reverse]
    simp
  rw [discountedReturns_eq, hback, getD_recurrence hlt, mul_zero, add_zero, ← Finset.sum_range_reflect]
  have hcount : rewards.length - 1 - t + 1 = rewards.length - t := by omega
  rw [hcount]
  apply Finset.sum_congr rfl
  intro k hk
  have hk := Finset.mem_range.mp hk
  have hplace : rewards.length - t - 1 - k < rewards.reverse.length := by
    rw [List.length_reverse]
    omega
  rw [List.getD_eq_getElem _ _ hplace, List.getElem_reverse, List.getD_eq_getElem _ _ (by omega)]
  congr 2
  · omega
  · omega

/-- The last place of the mask that counts. -/
theorem lastNonzero_spec {mask : List Nat} (h : 0 < mask.sum) :
    ∃ last < mask.length, lastNonzero mask = some last ∧ mask.getD last 0 ≠ 0 ∧
      ∀ i, last < i → mask.getD i 0 = 0 := by
  have hne : (List.range mask.length).filter (fun i => mask.getD i 0 ≠ 0) ≠ [] := by
    intro hnil
    rw [List.filter_eq_nil_iff] at hnil
    have hzero : ∀ m ∈ mask, m = 0 := by
      intro m hm
      obtain ⟨i, hi, rfl⟩ := List.getElem_of_mem hm
      have hmem := hnil i (List.mem_range.mpr hi)
      rw [List.getD_eq_getElem _ _ hi] at hmem
      simpa using hmem
    rw [List.sum_eq_zero hzero] at h
    exact absurd h (lt_irrefl 0)
  have hlast := List.getLast_mem hne
  rw [List.mem_filter, List.mem_range] at hlast
  refine ⟨_, hlast.1, List.getLast?_eq_getLast_of_ne_nil hne, by simpa using hlast.2, ?_⟩
  intro i hi
  by_contra hmask
  have hlt : i < mask.length := by
    by_contra hge
    exact hmask (List.getD_eq_default _ _ (by omega))
  have hmem : i ∈ (List.range mask.length).filter (fun i => mask.getD i 0 ≠ 0) := by
    rw [List.mem_filter, List.mem_range]
    exact ⟨hlt, by simpa using hmask⟩
  have hsorted := (List.pairwise_lt_range (n := mask.length)).filter
    (fun i => decide (mask.getD i 0 ≠ 0))
  rw [← List.dropLast_append_getLast hne] at hmem hsorted
  rcases List.mem_append.mp hmem with hbefore | hend
  · have hlt := (List.pairwise_append.mp hsorted).2.2 i hbefore _ (List.mem_singleton_self _)
    omega
  · have heq := List.mem_singleton.mp hend
    omega

/-- The penalties of a whole response behind a prompt. -/
structure FullKlSample (R : Type) where
  totalLength : Nat
  responseLength : Nat
  reward : R
  lossMask : List Nat
  kl : List R
  length_kl : kl.length = responseLength
  prompt : responseLength < totalLength

namespace FullKlSample

/-- What the ranks have of a sample. -/
def shards (cpSize : Nat) (s : FullKlSample R) : KlSample cpSize R where
  totalLength := s.totalLength
  responseLength := s.responseLength
  reward := s.reward
  lossMask := s.lossMask
  kl := fun cpRank => cpShard cpRank s.totalLength s.responseLength .thd none s.kl

end FullKlSample

/-- Every rank gets its slice of the discounted returns of the whole response. -/
theorem reinforceReturns_shards (klCoef gamma : R) (s : FullKlSample R)
    (hlen : s.lossMask.length = s.responseLength) (hmask : 0 < s.lossMask.sum) :
    ∃ last returns, last < s.responseLength ∧ s.lossMask.getD last 0 ≠ 0 ∧
      (∀ i, last < i → s.lossMask.getD i 0 = 0) ∧
      (∀ t < s.responseLength, returns.getD t 0 =
        ∑ k ∈ Finset.range (s.responseLength - t), gamma ^ k *
          (-klCoef * (s.kl.getD (t + k) 0 * (s.lossMask.getD (t + k) 0 : Nat)) +
            if t + k = last then s.reward else 0)) ∧
      ∀ (cpSize : Nat) (cpRank : Fin cpSize),
        reinforceReturns cpRank klCoef gamma (s.shards cpSize) =
          some (cpShard cpRank s.totalLength s.responseLength .thd none returns) := by
  obtain ⟨last, hlast, hfound, hcounts, hbehind⟩ := lastNonzero_spec hmask
  set rewards := ((List.zipWith (fun k (m : Nat) => k * (m : R)) s.kl s.lossMask).map
    (-klCoef * ·)).modify last (· + s.reward) with hrewards
  have hlength : rewards.length = s.responseLength := by
    simp [hrewards, s.length_kl, hlen]
  have htoken : tokenLevelRewards s.reward klCoef s.kl s.lossMask = some rewards := by
    simp [tokenLevelRewards, guard, hmask, s.length_kl, hlen, hfound, hrewards]
  refine ⟨last, discountedReturns gamma rewards, hlen ▸ hlast, hcounts, hbehind, ?_, ?_⟩
  · intro t ht
    rw [getD_discountedReturns gamma rewards (hlength ▸ ht), hlength]
    apply Finset.sum_congr rfl
    intro k hk
    have hk := Finset.mem_range.mp hk
    have hlt : t + k < rewards.length := by omega
    have hkl : t + k < s.kl.length := by
      rw [s.length_kl]
      omega
    have hm : t + k < s.lossMask.length := by omega
    congr 1
    rw [List.getD_eq_getElem _ _ hlt, List.getD_eq_getElem _ _ hkl, List.getD_eq_getElem _ _ hm]
    simp only [hrewards, List.getElem_modify, List.getElem_map, List.getElem_zipWith]
    by_cases htk : t + k = last
    · rw [if_pos htk.symm, if_pos htk]
    · rw [if_neg (Ne.symm htk), if_neg htk, add_zero]
  · intro cpSize cpRank
    have hkl : allGatherWithCp cpRank (s.shards cpSize).kl s.totalLength s.responseLength =
        some s.kl := allGatherWithCp_cpShard s.length_kl s.prompt cpRank
    have hreturns : (discountedReturns gamma rewards).length = s.responseLength := by
      simp [discountedReturns_eq, hlength]
    have hslice : sliceLogProbWithCp cpRank _ s.totalLength s.responseLength .thd none = _ :=
      sliceLogProbWithCp_eq_cpShard hreturns s.prompt (fitsFormat_thd s.totalLength none)
    simp only [reinforceReturns]
    rw [show (s.shards cpSize).totalLength = s.totalLength from rfl,
      show (s.shards cpSize).responseLength = s.responseLength from rfl,
      show (s.shards cpSize).reward = s.reward from rfl,
      show (s.shards cpSize).lossMask = s.lossMask from rfl, hkl]
    simp only [Option.bind_eq_bind, Option.bind_some, htoken, hslice]
    split_ifs with hone
    · simp [cpShard, hone]
    · rfl

/-- A response of three tokens behind a prompt of two, of which the last does not count. -/
def maskedKl : FullKlSample ℤ := ⟨5, 3, 7, [1, 1, 0], [1, 2, 3], rfl, by decide⟩

theorem reinforceReturns_shards_maskedKl :
    ∃ last returns, last < 3 ∧ maskedKl.lossMask.getD last 0 ≠ 0 ∧
      (∀ i, last < i → maskedKl.lossMask.getD i 0 = 0) ∧
      (∀ t < 3, returns.getD t 0 =
        ∑ k ∈ Finset.range (3 - t), (2 : ℤ) ^ k *
          (-1 * (maskedKl.kl.getD (t + k) 0 * (maskedKl.lossMask.getD (t + k) 0 : Nat)) +
            if t + k = last then 7 else 0)) ∧
      ∀ (cpSize : Nat) (cpRank : Fin cpSize),
        reinforceReturns cpRank 1 2 (maskedKl.shards cpSize) =
          some (cpShard cpRank 5 3 .thd none returns) :=
  reinforceReturns_shards 1 2 maskedKl rfl (by decide)

/-! ### The reward of the sequence under `ppo` -/

theorem window_modify_of_lt {α : Type} (f : α → α) {l : List α} {a b i : Nat} (ha : a ≤ i)
    (hb : i < b) : window (l.modify i f) a b = (window l a b).modify (i - a) f := by
  apply List.ext_getElem?
  intro j
  rw [getElem?_window, List.getElem?_modify, List.getElem?_modify, getElem?_window]
  by_cases hj : i - a = j
  · rw [if_pos (by omega), if_pos (by omega)]
    simp [show i = a + j by omega]
  · simp [hj, show i ≠ a + j by omega]

theorem window_modify_of_not {α : Type} (f : α → α) {l : List α} {a b i : Nat}
    (h : ¬(a ≤ i ∧ i < b)) : window (l.modify i f) a b = window l a b := by
  apply List.ext_getElem?
  intro j
  rw [getElem?_window, List.getElem?_modify, getElem?_window]
  by_cases hj : i = a + j
  · rw [if_neg (by omega), if_neg (by omega)]
  · simp [hj]

theorem modify_append_right {α : Type} (f : α → α) (l m : List α) (i : Nat) :
    (l ++ m).modify (l.length + i) f = l ++ m.modify i f := by
  apply List.ext_getElem?
  intro j
  simp only [List.getElem?_modify, List.getElem?_append]
  split_ifs with h1 h2 h3 <;> first | rfl | (exfalso; omega) | simp

section

variable {α : Type} {l : List α} {c i j : Nat}

theorem chunkAt_modify_of_not (f : α → α) {s : Nat} (h : ¬InChunk c i (s + j)) :
    chunkAt c s i (l.modify j f) = chunkAt c s i l := by
  apply window_modify_of_not
  unfold InChunk at h
  omega

theorem zigzag_modify_of_not (f : α → α) {n s r : Nat} (h : ¬InChunk c r (s + j))
    (h' : ¬InChunk c (2 * n - 1 - r) (s + j)) :
    zigzag n c s r (l.modify j f) = zigzag n c s r l := by
  rw [zigzag, zigzag, chunkAt_modify_of_not f h, chunkAt_modify_of_not f h']

/-- A rank has nothing, or what it has last is at the greatest of its places. -/
theorem zigzag_last (hc : 0 < c) (hl : l.length = responseLength)
    (hprompt : responseLength < totalLength) {r : Nat} (hr : r < cpSize) :
    let s := totalLength - responseLength - 1
    let mine := fun j => InChunk c r (s + j) ∨ InChunk c (2 * cpSize - 1 - r) (s + j)
    (zigzag cpSize c s r l = [] ∧ ∀ j < responseLength, ¬mine j) ∨
      zigzag cpSize c s r l ≠ [] ∧
      ∃ j < responseLength, mine j ∧ (∀ j' < responseLength, mine j' → j' ≤ j) ∧
        ∀ f : α → α, (zigzag cpSize c s r l).modify ((zigzag cpSize c s r l).length - 1) f =
          zigzag cpSize c s r (l.modify j f) := by
  intro s mine
  have hone : ∀ {i i' j : Nat}, InChunk c i (s + j) → InChunk c i' (s + j) → i = i' := by
    intro i i' j hi hi'
    rw [inChunk_iff hc] at hi hi'
    exact hi.trans hi'.symm
  have hne : r ≠ 2 * cpSize - 1 - r := by omega
  have hlen : ∀ {a b : Nat}, a < b → b ≤ responseLength → (window l a b).length = b - a := by
    intro a b hab hb
    rw [length_window]
    omega
  have hmodify : ∀ f : α → α, ∀ j, (l.modify j f).length = responseLength := by
    intro f j
    rw [List.length_modify, hl]
  rcases chunk_cases hl hprompt c (2 * cpSize - 1 - r) with
    ⟨a, b, -, hab, hb, hin, hchunk⟩ | ⟨-, hout, hchunk⟩
  · right
    have hlast : InChunk c (2 * cpSize - 1 - r) (s + (b - 1)) :=
      (hin (b - 1) (by omega)).mpr (by omega)
    refine ⟨?_, b - 1, by omega, Or.inr hlast, ?_, ?_⟩
    · rw [zigzag, hchunk, ← List.length_pos_iff, List.length_append, hlen hab hb]
      omega
    · rintro j' hj' (hfirst | hsecond)
      · have hle : (r + 1) * c ≤ (2 * cpSize - 1 - r) * c := Nat.mul_le_mul_right c (by omega)
        unfold InChunk at hfirst hlast
        omega
      · have := (hin j' hj').mp hsecond
        omega
    · intro f
      have hfirst : ¬InChunk c r (s + (b - 1)) := fun h => hne (hone h hlast)
      have hwindow : chunkAt c s (2 * cpSize - 1 - r) (l.modify (b - 1) f) =
          window (l.modify (b - 1) f) a b := chunkAt_eq_window (hmodify f (b - 1) ▸ hin)
      have hend : (chunkAt c s r l ++ window l a b).length - 1 =
          (chunkAt c s r l).length + (b - 1 - a) := by
        rw [List.length_append, hlen hab hb]
        omega
      rw [zigzag, hchunk, zigzag, chunkAt_modify_of_not f hfirst, hwindow, hend,
        modify_append_right, window_modify_of_lt f (by omega) (by omega)]
  · rcases chunk_cases hl hprompt c r with
      ⟨a, b, -, hab, hb, hin, hchunk'⟩ | ⟨-, hout', hchunk'⟩
    · right
      have hlast : InChunk c r (s + (b - 1)) := (hin (b - 1) (by omega)).mpr (by omega)
      refine ⟨?_, b - 1, by omega, Or.inl hlast, ?_, ?_⟩
      · rw [zigzag, hchunk', ← List.length_pos_iff, List.length_append, hlen hab hb]
        omega
      · rintro j' hj' (hfirst | hsecond)
        · have := (hin j' hj').mp hfirst
          omega
        · exact absurd hsecond (hout j' hj')
      · intro f
        have hwindow : chunkAt c s r (l.modify (b - 1) f) = window (l.modify (b - 1) f) a b :=
          chunkAt_eq_window (hmodify f (b - 1) ▸ hin)
        have hempty : chunkAt c s (2 * cpSize - 1 - r) (l.modify (b - 1) f) = [] :=
          chunkAt_eq_nil (hmodify f (b - 1) ▸ hout)
        rw [zigzag, hchunk, hchunk', zigzag, hwindow, hempty, List.append_nil, List.append_nil,
          window_modify_of_lt f (by omega) (by omega), hlen hab hb]
        congr 1
        omega
    · left
      refine ⟨by rw [zigzag, hchunk, hchunk']; rfl, ?_⟩
      rintro j hj (hfirst | hsecond)
      · exact hout' j hj hfirst
      · exact hout j hj hsecond

end

/-- The last token of the response is one of rank 0, whose second chunk is the last one. -/
theorem last_mine_iff (hcp : 1 < cpSize) (hpos : 0 < responseLength)
    (hprompt : responseLength < totalLength) :
    let c := cpChunkSize cpSize totalLength
    let s := totalLength - responseLength - 1
    InChunk c 0 (s + (responseLength - 1)) ∨ InChunk c (2 * cpSize - 1 - 0) (s + (responseLength - 1)) ↔
      totalLength - 2 < c ∨ (2 * cpSize - 1) * c ≤ totalLength - 2 := by
  intro c s
  have hcover : totalLength ≤ 2 * cpSize * c := le_mul_cpChunkSize (by omega) totalLength
  have hlast : s + (responseLength - 1) = totalLength - 2 := by omega
  have hwhole : 2 * cpSize - 1 + 1 = 2 * cpSize := by omega
  rw [hlast]
  simp only [InChunk, Nat.sub_zero, hwhole, Nat.zero_mul, Nat.zero_add, Nat.one_mul]
  omega

def firstRank (hcp : 1 < cpSize) : Fin cpSize := ⟨0, Nat.zero_lt_of_lt hcp⟩

/-- The rewards of the ranks are the slices of the penalties with the reward at one place, the last
one of rank 0. -/
theorem ppoRewards_shards (klCoef reward : R) {kl : List R} (hcp : 1 < cpSize)
    (hl : kl.length = responseLength) (hprompt : responseLength < totalLength) :
    let c := cpChunkSize cpSize totalLength
    let s := totalLength - responseLength - 1
    let mine := fun j => InChunk c 0 (s + j) ∨ InChunk c (2 * cpSize - 1 - 0) (s + j)
    (ppoRewards (firstRank hcp) klCoef reward
        (cpShard (firstRank hcp) totalLength responseLength .thd none kl) = none ∧
      ∀ j < responseLength, ¬mine j) ∨
      ∃ j < responseLength, mine j ∧ (∀ j' < responseLength, mine j' → j' ≤ j) ∧
        ∀ cpRank : Fin cpSize, ppoRewards cpRank klCoef reward
            (cpShard cpRank totalLength responseLength .thd none kl) =
          some (cpShard cpRank totalLength responseLength .thd none
            ((kl.map (· * -klCoef)).modify j (· + reward))) := by
  intro c s mine
  have hcover : totalLength ≤ 2 * cpSize * c := le_mul_cpChunkSize (by omega) totalLength
  have hc : 0 < c := by
    rcases Nat.eq_zero_or_pos c with hzero | hpos
    · rw [hzero] at hcover
      omega
    · exact hpos
  have hthd : formatChunkSize cpSize totalLength .thd none = some c := rfl
  have hk : (kl.map (· * -klCoef)).length = responseLength := by rw [List.length_map, hl]
  have hmap : ∀ cpRank : Fin cpSize,
      (cpShard cpRank totalLength responseLength .thd none kl).map (· * -klCoef) =
        zigzag cpSize c s cpRank (kl.map (· * -klCoef)) := by
    intro cpRank
    rw [← cpShard_map, cpShard_of_lt hcp hthd]
  rcases zigzag_last hc hk hprompt (show 0 < cpSize by omega) with
    ⟨hempty, hnone⟩ | ⟨hne, j, hj, hmine, hgreatest, hmodify⟩
  · left
    refine ⟨?_, hnone⟩
    have hempty : zigzag cpSize c s (firstRank hcp) (kl.map (· * -klCoef)) = [] := hempty
    have hzero : (firstRank hcp).val = 0 := rfl
    simp only [ppoRewards, hmap]
    rw [if_pos hzero, if_pos hempty]
  · right
    refine ⟨j, hj, hmine, hgreatest, ?_⟩
    intro cpRank
    simp only [ppoRewards, hmap]
    rw [cpShard_of_lt hcp hthd]
    by_cases hzero : cpRank.val = 0
    · rw [if_pos hzero, hzero, if_neg hne]
      exact congrArg some (hmodify _)
    · have hlt := cpRank.isLt
      have hother : ∀ i, i ≠ 0 → i ≠ 2 * cpSize - 1 - 0 → ¬InChunk c i (s + j) := by
        rintro i h0 h1 hi
        rw [inChunk_iff hc] at hi
        rcases hmine with hfirst | hsecond
        · exact h0 (hi.trans ((inChunk_iff hc).mp hfirst).symm)
        · exact h1 (hi.trans ((inChunk_iff hc).mp hsecond).symm)
      rw [if_neg hzero]
      have hsame := zigzag_modify_of_not (n := cpSize) (l := kl.map (· * -klCoef)) (· + reward)
        (hother cpRank hzero (by omega)) (hother (2 * cpSize - 1 - cpRank) (by omega) (by omega))
      exact congrArg some hsame.symm

/-- With context parallelism the ranks gather the rewards that one rank computes just where the
last token of the response is one of rank 0. -/
theorem ppoRewards_gather_iff {klCoef reward : R} {kl : List R} (hcp : 1 < cpSize)
    (hreward : reward ≠ 0) (hl : kl.length = responseLength) (hpos : 0 < responseLength)
    (hprompt : responseLength < totalLength) :
    (∃ rewards : Fin cpSize → List R,
      (∀ cpRank, ppoRewards cpRank klCoef reward
        (cpShard cpRank totalLength responseLength .thd none kl) = some (rewards cpRank)) ∧
      ∀ cpRank, allGatherWithCp cpRank rewards totalLength responseLength =
        ppoRewards (0 : Fin 1) klCoef reward kl) ↔
      totalLength - 2 < cpChunkSize cpSize totalLength ∨
        (2 * cpSize - 1) * cpChunkSize cpSize totalLength ≤ totalLength - 2 := by
  set k := kl.map (· * -klCoef) with hkdef
  have hk : k.length = responseLength := by rw [hkdef, List.length_map, hl]
  have hne : k ≠ [] := by
    rw [← List.length_pos_iff, hk]
    exact hpos
  have hplain : ppoRewards (0 : Fin 1) klCoef reward kl =
      some (k.modify (responseLength - 1) (· + reward)) := by
    simp only [ppoRewards, ← hkdef, hne, hk, if_false, Fin.val_zero, if_true]
  refine Iff.trans ?_ (last_mine_iff hcp hpos hprompt)
  rw [hplain]
  rcases ppoRewards_shards klCoef reward hcp hl hprompt with
    ⟨hnone, hout⟩ | ⟨j, hj, hmine, hgreatest, hshards⟩
  · constructor
    · rintro ⟨rewards, hrewards, -⟩
      rw [hrewards] at hnone
      cases hnone
    · exact fun h => absurd h (hout _ (by omega))
  · have hlen : (k.modify j (· + reward)).length = responseLength := by
      rw [List.length_modify, hk]
    have hgather := fun cpRank : Fin cpSize => allGatherWithCp_cpShard hlen hprompt cpRank
    constructor
    · rintro ⟨rewards, hrewards, hall⟩
      have heq : rewards = fun cpRank : Fin cpSize => cpShard cpRank totalLength responseLength .thd
          none (k.modify j (· + reward)) := by
        funext cpRank
        exact Option.some.inj ((hrewards cpRank).symm.trans (hshards cpRank))
      subst heq
      have hsame := Option.some.inj ((hgather (firstRank hcp)).symm.trans (hall (firstRank hcp)))
      have hlast : j = responseLength - 1 := by
        by_contra hother
        have hjk : j < k.length := by omega
        have hget := congrArg (fun l => l[j]?) hsame
        simp only [List.getElem?_modify, List.getElem?_eq_getElem hjk, if_true,
          Ne.symm hother, if_false] at hget
        exact hreward (by simpa using hget)
      rw [← hlast]
      exact hmine
    · intro hlast
      have hle := hgreatest (responseLength - 1) (by omega) hlast
      obtain rfl : j = responseLength - 1 := by omega
      exact ⟨_, hshards, hgather⟩

theorem ppoRewards_gather_iff_three :
    (∃ rewards : Fin 2 → List ℤ,
      (∀ cpRank, ppoRewards cpRank 1 7 (cpShard cpRank 5 3 .thd none [1, 2, 3]) =
        some (rewards cpRank)) ∧
      ∀ cpRank, allGatherWithCp cpRank rewards 5 3 = ppoRewards (0 : Fin 1) 1 7 [1, 2, 3]) ↔
      5 - 2 < cpChunkSize 2 5 ∨ (2 * 2 - 1) * cpChunkSize 2 5 ≤ 5 - 2 :=
  ppoRewards_gather_iff (by decide) (by decide) rfl (by decide) (by decide)

end Belayer.Train
