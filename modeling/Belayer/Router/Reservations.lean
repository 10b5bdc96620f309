import Belayer.Router.Load

namespace Belayer.Router

open Belayer.Framework

namespace LoadState

/-! ### Registration numbers -/

private theorem countP_take_lt {l : List Registration} {i j : Nat} {a : Registration}
    (hi : l[i]? = some a) (hij : i < j) (p : Registration → Bool) (hp : p a = true) :
    (l.take i).countP p < (l.take j).countP p := by
  have hlen := (List.getElem?_eq_some_iff.mp hi).1
  have hsucc : (l.take (i + 1)).countP p = (l.take i).countP p + 1 := by
    rw [List.take_succ_eq_append_getElem hlen, List.countP_append,
      (List.getElem?_eq_some_iff.mp hi).2]
    simp [hp]
  have hmono : (l.take (i + 1)).countP p ≤ (l.take j).countP p :=
    (List.take_sublist_take_left (by omega)).countP_le
  omega

/-- The registrations of one key have different numbers. -/
theorem index_eq_of_key_seq {s : LoadState} (hs : Linked s) {i j : Nat} {a b : Registration}
    (ha : s.registrations[i]? = some a) (hb : s.registrations[j]? = some b)
    (hk : a.key = b.key) (hq : a.seq = b.seq) : i = j := by
  have na := hs.numbered i a ha
  have nb := hs.numbered j b hb
  rcases Nat.lt_trichotomy i j with hlt | he | hlt
  · have h := countP_take_lt ha hlt (·.key = b.key) (by simp [hk])
    rw [← hk] at h nb
    omega
  · exact he
  · have h := countP_take_lt hb hlt (·.key = a.key) (by simp [hk])
    rw [hk] at h na
    omega

/-- No completion trips the assertion while no count is below its reservations. -/
theorem nonNegative_of_leak {s : LoadState} (hs : Linked s) (hp : PairsUnique s)
    (hl : ∀ url ∈ s.router.workerRequestCounts, 0 ≤ s.leak url) : NonNegative s := by
  intro t ht
  by_cases hq : t.url ∈ s.router.workerRequestCounts ∧ s.router.seqByUrl t.url = t.seq
  · obtain ⟨hm, hseq⟩ := hq
    have hreg := (registration_eq_iff hs hp ht hm).mpr hseq
    have hpos : 0 < s.onCurrent t.url :=
      List.countP_pos_iff.mpr ⟨t, ht, by simp [Reservation.madeOn, hreg]⟩
    have hleak := hl t.url hm
    have hcount : 1 ≤ s.router.requestCount t.url := by
      unfold leak at hleak
      omega
    have hf := (finishUrl_counted hm).2 hcount
    rwa [hseq] at hf
  · rw [finishUrl_stale (fun hm he => hq ⟨hm, he⟩)]

theorem staleHarmless_of_pairsUnique {s : LoadState} (hs : Linked s) (hp : PairsUnique s) :
    StaleHarmless s := by
  intro t ht hne
  have hst : t.url ∈ s.router.workerRequestCounts → s.router.seqByUrl t.url ≠ t.seq :=
    fun hm he => hne ((registration_eq_iff hs hp ht hm).mpr he)
  rw [finishUrl_stale hst]

theorem loadExact_iff_leak {s : LoadState} :
    LoadExact s ↔ ∀ url ∈ s.router.workerRequestCounts, s.leak url = 0 := by
  simp [LoadExact, leak, sub_eq_zero]

/-- A url is registered after a step only if the step added it or it was before. -/
theorem mem_of_next {s s' : LoadState} {a : LoadAction} (h : s.next a = some s') {url : String}
    (hu : url ∈ s'.router.workerRequestCounts) :
    a.added.map Prod.fst = some url ∨ url ∈ s.router.workerRequestCounts := by
  rcases next_cases h with ⟨c, rfl, rfl⟩ | ⟨r, u, seq, -, hr, rfl⟩ | ⟨t, -, -, rfl⟩
  · rcases c.apply_cases s.router with ⟨-, hn, he⟩ | ⟨u, key, -, hc, he⟩ | ⟨u, key, -, hn, he⟩
    · simp only [call, hn, he] at hu
      exact .inr hu
    · have ha : c.added = some (u, key) := hc
      simp only [call, ha, he, SlimeRouter.mem_counts_registerWorker] at hu
      rcases hu with rfl | hu
      · exact .inl (by simp [LoadAction.added, ha])
      · exact .inr hu
    · simp only [call, hn, he, SlimeRouter.mem_counts_unregisterWorker] at hu
      exact .inr hu.2
  · exact .inr ((hr.same.mem url).mp hu)
  · exact .inr (((sameRegistry_finishUrl s.router t.url t.seq).mem url).mp hu)

theorem mem_of_added {s s' : LoadState} {a : LoadAction} (h : s.next a = some s')
    {url key : String} (ha : a.added = some (url, key)) : url ∈ s'.router.workerRequestCounts := by
  rcases next_cases h with ⟨c, rfl, rfl⟩ | ⟨r, u, seq, hn, -, -⟩ | ⟨t, rfl, -, -⟩
  · have hc : c.added = some (url, key) := ha
    rcases c.apply_cases s.router with ⟨-, hn, -⟩ | ⟨u, k, -, hr, he⟩ | ⟨u, k, -, hn, -⟩
    · exact absurd (hn.symm.trans hc) (by simp)
    · obtain ⟨rfl, rfl⟩ := RegistryCall.Registers.unique hc hr
      simp [call, hc, he]
    · exact absurd (hn.symm.trans hc) (by simp)
  · exact absurd (hn.symm.trans ha) (by simp)
  · cases ha

theorem requestCount_of_not_mem {r : SlimeRouter} {url : String}
    (h : url ∉ r.workerRequestCounts) : r.requestCount url = 0 :=
  Dict.getD_of_not_mem h

/-- The history only grows, by the url and the key the step registers. -/
theorem registrations_next {s s' : LoadState} {a : LoadAction} (h : s.next a = some s') :
    ∃ l, s'.registrations = s.registrations ++ l ∧
      l.map (fun b => (b.url, b.key)) = a.added.toList := by
  rcases next_cases h with ⟨c, rfl, rfl⟩ | ⟨r, u, seq, hn, -, rfl⟩ | ⟨t, rfl, -, rfl⟩
  · cases hc : c.added with
    | none => exact ⟨[], by simp [call, hc], by simp [LoadAction.added, hc]⟩
    | some p =>
      obtain ⟨url, key⟩ := p
      exact ⟨[⟨url, key, s.router.seqByKey key + 1⟩], by simp [call, hc],
        by simp [LoadAction.added, hc]⟩
  · exact ⟨[], by simp [reserve], by simp [hn]⟩
  · exact ⟨[], by simp, by simp [LoadAction.added]⟩

theorem pairsUnique_of_next {s s' : LoadState} {a : LoadAction} (h : s.next a = some s')
    (hp : PairsUnique s') : PairsUnique s := by
  obtain ⟨l, he, -⟩ := registrations_next h
  intro i j a b hi hj hu hq
  have keep {i : Nat} {a : Registration} (hi : s.registrations[i]? = some a) :
      s'.registrations[i]? = some a := by
    rw [he, List.getElem?_append_left (List.getElem?_eq_some_iff.mp hi).1, hi]
  exact hp i j a b (keep hi) (keep hj) hu hq

/-! ### One key for each url -/

/-- The step registers its url under the key of all its earlier registrations. -/
def KeepsKey (s : LoadState) (a : LoadAction) : Prop :=
  match a.added with
  | none => True
  | some (url, key) => ∀ b ∈ s.registrations, b.url = url → b.key = key

/-- The step does not register again a url whose request count is not zero. -/
def RegistersIdle (s : LoadState) (a : LoadAction) : Prop :=
  match a.added with
  | none => True
  | some (url, _) => url ∈ s.router.workerRequestCounts → s.router.requestCount url = 0

instance (s : LoadState) (a : LoadAction) : Decidable (KeepsKey s a) := by
  unfold KeepsKey
  split <;> infer_instance

instance (s : LoadState) (a : LoadAction) : Decidable (RegistersIdle s a) := by
  unfold RegistersIdle
  split <;> infer_instance

/-- Every url was only ever registered under one key. -/
def OneKey (s : LoadState) : Prop :=
  ∀ a ∈ s.registrations, ∀ b ∈ s.registrations, a.url = b.url → a.key = b.key

theorem pairsUnique_of_oneKey {s : LoadState} (hs : Linked s) (hk : OneKey s) : PairsUnique s := by
  intro i j a b ha hb hu hq
  exact index_eq_of_key_seq hs ha hb
    (hk a (List.mem_of_getElem? ha) b (List.mem_of_getElem? hb) hu) hq

theorem oneKey_next {s s' : LoadState} {a : LoadAction} (hk : OneKey s) (hg : KeepsKey s a)
    (h : s.next a = some s') : OneKey s' := by
  obtain ⟨l, he, hl⟩ := registrations_next h
  unfold KeepsKey at hg
  cases ha : a.added with
  | none =>
    have hnil : l = [] := by simpa [ha] using hl
    unfold OneKey
    rw [he, hnil, List.append_nil]
    exact hk
  | some p =>
    obtain ⟨url, key⟩ := p
    rw [ha] at hg hl
    obtain ⟨b, rfl, hb⟩ : ∃ b, l = [b] ∧ (b.url, b.key) = (url, key) := by
      cases l with
      | nil => simp at hl
      | cons b l =>
        have hx : (b.url, b.key) = (url, key) ∧ l = [] := by simpa using hl
        exact ⟨b, by rw [hx.2], hx.1⟩
    obtain ⟨rfl, rfl⟩ := Prod.mk.inj hb
    intro x hx y hy hu
    rw [he, List.mem_append, List.mem_singleton] at hx hy
    rcases hx with hx | rfl <;> rcases hy with hy | rfl
    · exact hk x hx y hy hu
    · exact hg x hx hu
    · exact (hg y hy hu.symm).symm
    · rfl

/-- With one key for each url, a step keeps the counts exact and the assertion
out of reach exactly when it does not register a busy url again. -/
theorem exact_next_iff {s s' : LoadState} {a : LoadAction} (hs : Linked s) (hk : OneKey s)
    (hp : LoadExact s ∧ NonNegative s) (hg : KeepsKey s a) (h : s.next a = some s') :
    (LoadExact s' ∧ NonNegative s') ↔ RegistersIdle s a := by
  have hl' := linked_next hs h
  have hu := pairsUnique_of_oneKey hs hk
  have hu' := pairsUnique_of_oneKey hl' (oneKey_next hk hg h)
  have hzero := loadExact_iff_leak.mp hp.1
  constructor
  · intro hx
    obtain ⟨he, -⟩ := hx
    unfold RegistersIdle
    cases ha : a.added with
    | none => trivial
    | some p =>
      obtain ⟨url, key⟩ := p
      intro _
      have hm := mem_of_added h ha
      have hleak := leak_next hs hu h url hm
      rw [loadExact_iff_leak.mp he url hm, ha] at hleak
      simpa using hleak.symm
  · intro hr
    have hz : ∀ url ∈ s'.router.workerRequestCounts, s'.leak url = 0 := by
      intro url hm
      rw [leak_next hs hu h url hm]
      split_ifs with ha
      · obtain ⟨⟨u, key⟩, hadd, rfl⟩ := Option.map_eq_some_iff.mp ha
        rw [RegistersIdle, hadd] at hr
        by_cases hb : u ∈ s.router.workerRequestCounts
        · exact hr hb
        · exact requestCount_of_not_mem hb
      · exact hzero url ((mem_of_next h hm).resolve_left ha)
    exact ⟨loadExact_iff_leak.mpr hz,
      nonNegative_of_leak hl' hu' (fun url hm => (hz url hm).ge)⟩

/-- Let every url be registered under one key only. All along a run the request
counts equal the unfinished reservations on the current registrations, with the
assertion out of reach, iff no step registers again a url that is still
registered with a count other than zero. -/
theorem load_exact (as : List LoadAction) (hkey : Meets next KeepsKey init as) :
    Along next (fun s => LoadExact s ∧ NonNegative s) init as ↔
      Meets next RegistersIdle init as := by
  refine along_iff_meets (I := fun s => Linked s ∧ OneKey s) ?_ ?_ ?_ ?_ hkey
  · intro s a s' hx hg h
    obtain ⟨hs, hk⟩ := hx
    exact ⟨linked_next hs h, oneKey_next hk hg h⟩
  · intro s a s' hx hp hg h
    obtain ⟨hs, hk⟩ := hx
    exact exact_next_iff hs hk hp hg h
  · exact ⟨init_linked, by simp [OneKey, init]⟩
  · exact ⟨by simp [LoadExact, init, SlimeRouter.init], by simp [NonNegative, init]⟩

/-- A worker that registers again, on its url and under its key, while a request
is in flight. -/
def busyRun : List LoadAction :=
  [.registry (.addWorker { queryUrl := some "http://h:1", queryWorkerKey := some "k" }),
    .useUrl [],
    .registry (.addWorker { queryUrl := some "http://h:1", queryWorkerKey := some "k" })]

theorem load_exact_busyRun :
    Along next (fun s => LoadExact s ∧ NonNegative s) init busyRun ↔
      Meets next RegistersIdle init busyRun :=
  load_exact busyRun (by decide)

/-- The count of the re-registered worker stays one too high. -/
theorem busyRun_leaks :
    Meets next KeepsKey init busyRun ∧
      ¬Along next (fun s => LoadExact s ∧ NonNegative s) init busyRun := by
  refine ⟨by decide, fun h => ?_⟩
  have he := (h.last rfl).1 "http://h:1" (by decide)
  exact absurd he (by decide)

/-! ### Urls that change their key -/

/-- The urls and keys that the run registers, in order. -/
def addedBy (as : List LoadAction) : List (String × String) := as.filterMap LoadAction.added

/-- Some url is registered under two keys, being as many registrations into the
one key as into the other. -/
def Crossing (added : List (String × String)) : Prop :=
  ∃ (i j : Nat) (url key key' : String),
    added[i]? = some (url, key) ∧ added[j]? = some (url, key') ∧ key ≠ key' ∧
      (added.take i).countP (·.2 = key) = (added.take j).countP (·.2 = key')

/-- What identifying a registration by url and number is to guarantee. -/
def Identifies (s : LoadState) : Prop := PairsUnique s ∧ StaleHarmless s ∧ NonNegative s

theorem pairsUnique_iff_not_crossing {s : LoadState} (hs : Linked s) :
    PairsUnique s ↔ ¬Crossing (s.registrations.map fun a => (a.url, a.key)) := by
  have hcount (i : Nat) (key : String) :
      ((s.registrations.map fun a => (a.url, a.key)).take i).countP (·.2 = key) =
        (s.registrations.take i).countP (·.key = key) := by
    rw [← List.map_take, List.countP_map]
    rfl
  constructor
  · intro hp hx
    obtain ⟨i, j, url, key, key', hi, hj, hne, hc⟩ := hx
    rw [List.getElem?_map, Option.map_eq_some_iff] at hi hj
    obtain ⟨a, ha, he⟩ := hi
    obtain ⟨b, hb, he'⟩ := hj
    obtain ⟨rfl, rfl⟩ := Prod.mk.inj he
    obtain ⟨hu, rfl⟩ := Prod.mk.inj he'
    rw [hcount, hcount] at hc
    have hq : a.seq = b.seq := by rw [hs.numbered i a ha, hs.numbered j b hb, hc]
    obtain rfl := hp i j a b ha hb hu.symm hq
    exact hne (congrArg Registration.key (Option.some.inj (ha.symm.trans hb)))
  · intro hx i j a b ha hb hu hq
    by_cases hk : a.key = b.key
    · exact index_eq_of_key_seq hs ha hb hk hq
    · refine absurd ⟨i, j, a.url, a.key, b.key, ?_, ?_, hk, ?_⟩ hx
      · simp [ha]
      · simp [hb, hu]
      · rw [hcount, hcount]
        have na := hs.numbered i a ha
        have nb := hs.numbered j b hb
        omega

/-- As long as the pairs are unique, no count falls below its reservations. -/
theorem leak_nonneg_next {s s' : LoadState} {a : LoadAction} (hs : Linked s)
    (hl : PairsUnique s → ∀ url ∈ s.router.workerRequestCounts, 0 ≤ s.leak url)
    (h : s.next a = some s') (hp' : PairsUnique s') :
    ∀ url ∈ s'.router.workerRequestCounts, 0 ≤ s'.leak url := by
  have hp := pairsUnique_of_next h hp'
  intro url hm
  rw [leak_next hs hp h url hm]
  split_ifs with ha
  · by_cases hb : url ∈ s.router.workerRequestCounts
    · have hleak := hl hp url hb
      unfold leak at hleak
      omega
    · rw [requestCount_of_not_mem hb]
  · exact hl hp url ((mem_of_next h hm).resolve_left ha)

/-- If the pairs are unique at the end of a run, they identify the registrations
all along it. -/
theorem along_identifies {s t : LoadState} {as : List LoadAction} (hs : Linked s)
    (hl : PairsUnique s → ∀ url ∈ s.router.workerRequestCounts, 0 ≤ s.leak url)
    (h : exec next s as = some t) (ht : PairsUnique t) : Along next Identifies s as := by
  have identifies (u : LoadState) (hu : Linked u) (hp : PairsUnique u)
      (hn : ∀ url ∈ u.router.workerRequestCounts, 0 ≤ u.leak url) : Identifies u :=
    ⟨hp, staleHarmless_of_pairsUnique hu hp, nonNegative_of_leak hu hp hn⟩
  induction as generalizing s with
  | nil =>
    obtain rfl : s = t := Option.some.inj h
    exact identifies s hs ht (hl ht)
  | cons a as ih =>
    obtain ⟨s', hn, he⟩ := exec_cons_eq_some h
    have ha := ih (linked_next hs hn) (leak_nonneg_next hs hl hn) he
    have hp := pairsUnique_of_next hn ha.head.1
    exact (along_cons_some hn).mpr ⟨identifies s hs hp (hl hp), ha⟩

theorem registrations_exec {s t : LoadState} {as : List LoadAction}
    (h : exec next s as = some t) :
    t.registrations.map (fun a => (a.url, a.key)) =
      s.registrations.map (fun a => (a.url, a.key)) ++ addedBy as := by
  induction as generalizing s with
  | nil =>
    obtain rfl : s = t := Option.some.inj h
    simp [addedBy]
  | cons a as ih =>
    obtain ⟨s', hn, he⟩ := exec_cons_eq_some h
    obtain ⟨l, hr, hl⟩ := registrations_next hn
    rw [ih he, hr, List.map_append, hl, List.append_assoc]
    cases ha : a.added <;> simp [addedBy, ha]

/-- Over any run, the pair of url and number identifies the registration of every
reservation, with completions harmless to later registrations and the assertion
out of reach, iff no url is the n-th registration of two different keys. -/
theorem reservation_identifies (as : List LoadAction) (t : LoadState)
    (h : exec next init as = some t) :
    Along next Identifies init as ↔ ¬Crossing (addedBy as) := by
  have hl : Linked t := exec_invariant (fun s a s' hs hn => linked_next hs hn) init_linked h
  have hr := registrations_exec h
  rw [show init.registrations = [] from rfl, List.map_nil, List.nil_append] at hr
  rw [← hr, ← pairsUnique_iff_not_crossing hl]
  constructor
  · intro ha
    exact (ha.last h).1
  · intro hp
    exact along_identifies init_linked (by simp [init, SlimeRouter.init]) h hp

/-- A url goes over to another key while a request is in flight. -/
def crossingRun : List LoadAction :=
  [.registry (.addWorker { queryUrl := some "http://h:1", queryWorkerKey := some "k" }),
    .useUrl [],
    .registry (.removeWorker { queryUrl := some "http://h:1", queryWorkerKey := some "k" }),
    .registry (.addWorker { queryUrl := some "http://h:1", queryWorkerKey := some "j" })]

theorem reservation_identifies_crossingRun :
    Along next Identifies init crossingRun ↔ ¬Crossing (addedBy crossingRun) :=
  reservation_identifies crossingRun _ rfl

/-- The completion of the old reservation would make the count negative. -/
theorem crossingRun_negative : ¬Along next Identifies init crossingRun := by
  intro h
  have hn := (h.last rfl).2.2 ⟨"http://h:1", 1, 0⟩ (by decide)
  exact absurd hn (by decide)

end LoadState

end Belayer.Router
