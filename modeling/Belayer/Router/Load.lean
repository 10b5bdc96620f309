import Belayer.Framework.Run
import Belayer.Router.Registry

namespace Belayer.Router

open Belayer.Framework

/-- One accepted `add_worker` call and the number it was given. -/
structure Registration where
  url : String
  key : String
  seq : Nat
  deriving DecidableEq

/-- What a handler keeps of a reservation, and the position of the registration
it was made on in the history of registrations. -/
structure Reservation where
  url : String
  seq : Nat
  registration : Nat
  deriving DecidableEq

/-- The reservation was made on the url's registration at position `i`. -/
def Reservation.madeOn (url : String) (i : Nat) (t : Reservation) : Bool :=
  t.url = url && t.registration = i

/-- The router with its unfinished reservations. `registrations` and `current`
record the history: every accepted registration, oldest first, and for each url
the position of its latest one. -/
structure LoadState where
  router : SlimeRouter
  outstanding : List Reservation
  registrations : List Registration
  current : String → Nat

inductive LoadAction where
  | registry (c : RegistryCall)
  | useUrl (excludeWorkers : List String)
  | reserveUrl (url : String)
  | finishUrl (t : Reservation)

/-- The url and the key the action registers. -/
def LoadAction.added : LoadAction → Option (String × String)
  | .registry c => c.added
  | _ => none

namespace LoadState

def init : LoadState := ⟨.init, [], [], fun _ => 0⟩

/-- Perform a registry call; an accepted registration joins the history. -/
def call (s : LoadState) (c : RegistryCall) : LoadState :=
  match c.added with
  | none => { s with router := c.apply s.router }
  | some (url, key) =>
    { s with
      router := c.apply s.router
      registrations := s.registrations ++ [⟨url, key, s.router.seqByKey key + 1⟩]
      current := Function.update s.current url s.registrations.length }

def reserve (s : LoadState) (r : SlimeRouter) (url : String) (seq : Nat) : LoadState :=
  { s with router := r, outstanding := ⟨url, seq, s.current url⟩ :: s.outstanding }

/-- One call of the router; a reservation that raises changes nothing. -/
def next (s : LoadState) : LoadAction → Option LoadState
  | .registry c => some (s.call c)
  | .useUrl excludeWorkers =>
    match s.router.useUrl excludeWorkers with
    | .error _ => none
    | .ok (r, url, seq) => some (s.reserve r url seq)
  | .reserveUrl url =>
    match s.router.reserveUrl url with
    | .error _ => none
    | .ok (r, seq) => some (s.reserve r url seq)
  | .finishUrl t =>
    if t ∈ s.outstanding then
      some { s with
        router := (s.router.finishUrl t.url (some t.seq)).1
        outstanding := s.outstanding.erase t }
    else none

/-- The unfinished reservations made on the current registration of the url. -/
def onCurrent (s : LoadState) (url : String) : Nat :=
  s.outstanding.countP (Reservation.madeOn url (s.current url))

/-- How far the request count of a url is above its unfinished reservations. -/
def leak (s : LoadState) (url : String) : Int := s.router.requestCount url - s.onCurrent url

/-- Every count equals the unfinished reservations on the current registration. -/
def LoadExact (s : LoadState) : Prop :=
  ∀ url ∈ s.router.workerRequestCounts, s.router.requestCount url = s.onCurrent url

/-- No completion trips the assertion of `_finish_url`. -/
def NonNegative (s : LoadState) : Prop :=
  ∀ t ∈ s.outstanding, (s.router.finishUrl t.url (some t.seq)).2 = .ok ()

/-- A url and a registration number belong to at most one registration. -/
def PairsUnique (s : LoadState) : Prop :=
  ∀ (i j : Nat) (a b : Registration), s.registrations[i]? = some a → s.registrations[j]? = some b →
    a.url = b.url → a.seq = b.seq → i = j

/-- Completing a reservation of an earlier registration changes no count. -/
def StaleHarmless (s : LoadState) : Prop :=
  ∀ t ∈ s.outstanding, t.registration ≠ s.current t.url →
    (s.router.finishUrl t.url (some t.seq)).1 = s.router

/-- What ties the router to the history of its registrations. -/
structure Linked (s : LoadState) : Prop where
  numbered : ∀ i a, s.registrations[i]? = some a →
    a.seq = (s.registrations.take i).countP (·.key = a.key) + 1
  seqByKey : ∀ key, s.router.seqByKey key = s.registrations.countP (·.key = key)
  current : ∀ url ∈ s.router.workerRequestCounts, ∃ a,
    s.registrations[s.current url]? = some a ∧ a.url = url ∧ a.seq = s.router.seqByUrl url
  reserved : ∀ t ∈ s.outstanding, ∃ a,
    s.registrations[t.registration]? = some a ∧ a.url = t.url ∧ a.seq = t.seq

theorem init_linked : Linked init where
  numbered := by simp [init]
  seqByKey := by simp [init, SlimeRouter.init, SlimeRouter.seqByKey, Dict.getD]
  current := by simp [init, SlimeRouter.init]
  reserved := by simp [init]

/-! ### The router operations seen from the history -/

/-- The completion of a reservation of another number is ignored. -/
theorem finishUrl_stale {r : SlimeRouter} {url : String} {seq : Nat}
    (h : url ∈ r.workerRequestCounts → r.seqByUrl url ≠ seq) :
    r.finishUrl url (some seq) = (r, .ok ()) := by
  unfold SlimeRouter.finishUrl
  by_cases hm : url ∈ r.workerRequestCounts
  · simp [hm, h hm]
  · simp [hm]

theorem finishUrl_counted {r : SlimeRouter} {url : String} (hm : url ∈ r.workerRequestCounts) :
    (r.finishUrl url (some (r.seqByUrl url))).1 =
      { r with
        workerRequestCounts := r.workerRequestCounts.insert url (r.requestCount url - 1) } ∧
    (1 ≤ r.requestCount url →
      (r.finishUrl url (some (r.seqByUrl url))).2 = .ok ()) := by
  unfold SlimeRouter.finishUrl
  constructor
  · by_cases hc : 1 ≤ r.requestCount url <;> simp [hm, hc]
  · intro hc
    simp [hm, hc]

/-- The registry part of the router is the same after a request operation. -/
structure SameRegistry (r r' : SlimeRouter) : Prop where
  mem : ∀ url, url ∈ r'.workerRequestCounts ↔ url ∈ r.workerRequestCounts
  seqByKey : ∀ key, r'.seqByKey key = r.seqByKey key
  seqByUrl : ∀ url, r'.seqByUrl url = r.seqByUrl url

theorem sameRegistry_countRequest {r : SlimeRouter} {url : String}
    (hm : url ∈ r.workerRequestCounts) : SameRegistry r (r.countRequest url) where
  mem u := by
    rw [SlimeRouter.mem_counts_countRequest]
    constructor
    · intro hx
      rcases hx with rfl | hu
      · exact hm
      · exact hu
    · exact Or.inr
  seqByKey _ := rfl
  seqByUrl _ := rfl

theorem sameRegistry_finishUrl (r : SlimeRouter) (url : String) (seq : Nat) :
    SameRegistry r (r.finishUrl url (some seq)).1 := by
  by_cases h : url ∈ r.workerRequestCounts ∧ r.seqByUrl url = seq
  · obtain ⟨hm, rfl⟩ := h
    rw [(finishUrl_counted hm).1]
    refine ⟨fun u => ?_, fun _ => rfl, fun _ => rfl⟩
    rw [AList.mem_insert]
    constructor
    · intro hx
      rcases hx with rfl | hu
      · exact hm
      · exact hu
    · exact Or.inr
  · rw [finishUrl_stale (fun hm he => h ⟨hm, he⟩)]
    exact ⟨fun _ => Iff.rfl, fun _ => rfl, fun _ => rfl⟩

/-- A reservation adds one to the count of a registered url. -/
structure Reserves (r r' : SlimeRouter) (url : String) (seq : Nat) : Prop where
  mem : url ∈ r.workerRequestCounts
  seq_eq : seq = r.seqByUrl url
  same : SameRegistry r r'
  count : ∀ u, r'.requestCount u = if u = url then r.requestCount url + 1 else r.requestCount u

theorem reserves_of_useUrl {r r' : SlimeRouter} {excluded : List String} {url : String} {seq : Nat}
    (h : r.useUrl excluded = .ok (r', url, seq)) : Reserves r r' url seq := by
  obtain ⟨hm, -, hs, rfl⟩ := SlimeRouter.useUrl_ok h
  have hr := sameRegistry_countRequest hm
  exact ⟨hm, hs, ⟨hr.mem, hr.seqByKey, hr.seqByUrl⟩, SlimeRouter.requestCount_countRequest r url⟩

theorem reserves_of_reserveUrl {r r' : SlimeRouter} {url : String} {seq : Nat}
    (h : r.reserveUrl url = .ok (r', seq)) : Reserves r r' url seq := by
  obtain ⟨hm, hs, rfl⟩ := SlimeRouter.reserveUrl_ok h
  exact ⟨hm, hs, sameRegistry_countRequest hm, SlimeRouter.requestCount_countRequest r url⟩

/-- Every step is a registry call, a reservation or a completion. -/
theorem next_cases {s s' : LoadState} {a : LoadAction} (h : s.next a = some s') :
    (∃ c, a = .registry c ∧ s' = s.call c) ∨
    (∃ r url seq, a.added = none ∧ Reserves s.router r url seq ∧
      s' = s.reserve r url seq) ∨
    (∃ t, a = .finishUrl t ∧ t ∈ s.outstanding ∧
      s' = { s with
        router := (s.router.finishUrl t.url (some t.seq)).1
        outstanding := s.outstanding.erase t }) := by
  cases a with
  | registry c => exact .inl ⟨c, rfl, (Option.some.inj h).symm⟩
  | useUrl excluded =>
    simp only [next] at h
    split at h
    · cases h
    · rename_i r url seq he
      exact .inr (.inl ⟨r, url, seq, rfl, reserves_of_useUrl he, (Option.some.inj h).symm⟩)
  | reserveUrl url =>
    simp only [next] at h
    split at h
    · cases h
    · rename_i r seq he
      exact .inr (.inl ⟨r, url, seq, rfl, reserves_of_reserveUrl he, (Option.some.inj h).symm⟩)
  | finishUrl t =>
    simp only [next] at h
    split_ifs at h with hm
    exact .inr (.inr ⟨t, rfl, hm, (Option.some.inj h).symm⟩)

/-! ### The link to the history is kept -/

private theorem getElem?_snoc_of_some {α : Type*} {l : List α} {i : Nat} {a : α} (b : α)
    (h : l[i]? = some a) : (l ++ [b])[i]? = some a := by
  have hi := (List.getElem?_eq_some_iff.mp h).1
  rw [List.getElem?_append_left hi, h]

theorem linked_registry {s : LoadState} (hs : Linked s) (c : RegistryCall) :
    Linked (s.call c) := by
  rcases c.apply_cases s.router with ⟨-, hn, he⟩ | ⟨url, key, -, hr, he⟩ | ⟨url, key, -, hn, he⟩
  · simp only [call, hn, he]
    exact hs
  · have ha : c.added = some (url, key) := hr
    simp only [call, ha, he]
    refine ⟨?_, ?_, ?_, ?_⟩
    · intro i a hi
      rcases Nat.lt_or_ge i s.registrations.length with hlt | hge
      · rw [List.getElem?_append_left hlt] at hi
        rw [List.take_append_of_le_length hlt.le]
        exact hs.numbered i a hi
      · obtain rfl : i = s.registrations.length := by
          have hb := (List.getElem?_eq_some_iff.mp hi).1
          simp only [List.length_append, List.length_singleton] at hb
          omega
        have hv : a = ⟨url, key, s.router.seqByKey key + 1⟩ := by simpa using hi.symm
        subst hv
        simp [hs.seqByKey]
    · intro k
      by_cases hk : k = key
      · subst k
        simp [hs.seqByKey]
      · simp [hk, hs.seqByKey, Ne.symm hk]
    · intro u hu
      by_cases hx : u = url
      · subst u
        exact ⟨⟨url, key, s.router.seqByKey key + 1⟩, by simp, rfl, by simp⟩
      · have hm : u ∈ s.router.workerRequestCounts := by simpa [hx] using hu
        obtain ⟨a, hi, hau, has⟩ := hs.current u hm
        exact ⟨a, by simpa [hx] using getElem?_snoc_of_some _ hi, hau, by simpa [hx] using has⟩
    · intro t ht
      obtain ⟨a, hi, hau, has⟩ := hs.reserved t ht
      exact ⟨a, getElem?_snoc_of_some _ hi, hau, has⟩
  · simp only [call, hn, he]
    refine ⟨hs.numbered, hs.seqByKey, ?_, hs.reserved⟩
    intro u hu
    obtain ⟨hx, hm⟩ := (SlimeRouter.mem_counts_unregisterWorker _ _ _ _).mp hu
    obtain ⟨a, hi, hau, has⟩ := hs.current u hm
    exact ⟨a, hi, hau, by simpa [hx] using has⟩

theorem linked_sameRegistry {s : LoadState} (hs : Linked s) {r : SlimeRouter}
    (hr : SameRegistry s.router r) : Linked { s with router := r } where
  numbered := hs.numbered
  seqByKey key := (hr.seqByKey key).trans (hs.seqByKey key)
  current url hu := by
    obtain ⟨a, hi, hau, has⟩ := hs.current url ((hr.mem url).mp hu)
    exact ⟨a, hi, hau, has.trans (hr.seqByUrl url).symm⟩
  reserved := hs.reserved

theorem linked_next {s s' : LoadState} {a : LoadAction} (hs : Linked s)
    (h : s.next a = some s') : Linked s' := by
  rcases next_cases h with ⟨c, -, rfl⟩ | ⟨r, url, seq, -, hr, rfl⟩ | ⟨t, -, ht, rfl⟩
  · exact linked_registry hs c
  · have hl := linked_sameRegistry hs hr.same
    refine ⟨hl.numbered, hl.seqByKey, hl.current, ?_⟩
    intro t ht
    rcases List.mem_cons.mp ht with rfl | ht
    · obtain ⟨a, hi, hau, has⟩ := hs.current url hr.mem
      exact ⟨a, hi, hau, has.trans hr.seq_eq.symm⟩
    · exact hs.reserved t ht
  · have hl := linked_sameRegistry hs (sameRegistry_finishUrl s.router t.url t.seq)
    exact ⟨hl.numbered, hl.seqByKey, hl.current,
      fun u hu => hs.reserved u (List.mem_of_mem_erase hu)⟩

/-! ### What happens to the leak -/

/-- A reservation carries the number of the current registration exactly when it
was made on it, if the pairs are unique. -/
theorem registration_eq_iff {s : LoadState} (hs : Linked s) (hp : PairsUnique s)
    {t : Reservation} (ht : t ∈ s.outstanding) (hm : t.url ∈ s.router.workerRequestCounts) :
    t.registration = s.current t.url ↔ s.router.seqByUrl t.url = t.seq := by
  obtain ⟨a, ha, hau, has⟩ := hs.current t.url hm
  obtain ⟨b, hb, hbu, hbs⟩ := hs.reserved t ht
  constructor
  · intro he
    obtain rfl : b = a := Option.some.inj (hb.symm.trans (he ▸ ha))
    exact has.symm.trans hbs
  · intro he
    exact hp _ _ b a hb ha (hbu.trans hau.symm) (hbs.trans (he.symm.trans has.symm))

private theorem countP_erase_eq {t : Reservation} {l : List Reservation} (h : t ∈ l)
    (p : Reservation → Bool) : l.countP p = (l.erase t).countP p + if p t then 1 else 0 := by
  rw [(List.perm_cons_erase h).countP_eq p, List.countP_cons]

/-- Reservations and completions keep the leak of every registered url; a
registration turns the whole count of its url into leak. -/
theorem leak_next {s s' : LoadState} {a : LoadAction} (hs : Linked s) (hp : PairsUnique s)
    (h : s.next a = some s') (url : String) (hu : url ∈ s'.router.workerRequestCounts) :
    s'.leak url =
      if a.added.map Prod.fst = some url then s.router.requestCount url
      else s.leak url := by
  rcases next_cases h with ⟨c, rfl, rfl⟩ | ⟨r, u, seq, hne, hr, rfl⟩ | ⟨t, rfl, ht, rfl⟩
  · rcases c.apply_cases s.router with ⟨-, hn, he⟩ | ⟨u, key, -, hc, he⟩ | ⟨u, key, -, hn, he⟩
    · rw [if_neg (by simp [LoadAction.added, hn])]
      simp [leak, onCurrent, call, hn, he]
    · have ha : c.added = some (u, key) := hc
      by_cases hx : url = u
      · subst u
        rw [if_pos (by simp [LoadAction.added, ha])]
        -- no reservation points to the registration that was just made
        have hz : ∀ t ∈ s.outstanding, t.url = url →
            t.registration ≠ s.registrations.length := by
          intro t ht _ hq
          obtain ⟨b, hb, -, -⟩ := hs.reserved t ht
          have hlt := (List.getElem?_eq_some_iff.mp hb).1
          omega
        simpa [leak, onCurrent, call, ha, he, Reservation.madeOn] using hz
      · rw [if_neg (by simp [LoadAction.added, ha, Ne.symm hx])]
        simp [leak, onCurrent, call, ha, he, hx]
    · rw [if_neg (by simp [LoadAction.added, hn])]
      have hx : url ≠ u := by
        simp only [call, hn, he] at hu
        exact ((SlimeRouter.mem_counts_unregisterWorker _ _ _ _).mp hu).1
      simp [leak, onCurrent, call, hn, he, hx]
  · rw [if_neg (by simp [hne])]
    have hcur : (s.reserve r u seq).onCurrent url = s.onCurrent url + if u = url then 1 else 0 := by
      have hb : Reservation.madeOn url (s.current url) ⟨u, seq, s.current u⟩ = decide (u = url) := by
        by_cases hx : u = url <;> simp [Reservation.madeOn, hx]
      simp [onCurrent, reserve, List.countP_cons, hb]
    have hcount : (s.reserve r u seq).router.requestCount url = _ := hr.count url
    simp only [leak, hcur, hcount]
    by_cases hx : url = u
    · subst u
      simp
    · simp [hx, Ne.symm hx]
  · rw [if_neg (by simp [LoadAction.added])]
    have hm : url ∈ s.router.workerRequestCounts :=
      ((sameRegistry_finishUrl s.router t.url t.seq).mem url).mp hu
    have hcount := countP_erase_eq ht (Reservation.madeOn url (s.current url))
    by_cases hx : t.url = url
    · subst url
      have hiff := registration_eq_iff hs hp ht hm
      by_cases hq : s.router.seqByUrl t.url = t.seq
      · have hreg := hiff.mpr hq
        simp only [Reservation.madeOn, hreg, decide_true, Bool.and_self, if_true] at hcount
        have hf := (finishUrl_counted hm).1
        rw [hq] at hf
        simp only [leak, onCurrent, hf, SlimeRouter.requestCount, Dict.getD_insert_ite, if_true]
        omega
      · have hreg : t.registration ≠ s.current t.url := fun he => hq (hiff.mp he)
        simp only [Reservation.madeOn, hreg, decide_false, Bool.and_false, Bool.false_eq_true,
          if_false] at hcount
        rw [finishUrl_stale (fun _ => hq)]
        simp only [leak, onCurrent]
        omega
    · simp only [Reservation.madeOn, hx, decide_false, Bool.false_and, Bool.false_eq_true,
        if_false] at hcount
      have hkeep : (s.router.finishUrl t.url (some t.seq)).1.requestCount url =
          s.router.requestCount url := by
        by_cases hq : t.url ∈ s.router.workerRequestCounts ∧ s.router.seqByUrl t.url = t.seq
        · have hf := (finishUrl_counted hq.1).1
          rw [hq.2] at hf
          simp [hf, SlimeRouter.requestCount, Dict.getD_insert_ite, Ne.symm hx]
        · rw [finishUrl_stale (fun hm he => hq ⟨hm, he⟩)]
      simp only [leak, onCurrent, hkeep]
      omega

end LoadState

end Belayer.Router
