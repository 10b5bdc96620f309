import Belayer.Scheduler.Effects

namespace Belayer.Scheduler

open Belayer.Framework OnlineEnvDockerScheduler

/-- The scheduler with its history: the calls that have handed in a request, those whose request
has been admitted, the call that each active prompt is there for, and the calls whose prompt has
been finished. -/
structure Ledger where
  scheduler : OnlineEnvDockerScheduler
  handed : List Nat
  admitted : List Nat
  owners : Dict String Nat
  finished : List Nat

namespace Ledger

def init (config : SchedulerConfig) (repoResourceStats : Dict String RepoResourceProfile)
    (schedulerStartTs : ℚ) : Ledger :=
  ⟨.init config repoResourceStats schedulerStartTs, [], [], ∅, []⟩

/-- The request that a pass admits. -/
def admittedBy (s : OnlineEnvDockerScheduler) (now : ℚ) (fuel : Nat) : Option PendingPrompt :=
  (s.admitNext now fuel).bind (·.2)

/-- The request of a call that finds no active prompt when it returns. -/
def repairedBy (s : OnlineEnvDockerScheduler) (i : Nat) : Option PendingPrompt :=
  ((s.calls[i]?).bind (·.admitted?)).filter fun request => request.promptId ∉ s.activePrompts

/-- What a step adds to the history. -/
def account (l : Ledger) : SchedulerAction → Ledger
  | .enqueue i => { l with handed := l.handed ++ [i] }
  | .admissionPass now fuel =>
    match admittedBy l.scheduler now fuel with
    | none => l
    | some request =>
      { l with
        admitted := l.admitted ++ [request.call]
        owners := AList.insert request.promptId request.call l.owners }
  | .returnTicket i _ =>
    match repairedBy l.scheduler i with
    | none => l
    | some request => { l with owners := AList.insert request.promptId i l.owners }
  | .finishPrompt promptId _ _ =>
    match l.owners.lookup promptId with
    | none => l
    | some i =>
      { l with owners := AList.erase promptId l.owners, finished := l.finished ++ [i] }
  | _ => l

def next (lower : String → String) (l : Ledger) (a : SchedulerAction) : Option Ledger :=
  (l.scheduler.next lower a).map fun s => { l.account a with scheduler := s }

/-- How often the request of a call is pending. -/
def waiting (l : Ledger) (i : Nat) : Nat := (l.scheduler.pending.map (·.call)).count i

/-- How many active prompts are there for a call. -/
def running (l : Ledger) (i : Nat) : Nat := Dict.count l.owners (· == i)

/-- In how many places the prompt of a call is. -/
def places (l : Ledger) (i : Nat) : Nat := l.waiting i + l.running i + l.finished.count i

/-- Each prompt that has been handed in is pending, active or finished, and only once; none has
been admitted twice. -/
structure Conserved (l : Ledger) : Prop where
  owners : ∀ promptId, promptId ∈ l.owners ↔ promptId ∈ l.scheduler.activePrompts
  places : ∀ i ∈ l.handed, l.places i = 1
  once : ∀ i, l.admitted.count i ≤ 1

/-- The condition on a step: the request that is admitted shares its id with no active prompt and
no other pending request, and a call that returns finds its prompt active. -/
def Separate (l : Ledger) : SchedulerAction → Prop
  | .admissionPass now fuel => ∀ request ∈ admittedBy l.scheduler now fuel,
      request.promptId ∉ l.scheduler.activePrompts ∧
        ∀ q ∈ l.scheduler.pending, q.promptId = request.promptId → q.call = request.call
  | .returnTicket i _ => repairedBy l.scheduler i = none
  | _ => True

/-- What holds of the history whatever the ids are. -/
structure Tracked (l : Ledger) : Prop where
  stored : l.scheduler.Stored fun _ => True
  owners : ∀ promptId, promptId ∈ l.owners ↔ promptId ∈ l.scheduler.activePrompts
  bound : ∀ i ∈ l.handed, i < l.scheduler.calls.length
  requested : ∀ i r, l.scheduler.calls[i]? = some (.requested r) → r.call = i ∧ i ∉ l.handed
  granted : ∀ i r, l.scheduler.calls[i]? = some (.admitted r) → r.call = i ∧ i ∈ l.handed
  handed : ∀ i, i ∉ l.handed → l.places i = 0
  nodup : (l.scheduler.pending.map (·.call)).Nodup
  once : l.admitted.Nodup
  admitted : ∀ i ∈ l.admitted, i ∈ l.handed ∧ l.waiting i = 0

variable {lower : String → String} {l l' : Ledger} {s : OnlineEnvDockerScheduler} {now : ℚ}

/-- A step that leaves the queue, the active ids and the requests of the calls alone. -/
structure Same (l : Ledger) (s : OnlineEnvDockerScheduler) : Prop where
  pending : (s.pending.map (·.call)).Perm (l.scheduler.pending.map (·.call))
  activePrompts : ∀ promptId, promptId ∈ s.activePrompts ↔ promptId ∈ l.scheduler.activePrompts
  calls : ∀ (i : Nat) (c : AdmitCall), s.calls[i]? = some c →
    c.request? = none ∨ l.scheduler.calls[i]? = some c
  length : s.calls.length = l.scheduler.calls.length

theorem Same.places (h : l.Same s) (i : Nat) : places { l with scheduler := s } i = l.places i := by
  unfold Ledger.places waiting running
  rw [h.pending.count_eq]

theorem Same.tracked (h : l.Same s) (ht : l.Tracked) (hs : s.Stored fun _ => True) :
    Tracked { l with scheduler := s } := by
  refine ⟨hs, ?_, ?_, ?_, ?_, ?_, ?_, ht.once, ?_⟩
  · intro promptId
    exact (ht.owners promptId).trans (h.activePrompts promptId).symm
  · intro i hi
    have hlt := ht.bound i hi
    rw [h.length]
    exact hlt
  · intro i r hr
    rcases h.calls i _ hr with hnone | hsome
    · cases hnone
    · exact ht.requested i r hsome
  · intro i r hr
    rcases h.calls i _ hr with hnone | hsome
    · cases hnone
    · exact ht.granted i r hsome
  · intro i hi
    rw [h.places]
    exact ht.handed i hi
  · exact h.pending.nodup_iff.mpr ht.nodup
  · intro i hi
    obtain ⟨hhanded, hwaiting⟩ := ht.admitted i hi
    refine ⟨hhanded, ?_⟩
    unfold waiting at hwaiting ⊢
    rw [h.pending.count_eq]
    exact hwaiting

theorem Same.conserved (h : l.Same s) (hc : l.Conserved) : Conserved { l with scheduler := s } := by
  refine ⟨?_, ?_, hc.once⟩
  · intro promptId
    exact (hc.owners promptId).trans (h.activePrompts promptId).symm
  · intro i hi
    rw [h.places]
    exact hc.places i hi

theorem same_of_touched (h : l.scheduler.Touched s) : l.Same s := by
  obtain ⟨-, hpending, hcalls, -, hactive⟩ := h
  refine ⟨by rw [hpending], ?_, ?_, by rw [hcalls]⟩
  · intro promptId
    rcases hactive with he | ⟨id, active, active', hl, -, he⟩
    · rw [he]
    · rw [he]
      exact Dict.mem_insert_of_lookup hl
  · intro i c hc
    rw [hcalls] at hc
    exact .inr hc

theorem same_of_set {i : Nat} {call : AdmitCall} (h : call.request? = none) :
    l.Same { l.scheduler with calls := l.scheduler.calls.set i call } := by
  refine ⟨List.Perm.refl _, fun _ => Iff.rfl, ?_, List.length_set⟩
  intro j c hc
  by_cases hij : i = j
  · subst hij
    rw [List.getElem?_set] at hc
    split_ifs at hc
    · cases hc
      exact .inl h
    · simp_all
  · rw [List.getElem?_set_ne hij] at hc
    exact .inr hc

theorem same_of_requeued {pending : List PendingPrompt}
    (h : Requeued l.scheduler.pending pending) : l.Same { l.scheduler with pending := pending } := by
  refine ⟨?_, fun _ => Iff.rfl, fun _ _ hc => .inr hc, rfl⟩
  have hcalls := h.map PendingPrompt.call
  rw [List.map_map, List.map_map] at hcalls
  exact hcalls

/-- The requests that are renewed stay in their places. -/
theorem map_renewPredictions {β : Type*} (f : PendingPrompt → β) {dataKey : String}
    {prediction : ResourceVector × Bool × ℚ}
    (hf : ∀ r : PendingPrompt, f { r with
      predicted := prediction.1
      hasHistory := prediction.2.1
      avgTotalTimeSec := prediction.2.2
      headBlockCount := 0 } = f r) (n : Nat) (requests : List PendingPrompt) :
    (renewPredictions dataKey prediction n requests).map f = requests.map f := by
  induction requests generalizing n with
  | nil => cases n <;> rfl
  | cons q requests ih =>
    cases n with
    | zero => rfl
    | succ n =>
      simp only [renewPredictions]
      split_ifs
      · rw [List.map_cons, List.map_cons, ih, hf]
      · rw [List.map_cons, List.map_cons, ih]

/-- What finishing does to the queue, the active prompts and the calls. -/
theorem finishPrompt_cases (lower : String → String) (s : OnlineEnvDockerScheduler)
    (promptId : String) (now : ℚ)
    (aggregated : List (String × RepoResourceProfile)) :
    let s' := s.finishPrompt lower promptId now aggregated
    s'.pending.map (·.call) = s.pending.map (·.call) ∧ s'.calls = s.calls ∧
      s'.activePrompts = AList.erase promptId s.activePrompts := by
  unfold finishPrompt
  split
  · rename_i hl
    exact ⟨rfl, rfl, (Dict.erase_of_lookup_none hl).symm⟩
  · dsimp only
    split_ifs
    · refine ⟨?_, ?_, ?_⟩
      · rw [refreshPendingPredictionsForKey]
        simp only [predictForKey, refreshResourceProfiles]
        rw [map_renewPredictions _ fun _ => rfl]
        split_ifs <;> rfl
      all_goals
        simp only [refreshPendingPredictionsForKey, predictForKey, refreshResourceProfiles]
        split_ifs <;> rfl
    · exact ⟨rfl, rfl, rfl⟩

/-- A call that has handed in nothing has no pending request. -/
theorem Tracked.not_pending (ht : l.Tracked) {i : Nat} (hi : i ∉ l.handed) :
    i ∉ l.scheduler.pending.map (·.call) := by
  have hzero := ht.handed i hi
  unfold places waiting at hzero
  exact List.count_eq_zero.mp (by omega)

theorem Tracked.admitPrompt (ht : l.Tracked) {promptId repo dataKey : String}
    {rolloutId : Option Int} {aggregated : List (String × RepoResourceProfile)} :
    Tracked { l with scheduler :=
      l.scheduler.admitPrompt promptId repo dataKey rolloutId now aggregated } := by
  have hs : (l.scheduler.refreshResourceProfiles aggregated).Stored fun _ => True :=
    ht.stored.touched touched_refreshResourceProfiles
  have hsame : l.Same (l.scheduler.refreshResourceProfiles aggregated) :=
    same_of_touched touched_refreshResourceProfiles
  have hr := hsame.tracked ht hs
  refine ⟨ht.stored.admitPrompt, hr.owners, ?_, ?_, ?_, hr.handed, hr.nodup, hr.once, hr.admitted⟩
  · intro i hi
    have hlt : i < (l.scheduler.refreshResourceProfiles aggregated).calls.length := hr.bound i hi
    rw [OnlineEnvDockerScheduler.admitPrompt, predictForKey, List.length_append]
    omega
  · intro i r hi
    rcases getElem?_concat_cases hi with hold | ⟨hlast, he⟩
    · exact hr.requested i r hold
    · cases he
      refine ⟨hlast.symm, fun hmem => ?_⟩
      have hlt : i < (l.scheduler.refreshResourceProfiles aggregated).calls.length := hr.bound i hmem
      omega
  · intro i r hi
    rcases getElem?_concat_cases hi with hold | ⟨-, he⟩
    · exact hr.granted i r hold
    · cases he

/-- The request of a call joins the queue. -/
def enqueued (l : Ledger) (i : Nat) (request : PendingPrompt) : Ledger :=
  { l with
    handed := l.handed ++ [i]
    scheduler := { l.scheduler with
      pending := l.scheduler.pending ++ [request]
      calls := l.scheduler.calls.set i .waiting } }

theorem places_enqueued {i j : Nat} {request : PendingPrompt} (h : request.call = i) :
    (l.enqueued i request).places j = l.places j + if i = j then 1 else 0 := by
  unfold places waiting running enqueued
  simp only [List.map_append, List.map_cons, List.map_nil, List.count_append, h,
    List.count_singleton, beq_iff_eq]
  omega

theorem Tracked.enqueued (ht : l.Tracked) {i : Nat} {request : PendingPrompt}
    (hi : l.scheduler.calls[i]? = some (.requested request)) : (l.enqueued i request).Tracked := by
  obtain ⟨hcall, hnew⟩ := ht.requested i request hi
  have hlt : i < l.scheduler.calls.length := (List.getElem?_eq_some_iff.mp hi).1
  have hset : l.Same { l.scheduler with calls := l.scheduler.calls.set i .waiting } :=
    same_of_set rfl
  have hr := hset.tracked ht (ht.stored.set_call rfl)
  have hhanded : ∀ j, j ∉ l.handed ++ [i] → j ∉ l.handed ∧ j ≠ i := by
    intro j hj
    rw [List.mem_append, List.mem_singleton, not_or] at hj
    exact hj
  refine ⟨ht.stored.enqueue hi, ht.owners, ?_, ?_, ?_, ?_, ?_, ht.once, ?_⟩
  · intro j hj
    rcases List.mem_append.mp hj with hj | hj
    · exact hr.bound j hj
    · rw [List.mem_singleton.mp hj]
      exact hlt.trans_le List.length_set.ge
  · intro j r hj
    have hne : i ≠ j := by
      rintro rfl
      rw [Ledger.enqueued, List.getElem?_set_self hlt] at hj
      cases hj
    obtain ⟨he, hnot⟩ := hr.requested j r hj
    refine ⟨he, fun hmem => ?_⟩
    rcases List.mem_append.mp hmem with hmem | hmem
    · exact hnot hmem
    · exact hne (List.mem_singleton.mp hmem).symm
  · intro j r hj
    obtain ⟨he, hmem⟩ := hr.granted j r hj
    exact ⟨he, List.mem_append_left _ hmem⟩
  · intro j hj
    obtain ⟨hnot, hne⟩ := hhanded j hj
    rw [places_enqueued hcall, if_neg (Ne.symm hne), ht.handed j hnot]
  · have hperm : ((l.enqueued i request).scheduler.pending.map (·.call)) =
        l.scheduler.pending.map (·.call) ++ [i] := by
      rw [Ledger.enqueued, List.map_append, List.map_cons, List.map_nil, hcall]
    rw [hperm, List.nodup_append]
    refine ⟨ht.nodup, List.nodup_singleton i, ?_⟩
    rintro a ha b hb rfl
    rw [List.mem_singleton.mp hb] at ha
    exact ht.not_pending hnew ha
  · intro j hj
    obtain ⟨hmem, hzero⟩ := ht.admitted j hj
    have hne : i ≠ j := by
      rintro rfl
      exact hnew hmem
    refine ⟨List.mem_append_left _ hmem, ?_⟩
    unfold waiting Ledger.enqueued at *
    rw [List.map_append, List.count_append, hzero, List.map_cons, List.map_nil, hcall,
      List.count_singleton]
    simp [hne]

theorem Conserved.enqueued (hc : l.Conserved) (ht : l.Tracked) {i : Nat} {request : PendingPrompt}
    (hi : l.scheduler.calls[i]? = some (.requested request)) : (l.enqueued i request).Conserved := by
  obtain ⟨hcall, hnew⟩ := ht.requested i request hi
  refine ⟨hc.owners, ?_, hc.once⟩
  intro j hj
  rw [places_enqueued hcall]
  rcases List.mem_append.mp hj with hj | hj
  · have hne : i ≠ j := by
      rintro rfl
      exact hnew hj
    rw [if_neg hne, hc.places j hj]
  · rw [List.mem_singleton.mp hj, if_pos rfl, ht.handed i hnew]

/-- The request of a call becomes active, and with it everything pending under its id leaves the
queue. -/
def started (l : Ledger) (request : PendingPrompt) (now : ℚ) : Ledger :=
  { l with
    admitted := l.admitted ++ [request.call]
    owners := AList.insert request.promptId request.call l.owners
    scheduler := l.scheduler.markAdmitted request now }

variable {request q : PendingPrompt}

theorem waiting_started (h : request.admitted = false) (i : Nat) :
    (l.started request now).waiting i =
      ((l.scheduler.pending.filter (·.promptId ≠ request.promptId)).map (·.call)).count i := by
  unfold waiting started
  rw [markAdmitted_eq h]

theorem waiting_started_le (l : Ledger) (now : ℚ) (h : request.admitted = false) (i : Nat) :
    (l.started request now).waiting i ≤ l.waiting i := by
  rw [waiting_started h]
  exact (List.filter_sublist.map _).count_le i

/-- A request that leaves the queue was the only one of its call. -/
theorem Tracked.waiting_started_eq_zero (ht : l.Tracked) (now : ℚ) (h : request.admitted = false)
    (hq : q ∈ l.scheduler.pending) (hid : q.promptId = request.promptId) :
    (l.started request now).waiting q.call = 0 := by
  rw [waiting_started h, List.count_eq_zero]
  intro hmem
  obtain ⟨x, hx, hcall⟩ := List.mem_map.mp hmem
  obtain ⟨hx, hother⟩ := List.mem_filter.mp hx
  have hsame : x = q := List.inj_on_of_nodup_map ht.nodup hx hq hcall
  rw [hsame] at hother
  exact of_decide_eq_true hother hid

theorem waiting_pos (hq : q ∈ l.scheduler.pending) : 0 < l.waiting q.call :=
  List.count_pos_iff.mpr (List.mem_map_of_mem hq)

theorem running_started (i : Nat) : (l.started request now).running i =
    Dict.count (AList.erase request.promptId l.owners) (· == i) +
      (request.call == i).toNat := by
  unfold running started
  exact Dict.count_insert ..

theorem Tracked.handed_of_pending (ht : l.Tracked) (hq : q ∈ l.scheduler.pending) :
    q.call ∈ l.handed := by
  by_contra hnot
  exact ht.not_pending hnot (List.mem_map_of_mem hq)

theorem Tracked.started (ht : l.Tracked) (hr : request ∈ l.scheduler.pending) :
    (l.started request now).Tracked := by
  have hadmitted : request.admitted = false := (ht.stored.pending request hr).2
  have hhanded : request.call ∈ l.handed := ht.handed_of_pending hr
  have hcalls : ∀ (i : Nat) (c : AdmitCall),
      (l.started request now).scheduler.calls[i]? = some c →
        l.scheduler.calls[i]? = some c ∨
          request.call = i ∧ c = .admitted { request with admitted := true } := by
    intro i c hi
    rw [Ledger.started, markAdmitted_eq hadmitted, List.getElem?_modify] at hi
    obtain ⟨c₀, hc₀, rfl⟩ := Option.map_eq_some_iff.mp hi
    split_ifs with he
    · cases c₀ with
      | waiting => exact .inr ⟨he, rfl⟩
      | _ => exact .inl hc₀
    · exact .inl hc₀
  refine ⟨ht.stored.markAdmitted hr, ?_, ?_, ?_, ?_, ?_, ?_, ?_, ?_⟩
  · intro promptId
    rw [Ledger.started, markAdmitted_eq hadmitted, AList.mem_insert, AList.mem_insert,
      ht.owners promptId]
  · intro i hi
    have hlt := ht.bound i hi
    rw [Ledger.started, markAdmitted_eq hadmitted, List.length_modify]
    exact hlt
  · intro i r hi
    rcases hcalls i _ hi with hold | ⟨-, he⟩
    · exact ht.requested i r hold
    · cases he
  · intro i r hi
    rcases hcalls i _ hi with hold | ⟨hcall, he⟩
    · exact ht.granted i r hold
    · cases he
      exact ⟨hcall, hcall ▸ hhanded⟩
  · intro i hi
    have hzero := ht.handed i hi
    have hle := waiting_started_le l now hadmitted i
    have hne : request.call ≠ i := by
      rintro rfl
      exact hi hhanded
    have herase := Dict.count_erase_le l.owners request.promptId (· == i)
    unfold places at hzero ⊢
    rw [running_started, beq_false_of_ne hne, Bool.toNat_false]
    unfold running at hzero
    have hfinished : (l.started request now).finished = l.finished := rfl
    rw [hfinished]
    omega
  · have hpending : (l.started request now).scheduler.pending =
        l.scheduler.pending.filter (·.promptId ≠ request.promptId) := by
      rw [Ledger.started, markAdmitted_eq hadmitted]
    rw [hpending]
    exact (List.filter_sublist.map _).nodup ht.nodup
  · refine List.nodup_append.mpr ⟨ht.once, List.nodup_singleton _, ?_⟩
    rintro a ha b hb rfl
    rw [List.mem_singleton.mp hb] at ha
    have hpos := waiting_pos hr
    exact hpos.ne' (ht.admitted _ ha).2
  · intro i hi
    rcases List.mem_append.mp hi with hi | hi
    · obtain ⟨hmem, hzero⟩ := ht.admitted i hi
      exact ⟨hmem, Nat.eq_zero_of_le_zero (hzero ▸ waiting_started_le l now hadmitted i)⟩
    · rw [List.mem_singleton.mp hi]
      exact ⟨hhanded, ht.waiting_started_eq_zero now hadmitted hr rfl⟩

/-- The requests under an id, when they are all of one call. -/
theorem waiting_started_add (now : ℚ) (ht : l.Tracked) (hr : request ∈ l.scheduler.pending)
    (hone : ∀ q ∈ l.scheduler.pending, q.promptId = request.promptId → q.call = request.call)
    (i : Nat) :
    (l.started request now).waiting i + (request.call == i).toNat = l.waiting i := by
  have hadmitted : request.admitted = false := (ht.stored.pending request hr).2
  by_cases hi : request.call = i
  · subst hi
    have hzero := ht.waiting_started_eq_zero now hadmitted hr rfl
    have hcount : l.waiting request.call = 1 :=
      List.count_eq_one_of_mem ht.nodup (List.mem_map_of_mem hr)
    rw [hzero, hcount, beq_self_eq_true, Bool.toNat_true]
  · rw [beq_false_of_ne hi, Bool.toNat_false, Nat.add_zero, waiting_started hadmitted]
    unfold waiting
    -- only requests of another call have left the queue
    have hleft : ∀ q ∈ l.scheduler.pending, q.call = i → q.promptId ≠ request.promptId := by
      intro q hq hcall hid
      exact hi ((hone q hq hid).symm.trans hcall)
    rw [List.count_eq_countP, List.count_eq_countP, List.countP_map, List.countP_map,
      List.countP_filter]
    refine List.countP_congr fun q hq => ?_
    simp only [Function.comp_apply, Bool.and_eq_true, beq_iff_eq, decide_eq_true_eq]
    exact ⟨fun h => h.1, fun h => ⟨h, hleft q hq h⟩⟩

/-- An admission conserves the prompts exactly when no id stands for two of them. -/
theorem conserved_started_iff (ht : l.Tracked) (hc : l.Conserved)
    (hr : request ∈ l.scheduler.pending) :
    (l.started request now).Conserved ↔ request.promptId ∉ l.scheduler.activePrompts ∧
      ∀ q ∈ l.scheduler.pending, q.promptId = request.promptId → q.call = request.call := by
  have hadmitted : request.admitted = false := (ht.stored.pending request hr).2
  have hstarted : (l.started request now).Tracked := ht.started hr
  constructor
  · intro h
    constructor
    · intro hactive
      obtain ⟨j, hj⟩ := Option.isSome_iff_exists.mp
        (AList.lookup_isSome.mpr ((ht.owners request.promptId).mpr hactive))
      have hcount := Dict.count_erase hj (· == j)
      rw [beq_self_eq_true, Bool.toNat_true] at hcount
      have hrunning : 0 < l.running j := by
        unfold running
        omega
      have hhanded : j ∈ l.handed := by
        by_contra hnot
        have hzero := ht.handed j hnot
        unfold places at hzero
        omega
      have hplace := hc.places j hhanded
      have hne : request.call ≠ j := by
        rintro rfl
        have hpos := waiting_pos hr
        unfold places at hplace
        omega
      -- the prompt that was active under the id is in no place any more
      have hafter := h.places j hhanded
      have hle := waiting_started_le l now hadmitted j
      have hfinished : (l.started request now).finished = l.finished := rfl
      unfold places at hplace hafter
      rw [running_started, beq_false_of_ne hne, Bool.toNat_false, hfinished] at hafter
      unfold running at hplace
      omega
    · intro q hq hid
      by_contra hne
      have hzero := ht.waiting_started_eq_zero now hadmitted hq hid
      have hone := hc.places q.call (ht.handed_of_pending hq)
      have hpos := waiting_pos hq
      have herase := Dict.count_erase_le l.owners request.promptId (· == q.call)
      have hplace := h.places q.call (ht.handed_of_pending hq)
      have hfinished : (l.started request now).finished = l.finished := rfl
      unfold places at hone hplace
      rw [hzero, running_started, beq_false_of_ne (Ne.symm hne), Bool.toNat_false, hfinished]
        at hplace
      unfold running at hone
      omega
  · rintro ⟨hactive, hone⟩
    refine ⟨hstarted.owners, ?_, List.nodup_iff_count_le_one.mp hstarted.once⟩
    intro i hi
    have hplace := hc.places i hi
    have hwaiting := waiting_started_add now ht hr hone i
    have hnone : l.owners.lookup request.promptId = none := by
      rw [AList.lookup_eq_none, ht.owners]
      exact hactive
    have hfinished : (l.started request now).finished = l.finished := rfl
    unfold places at hplace ⊢
    rw [running_started, Dict.erase_of_lookup_none hnone, hfinished]
    unfold running at hplace
    omega

/-- The prompt of a call becomes active once more. -/
def repaired (l : Ledger) (i : Nat) (request : PendingPrompt) (now : ℚ) : Ledger :=
  { l with
    owners := AList.insert request.promptId i l.owners
    scheduler := l.scheduler.returnTicket i request now }

theorem returnTicket_of_missing {i : Nat} (h : request.promptId ∉ s.activePrompts) :
    s.returnTicket i request now =
      { s with
        activePrompts := AList.insert request.promptId (request.activate now) s.activePrompts
        calls := s.calls.set i
          (.returned ⟨request.promptId, request.repo, request.rolloutId, request.predicted⟩) } := by
  unfold returnTicket
  rw [AList.lookup_eq_none.mpr h]

theorem same_of_found {i : Nat} (h : request.promptId ∈ l.scheduler.activePrompts) :
    l.Same (l.scheduler.returnTicket i request now) := by
  obtain ⟨active, hactive⟩ := Option.isSome_iff_exists.mp (AList.lookup_isSome.mpr h)
  unfold returnTicket
  rw [hactive]
  exact same_of_set rfl

theorem places_repaired (ht : l.Tracked) {i : Nat}
    (h : request.promptId ∉ l.scheduler.activePrompts) (j : Nat) :
    (l.repaired i request now).places j = l.places j + (i == j).toNat := by
  have hnone : l.owners.lookup request.promptId = none := by
    rw [AList.lookup_eq_none, ht.owners]
    exact h
  unfold places waiting running repaired
  rw [returnTicket_of_missing h, Dict.count_insert, Dict.erase_of_lookup_none hnone]
  dsimp only
  omega

theorem Tracked.repaired (ht : l.Tracked) {i : Nat}
    (hi : l.scheduler.calls[i]? = some (.admitted request))
    (h : request.promptId ∉ l.scheduler.activePrompts) :
    (l.repaired i request now).Tracked := by
  obtain ⟨-, hhanded⟩ := ht.granted i request hi
  have hset : l.Same
      { l.scheduler with
        calls := l.scheduler.calls.set i
          (.returned ⟨request.promptId, request.repo, request.rolloutId, request.predicted⟩) } :=
    same_of_set rfl
  have hr := hset.tracked ht (ht.stored.set_call rfl)
  have hstored : (l.scheduler.returnTicket i request now).Stored fun _ => True :=
    ht.stored.returnTicket trivial
  have hplaces : ∀ j, j ∉ l.handed → (l.repaired i request now).places j = 0 := by
    intro j hj
    have hne : i ≠ j := by
      rintro rfl
      exact hj hhanded
    rw [places_repaired ht h, beq_false_of_ne hne, ht.handed j hj]
    rfl
  unfold Ledger.repaired at hplaces ⊢
  rw [returnTicket_of_missing h] at hstored hplaces ⊢
  refine ⟨hstored, ?_, hr.bound, hr.requested, hr.granted, hplaces, hr.nodup, ht.once, hr.admitted⟩
  intro promptId
  rw [AList.mem_insert, AList.mem_insert, ht.owners promptId]

/-- The prompt of a call that is repaired is in two places. -/
theorem not_conserved_repaired (ht : l.Tracked) (hc : l.Conserved) {i : Nat}
    (hi : l.scheduler.calls[i]? = some (.admitted request))
    (h : request.promptId ∉ l.scheduler.activePrompts) :
    ¬(l.repaired i request now).Conserved := by
  intro hafter
  obtain ⟨-, hhanded⟩ := ht.granted i request hi
  have hone := hc.places i hhanded
  have htwo := hafter.places i hhanded
  rw [places_repaired ht h, hone, beq_self_eq_true, Bool.toNat_true] at htwo
  omega

/-- The prompt of a call is finished. -/
def ended (l : Ledger) (promptId : String) (i : Nat) (s : OnlineEnvDockerScheduler) : Ledger :=
  { l with
    owners := AList.erase promptId l.owners
    finished := l.finished ++ [i]
    scheduler := s }

theorem places_ended {promptId : String} {i : Nat} (hi : l.owners.lookup promptId = some i)
    (hpending : s.pending.map (·.call) = l.scheduler.pending.map (·.call)) (j : Nat) :
    (l.ended promptId i s).places j = l.places j := by
  have hcount := Dict.count_erase hi (· == j)
  unfold places waiting running ended
  rw [hpending, List.count_append, List.count_singleton, ← hcount]
  cases hij : i == j <;>
    simp only [Bool.toNat_true, Bool.toNat_false, if_true, Bool.false_eq_true, if_false] <;> omega

theorem mem_ended_owners {promptId id : String} {i : Nat}
    (howners : ∀ id, id ∈ l.owners ↔ id ∈ l.scheduler.activePrompts)
    (hactive : s.activePrompts = AList.erase promptId l.scheduler.activePrompts) :
    id ∈ (l.ended promptId i s).owners ↔ id ∈ s.activePrompts := by
  rw [ended, hactive, AList.mem_erase, AList.mem_erase, howners id]

theorem Tracked.ended (ht : l.Tracked) {promptId : String} {i : Nat}
    (hi : l.owners.lookup promptId = some i) (hs : s.Stored fun _ => True)
    (hpending : s.pending.map (·.call) = l.scheduler.pending.map (·.call))
    (hcalls : s.calls = l.scheduler.calls)
    (hactive : s.activePrompts = AList.erase promptId l.scheduler.activePrompts) :
    (l.ended promptId i s).Tracked := by
  refine ⟨hs, fun id => mem_ended_owners ht.owners hactive, ?_, ?_, ?_, ?_, ?_, ht.once, ?_⟩
  · intro j hj
    rw [Ledger.ended, hcalls]
    exact ht.bound j hj
  · intro j r hj
    rw [Ledger.ended, hcalls] at hj
    exact ht.requested j r hj
  · intro j r hj
    rw [Ledger.ended, hcalls] at hj
    exact ht.granted j r hj
  · intro j hj
    rw [places_ended hi hpending]
    exact ht.handed j hj
  · rw [Ledger.ended, hpending]
    exact ht.nodup
  · intro j hj
    obtain ⟨hhanded, hzero⟩ := ht.admitted j hj
    refine ⟨hhanded, ?_⟩
    unfold waiting Ledger.ended
    rw [hpending]
    exact hzero

theorem Conserved.ended (hc : l.Conserved) {promptId : String} {i : Nat}
    (hi : l.owners.lookup promptId = some i)
    (hpending : s.pending.map (·.call) = l.scheduler.pending.map (·.call))
    (hactive : s.activePrompts = AList.erase promptId l.scheduler.activePrompts) :
    (l.ended promptId i s).Conserved := by
  refine ⟨fun id => mem_ended_owners hc.owners hactive, ?_, hc.once⟩
  intro j hj
  rw [places_ended hi hpending]
  exact hc.places j hj

/-- A step keeps track of the prompts, and when it starts from conserved ones it conserves them
exactly if it meets the condition. -/
def Accounts (l l' : Ledger) (a : SchedulerAction) : Prop :=
  l'.Tracked ∧ (l.Conserved → (l'.Conserved ↔ l.Separate a))

theorem Same.accounts (h : l.Same s) (ht : l.Tracked) (hs : s.Stored fun _ => True)
    {a : SchedulerAction} (ha : l.Separate a) : l.Accounts { l with scheduler := s } a :=
  ⟨h.tracked ht hs, fun hc => iff_of_true (h.conserved hc) ha⟩

theorem admittedBy_of_admitNext {fuel : Nat} {chosen : Option PendingPrompt}
    (h : l.scheduler.admitNext now fuel = some (s, chosen)) :
    admittedBy l.scheduler now fuel = chosen := by
  unfold admittedBy
  rw [h]
  rfl

theorem account_of_refused {fuel : Nat} (h : admittedBy l.scheduler now fuel = none) :
    l.account (.admissionPass now fuel) = l := by
  simp only [account, h]

/-- The ids of a queue are those of the requeued one. -/
theorem separate_requeued {pending pending' : List PendingPrompt} {promptId : String} {call : Nat}
    (hp : Requeued pending pending')
    (h : ∀ q ∈ pending, q.promptId = promptId → q.call = call) :
    ∀ q ∈ pending', q.promptId = promptId → q.call = call := by
  intro q hq hid
  obtain ⟨r, hr, he⟩ := hp.exists hq
  have hid' : r.unblocked.promptId = q.unblocked.promptId := congrArg PendingPrompt.promptId he
  have hcall : r.unblocked.call = q.unblocked.call := congrArg PendingPrompt.call he
  change r.promptId = q.promptId at hid'
  change r.call = q.call at hcall
  rw [← hcall]
  exact h r hr (hid'.trans hid)

theorem accounts_refused (ht : l.Tracked) {fuel : Nat}
    (h : l.scheduler.admitNext now fuel = some (s, none)) :
    l.Accounts { l.account (.admissionPass now fuel) with scheduler := s }
      (.admissionPass now fuel) := by
  have hnone := admittedBy_of_admitNext h
  obtain ⟨pending, hp, ⟨-, rfl⟩ | ⟨request, -, hchosen, -⟩⟩ := passed_of_admitNext h
  · have hseparate : l.Separate (.admissionPass now fuel) := by
      intro request hrequest
      rw [hnone] at hrequest
      cases hrequest
    rw [account_of_refused hnone]
    exact (same_of_requeued hp).accounts ht (ht.stored.requeue hp) hseparate
  · cases hchosen

theorem accounts_admitted (ht : l.Tracked) {fuel : Nat}
    (h : l.scheduler.admitNext now fuel = some (s, some request)) :
    l.Accounts { l.account (.admissionPass now fuel) with scheduler := s }
      (.admissionPass now fuel) := by
  have hsome := admittedBy_of_admitNext h
  obtain ⟨pending, hp, ⟨hnone, -⟩ | ⟨r, hr, hchosen, rfl⟩⟩ := passed_of_admitNext h
  · cases hnone
  · cases hchosen
    have hsame := same_of_requeued hp
    have ht' := hsame.tracked ht (ht.stored.requeue hp)
    have hstarted : { l.account (.admissionPass now fuel) with
        scheduler := markAdmitted { l.scheduler with pending := pending } request now } =
        started { l with scheduler := { l.scheduler with pending := pending } } request now := by
      simp only [account, hsome]
      rfl
    rw [hstarted]
    refine ⟨ht'.started hr, fun hc => ?_⟩
    rw [conserved_started_iff ht' (hsame.conserved hc) hr]
    constructor
    · rintro ⟨hactive, hone⟩ q hq
      obtain rfl : request = q := Option.some.inj (hsome.symm.trans hq)
      exact ⟨hactive, separate_requeued hp.symm hone⟩
    · intro hseparate
      obtain ⟨hactive, hone⟩ := hseparate request hsome
      exact ⟨hactive, separate_requeued hp hone⟩

theorem accounts_returnTicket (ht : l.Tracked) {i : Nat}
    (hi : l.scheduler.calls[i]? = some (.admitted request)) :
    l.Accounts { l.account (.returnTicket i now) with
      scheduler := l.scheduler.returnTicket i request now } (.returnTicket i now) := by
  have hstored : (l.scheduler.returnTicket i request now).Stored fun _ => True :=
    ht.stored.returnTicket trivial
  by_cases h : request.promptId ∈ l.scheduler.activePrompts
  · have hnone : repairedBy l.scheduler i = none := by
      simp [repairedBy, hi, AdmitCall.admitted?, h]
    have haccount : l.account (.returnTicket i now) = l := by
      simp only [account, hnone]
    rw [haccount]
    exact (same_of_found h).accounts ht hstored hnone
  · have hsome : repairedBy l.scheduler i = some request := by
      simp [repairedBy, hi, AdmitCall.admitted?, h]
    have hrepaired : { l.account (.returnTicket i now) with
        scheduler := l.scheduler.returnTicket i request now } = l.repaired i request now := by
      simp only [account, hsome]
      rfl
    rw [hrepaired]
    refine ⟨ht.repaired hi h, fun hc => iff_of_false (not_conserved_repaired ht hc hi h) ?_⟩
    intro hseparate
    cases hsome.symm.trans hseparate

theorem accounts_finishPrompt (ht : l.Tracked) {promptId : String}
    {aggregated : List (String × RepoResourceProfile)} :
    l.Accounts { l.account (.finishPrompt promptId now aggregated) with
      scheduler := l.scheduler.finishPrompt lower promptId now aggregated }
      (.finishPrompt promptId now aggregated) := by
  have hstored : (l.scheduler.finishPrompt lower promptId now aggregated).Stored fun _ => True :=
    ht.stored.finishPrompt
  obtain ⟨hpending, hcalls, hactive⟩ :=
    finishPrompt_cases lower l.scheduler promptId now aggregated
  cases hi : l.owners.lookup promptId with
  | none =>
    have haccount : l.account (.finishPrompt promptId now aggregated) = l := by
      simp only [account, hi]
    have hmissing : promptId ∉ l.scheduler.activePrompts := by
      rw [← ht.owners, ← AList.lookup_eq_none]
      exact hi
    have hunchanged : l.scheduler.finishPrompt lower promptId now aggregated = l.scheduler := by
      unfold finishPrompt
      rw [AList.lookup_eq_none.mpr hmissing]
    rw [haccount, hunchanged]
    exact ⟨ht, fun hc => iff_of_true hc trivial⟩
  | some i =>
    have hended : { l.account (.finishPrompt promptId now aggregated) with
        scheduler := l.scheduler.finishPrompt lower promptId now aggregated } =
        l.ended promptId i (l.scheduler.finishPrompt lower promptId now aggregated) := by
      simp only [account, hi]
      rfl
    rw [hended]
    exact ⟨ht.ended hi hstored hpending hcalls hactive,
      fun hc => iff_of_true (hc.ended hi hpending hactive) trivial⟩

theorem accounts_next (ht : l.Tracked) {a : SchedulerAction} (hn : l.next lower a = some l') :
    l.Accounts l' a := by
  obtain ⟨s, hs, rfl⟩ := Option.map_eq_some_iff.mp hn
  have hstored : s.Stored fun _ => True := ht.stored.next hs
  cases a with
  | admissionPass now fuel =>
    obtain ⟨⟨t, chosen⟩, hpass, rfl⟩ := Option.map_eq_some_iff.mp hs
    cases chosen with
    | none => exact accounts_refused ht hpass
    | some request => exact accounts_admitted ht hpass
  | returnTicket i now =>
    obtain ⟨request, hr, rfl⟩ := Option.map_eq_some_iff.mp hs
    obtain ⟨call, hc, hr⟩ := Option.bind_eq_some_iff.mp hr
    cases call <;> cases hr
    exact accounts_returnTicket ht hc
  | finishPrompt promptId now aggregated =>
    cases hs
    exact accounts_finishPrompt ht
  | admitPrompt iid groupIndex sampleIndex rolloutId suffix repo dataKey now aggregated =>
    cases hs
    have hplaces : ∀ hc : l.Conserved, Conserved { l with
        scheduler := l.scheduler.admitPrompt (buildPromptId iid groupIndex sampleIndex suffix) repo
          dataKey rolloutId now aggregated } := by
      intro hc
      have hsame : l.Same (l.scheduler.refreshResourceProfiles aggregated) :=
        same_of_touched touched_refreshResourceProfiles
      obtain ⟨howners, hplaces, honce⟩ := hsame.conserved hc
      exact ⟨howners, hplaces, honce⟩
    exact ⟨ht.admitPrompt, fun hc => iff_of_true (hplaces hc) trivial⟩
  | enqueue i =>
    simp only [OnlineEnvDockerScheduler.next] at hs
    split at hs
    · rename_i request hi
      cases hs
      exact ⟨ht.enqueued hi, fun hc => iff_of_true (hc.enqueued ht hi) trivial⟩
    · cases hs
  | cancelAdmit i =>
    simp only [OnlineEnvDockerScheduler.next] at hs
    split at hs
    · cases hs
    · cases hs
    · cases hs
    · cases hs
      exact (same_of_set rfl).accounts ht hstored trivial
  | attachLease =>
    cases hs
    exact (same_of_touched touched_attachLease).accounts ht hstored trivial
  | detachLease =>
    cases hs
    exact (same_of_touched touched_detachLease).accounts ht hstored trivial
  | recordLeaseStatsPayload =>
    cases hs
    exact (same_of_touched touched_recordLeaseStatsPayload).accounts ht hstored trivial
  | recordLeaseStatsError =>
    cases hs
    exact (same_of_touched touched_recordLeaseStatsError).accounts ht hstored trivial
  | refreshResourceProfiles =>
    cases hs
    exact (same_of_touched touched_refreshResourceProfiles).accounts ht hstored trivial
  | recordPromptSummary | refreshServer | resetAdmissionWindow =>
    cases hs
    refine Same.accounts ?_ ht hstored trivial
    exact same_of_touched ⟨rfl, rfl, rfl, rfl, .inl rfl⟩

/-- The prompts are conserved all along a run exactly when no id stands for two of them and no
call returns after its prompt has been finished; a deferral only permutes the queue. -/
theorem conserved_iff_separate (lower : String → String) (config : SchedulerConfig)
    (repoResourceStats : Dict String RepoResourceProfile) (schedulerStartTs : ℚ)
    (run : List SchedulerAction) :
    (Along (next lower) Conserved (init config repoResourceStats schedulerStartTs) run ↔
      Meets (next lower) Separate (init config repoResourceStats schedulerStartTs) run) ∧
    ∀ (head : PendingPrompt) (rest : List PendingPrompt) (offset : Int),
      Requeued (head :: rest) (deferHead head rest offset) := by
  refine ⟨?_, fun head rest offset => requeued_defer⟩
  refine along_iff_meets (H := fun _ _ => True) (I := Tracked) ?_ ?_ ?_ ?_
    (meets_of_forall (fun _ _ => trivial) _ _)
  · intro l a l' ht _ hn
    exact (accounts_next ht hn).1
  · intro l a l' ht hc _ hn
    exact (accounts_next ht hn).2 hc
  · refine ⟨init_stored fun _ => trivial, fun promptId => Iff.rfl, ?_, ?_, ?_, fun _ _ => rfl,
      List.nodup_nil, List.nodup_nil, ?_⟩
    · intro i hi
      cases hi
    · intro i r hr
      cases hr
    · intro i r hr
      cases hr
    · intro i hi
      cases hi
  · refine ⟨fun promptId => Iff.rfl, ?_, fun i => Nat.zero_le 1⟩
    intro i hi
    cases hi

/-- Two calls have made requests under one id when a pass admits one of them; a prompt that is
finished before its call returns is active once more. -/
theorem conserved_fails :
    (∃ l ∈ exec (next String.toLower) (init (openConfig 1) ∅ 0)
        ((admittedRun 0 "x").take 2 ++ (admittedRun 1 "x").take 3),
        1 ∈ l.handed ∧ l.places 1 = 0) ∧
      ∃ l ∈ exec (next String.toLower) (init (openConfig 1) ∅ 0)
        ((admittedRun 0 "x").take 3 ++
          [.finishPrompt "a__b-1__g0__i0__x" 0 [], .returnTicket 0 0]),
        0 ∈ l.handed ∧ l.places 0 = 2 := by
  decide +kernel

end Ledger

end Belayer.Scheduler
