import Belayer.Weights.UpdateSafety
import Mathlib.Data.Finset.Max
import Mathlib.Data.List.MinMax

namespace Belayer.Weights.Ps

open Belayer.Framework

/-! No order of the steps leaves an update hanging. -/

variable {plan : Plan} {loads : List (List (String × RawTensor))} {st st' : Nat → RankState}
  {s s' : RankState} {r gidx k : Nat} {t : Turn}

/-- Before a message is answered its worker can go on. -/
theorem Plan.RankInv.worker_enabled (hplan : plan.Sound loads) (h : plan.RankInv loads s)
    (hk : plan.Awaits loads k s) : s.toServer = true ∨ (Ps.workerStep s).isSome := by
  unfold Ps.workerStep
  cases hk.outstanding with
  | sent htoWorker _ hworker hmapped _ =>
    right
    simp only [hworker, htoWorker]
    cases k with
    | zero => rfl
    | succ g =>
      have hm : s.mapped = true := by simpa using hmapped
      unfold Plan.message
      dsimp only
      cases plan.turns[g]? <;> simp [hm]
  | running g n t load hg ht hload hle htoWorker _ hworker _ _ =>
    right
    have hlt : g < plan.turns.length := (List.getElem?_eq_some_iff.mp ht).1
    have hrecent := hk.recent g hg hlt
    have hextract := hplan.extractWeights ht hload (h.halves g hrecent.1 hrecent.2)
    simp only [hworker]
    cases hrest : (toNamedTensor t.bucket.items (plan.start g)).drop n with
    | nil => rfl
    | cons item rest =>
      have hitem : item ∈ toNamedTensor t.bucket.items (plan.start g) :=
        List.mem_of_mem_drop (hrest ▸ List.mem_cons_self)
      obtain ⟨weight, hweight⟩ := Option.isSome_iff_exists.mp (isSome_of_mapM hextract hitem)
      simp [hweight]
  | answered _ htoServer _ _ _ => exact .inl htoServer

theorem Plan.Sound.fill_isSome (hplan : plan.Sound loads) (ht : plan.turns[gidx]? = some t) :
    (plan.fill t).isSome := by
  obtain ⟨load, -, bytes, hfill, -⟩ := hplan.exists_load ht
  rw [hfill]
  rfl

theorem Plan.next_server (hr : r ∈ plan.members) (h : (plan.serverStep st r).isSome) :
    ∃ a st', plan.next st a = some st' := by
  obtain ⟨s', hs'⟩ := Option.isSome_iff_exists.mp h
  refine ⟨.server r, Function.update st r s', ?_⟩
  have hrank : (UpdateStep.server r).rank ∈ plan.members := hr
  rw [next, if_pos hrank]
  rw [hs']
  rfl

theorem Plan.next_worker (hr : r ∈ plan.members) (h : (workerStep (st r)).isSome) :
    ∃ a st', plan.next st a = some st' := by
  obtain ⟨s', hs'⟩ := Option.isSome_iff_exists.mp h
  refine ⟨.worker r, Function.update st r s', ?_⟩
  have hrank : (UpdateStep.worker r).rank ∈ plan.members := hr
  rw [next, if_pos hrank]
  rw [hs']
  rfl

/-- A server that waits for an answer, or its worker, can go on. -/
theorem Plan.Inv.next_of_awaits (hplan : plan.Sound loads) (h : plan.Inv loads st)
    (hr : r ∈ plan.members) (hk : plan.Awaits loads k (st r))
    (hserver : (st r).toServer = true → (plan.serverStep st r).isSome) :
    ∃ a st', plan.next st a = some st' := by
  rcases (h.ranks r hr).worker_enabled hplan hk with hanswer | hworker
  · exact Plan.next_server hr (hserver hanswer)
  · exact Plan.next_worker hr hworker

/-- The receiver of the turn that a server is at can make its broadcast, or has made it. -/
theorem Plan.Inv.next_of_broadcast (hplan : plan.Sound loads) (h : plan.Inv loads st)
    (hr : r ∈ plan.members) (hserver : (st r).server = .broadcast gidx)
    (hleast : ∀ r' ∈ plan.members, plan.pos (st r).server ≤ plan.pos (st r').server) :
    ∃ a st', plan.next st a = some st' := by
  have hloop := (h.ranks r hr).inLoop
  rw [hserver] at hloop
  obtain ⟨t, ht⟩ : ∃ t, plan.turns[gidx]? = some t := ⟨_, List.getElem?_eq_getElem hloop⟩
  obtain ⟨bytes, hfill⟩ := Option.isSome_iff_exists.mp (hplan.fill_isSome ht)
  have hreceiver : t.receiver ∈ plan.members := hplan.members t (List.mem_of_getElem? ht)
  have hown : ∀ r', t.receiver = r' → (st r').server = .broadcast gidx →
      (plan.serverStep st r').isSome := by
    intro r' hr' hs
    unfold Plan.serverStep
    simp [hs, ht, broadcastBytes, hr', hfill]
  by_cases hself : t.receiver = r
  · exact Plan.next_server hr (hown r hself hserver)
  · have hle := hleast _ hreceiver
    rw [hserver] at hle
    rcases Nat.lt_or_eq_of_le hle with hpast | hat
    · refine Plan.next_server hr ?_
      unfold Plan.serverStep
      simp [hserver, ht, broadcastBytes, hself, hpast]
    · refine Plan.next_server hreceiver (hown _ rfl ?_)
      have hsourceLoop := (h.ranks _ hreceiver).inLoop
      have hlt : gidx < plan.turns.length := hloop
      cases hsource : (st t.receiver).server with
      | broadcast g =>
        rw [hsource] at hat
        simp only [pos] at hat
        rw [show g = gidx by omega]
      | _ =>
        rw [hsource] at hat hsourceLoop
        simp only [pos, InLoop] at hat hsourceLoop
        omega

/-- While some server is not closed, some rank can go on. -/
theorem Plan.Inv.exists_next (hplan : plan.Sound loads) (h : plan.Inv loads st)
    (hopen : ∃ r ∈ plan.members, (st r).server ≠ .closed) :
    ∃ a st', plan.next st a = some st' := by
  obtain ⟨r₀, hr₀, hne⟩ := hopen
  -- the server that is least far
  obtain ⟨r, hr, hleast⟩ := Finset.exists_min_image plan.members.toFinset
    (fun r => plan.pos (st r).server) ⟨r₀, List.mem_toFinset.mpr hr₀⟩
  rw [List.mem_toFinset] at hr
  replace hleast : ∀ r' ∈ plan.members, plan.pos (st r).server ≤ plan.pos (st r').server :=
    fun r' hr' => hleast r' (List.mem_toFinset.mpr hr')
  have hrank := h.ranks r hr
  have hawaits : ∀ k, plan.Outstanding loads k (st r) → ∃ k, plan.Awaits loads k (st r) := by
    intro k hk
    rcases hrank.quiet_or_awaits with ⟨k', hquiet⟩ | hawaits
    · exfalso
      have hnone := workerStep_of_quiet hquiet
      cases hk with
      | sent htoWorker _ _ _ _ => rw [hquiet.toWorker] at htoWorker; cases htoWorker
      | running _ _ _ _ _ _ _ _ _ _ hworker _ _ =>
        rcases plan.workerAfter_cases k' with hw | hw <;>
          rw [hquiet.worker, hw] at hworker <;> cases hworker
      | answered _ htoServer _ _ _ => rw [hquiet.toServer] at htoServer; cases htoServer
    · exact hawaits
  have hloop := hrank.inLoop
  have hex := hrank.exchange
  unfold Plan.Exchange at hex
  cases hserver : (st r).server with
  | handle => exact Plan.next_server hr (by simp [Plan.serverStep, hserver])
  | broadcast gidx => exact h.next_of_broadcast hplan hr hserver hleast
  | recv gidx =>
    rw [hserver] at hex
    obtain ⟨k, hk⟩ := hawaits _ hex
    exact h.next_of_awaits hplan hr hk fun hanswer => by simp [Plan.serverStep, hserver, hanswer]
  | barrier gidx =>
    have harrived : plan.Arrived st (.barrier gidx) := fun r' hr' => hserver ▸ hleast r' hr'
    exact Plan.next_server hr (by simp [Plan.serverStep, hserver, harrived])
  | send gidx =>
    rw [hserver] at hloop
    have ht : plan.turns[gidx]? = some _ := List.getElem?_eq_getElem hloop
    exact Plan.next_server hr (by simp [Plan.serverStep, hserver, ht])
  | lastRecv =>
    rw [hserver] at hex
    obtain ⟨k, hk⟩ := hawaits _ hex
    exact h.next_of_awaits hplan hr hk fun hanswer => by simp [Plan.serverStep, hserver, hanswer]
  | sendNone => exact Plan.next_server hr (by simp [Plan.serverStep, hserver])
  | doneRecv =>
    rw [hserver] at hex
    obtain ⟨k, hk⟩ := hawaits _ hex
    exact h.next_of_awaits hplan hr hk fun hanswer => by simp [Plan.serverStep, hserver, hanswer]
  | lastBarrier =>
    have harrived : plan.Arrived st .lastBarrier := fun r' hr' => hserver ▸ hleast r' hr'
    exact Plan.next_server hr (by simp [Plan.serverStep, hserver, harrived])
  | closed =>
    exfalso
    have hfar := hleast r₀ hr₀
    have hloop₀ := (h.ranks r₀ hr₀).inLoop
    rw [hserver] at hfar
    cases hs : (st r₀).server with
    | closed => exact hne hs
    | _ =>
      rw [hs] at hfar hloop₀
      simp only [pos, InLoop] at hfar hloop₀
      omega

/-! Every run ends -/

/-- The largest number of tensors in a turn. -/
def Plan.maxItems (plan : Plan) : Nat :=
  (plan.turns.map fun t => t.bucket.items.length).foldr max 0

/-- How many steps a worker has to take for a message. -/
def messageWork : Option Message → Nat
  | none => 0
  | some (.tensors items) => items.length + 2
  | some _ => 1

/-- How many steps a worker has to take for what it works on. -/
def workerWork : WorkerAt → Nat
  | .run rest => rest.length + 1
  | _ => 0

/-- The steps that a rank can still take: each statement of its server may make work for its
worker. -/
def Plan.work (plan : Plan) (s : RankState) : Nat :=
  (4 * plan.turns.length + 5 - plan.pos s.server) * (plan.maxItems + 3) + messageWork s.toWorker +
    workerWork s.worker

theorem workerWork_step (h : workerStep s = some s') :
    messageWork s'.toWorker + workerWork s'.worker < messageWork s.toWorker + workerWork s.worker := by
  unfold workerStep at h
  split at h
  · rename_i hworker
    split at h
    · cases h
    · rename_i hm
      cases h
      simp [hm, hworker, messageWork, workerWork]
    · rename_i hm
      split_ifs at h
      cases h
      simp [hm, hworker, messageWork, workerWork]
    · rename_i hm
      cases h
      simp [hm, hworker, messageWork, workerWork]
  · rename_i hworker
    obtain ⟨weight, -, h⟩ := Option.bind_eq_some_iff.mp h
    cases h
    simp [hworker, workerWork]
  · rename_i hworker
    cases h
    simp [hworker, workerWork]
  · cases h

theorem length_toNamedTensor (metas : List ParameterMeta) (offset : Nat) :
    (toNamedTensor metas offset).length = metas.length := by
  induction metas generalizing offset with
  | nil => rfl
  | cons m metas ih => rw [toNamedTensor, List.length_cons, ih, List.length_cons]

theorem Plan.le_maxItems (ht : plan.turns[gidx]? = some t) :
    t.bucket.items.length ≤ plan.maxItems := by
  exact List.le_max_of_le (List.mem_map_of_mem (List.mem_of_getElem? ht)) le_rfl

/-- A statement of a server leaves its worker alone and makes no more work for it than a turn has. -/
theorem Plan.serverStep_frame (h : plan.serverStep st r = some s') :
    s'.worker = (st r).worker ∧
      messageWork s'.toWorker ≤ messageWork (st r).toWorker + (plan.maxItems + 2) := by
  unfold serverStep at h
  dsimp only at h
  split at h
  · cases h
    exact ⟨rfl, by simp only [messageWork]; omega⟩
  · obtain ⟨t, -, h⟩ := Option.bind_eq_some_iff.mp h
    obtain ⟨bytes, -, h⟩ := Option.bind_eq_some_iff.mp h
    cases h
    exact ⟨rfl, Nat.le_add_right _ _⟩
  · split_ifs at h
    cases h
    exact ⟨rfl, Nat.le_add_right _ _⟩
  · split_ifs at h
    cases h
    exact ⟨rfl, Nat.le_add_right _ _⟩
  · obtain ⟨t, ht, h⟩ := Option.bind_eq_some_iff.mp h
    cases h
    have hle := Plan.le_maxItems ht
    refine ⟨rfl, ?_⟩
    simp only [messageWork, length_toNamedTensor]
    omega
  · split_ifs at h
    cases h
    exact ⟨rfl, Nat.le_add_right _ _⟩
  · cases h
    exact ⟨rfl, by simp only [messageWork]; omega⟩
  · split_ifs at h
    cases h
    exact ⟨rfl, Nat.le_add_right _ _⟩
  · split_ifs at h
    cases h
    exact ⟨rfl, Nat.le_add_right _ _⟩
  · cases h

theorem Plan.pos_le {at' : ServerAt} (h : plan.InLoop at') :
    plan.pos at' ≤ 4 * plan.turns.length + 5 := by
  cases at' <;> simp only [pos, InLoop] at * <;> omega

theorem Plan.Inv.work_server (hplan : plan.Sound loads) (h : plan.Inv loads st)
    (hr : r ∈ plan.members) (hs : plan.serverStep st r = some s') :
    plan.work s' < plan.work (st r) := by
  obtain ⟨hrank, hpos, -⟩ := h.serverStep hplan hr hs
  obtain ⟨hworker, hmessage⟩ := Plan.serverStep_frame hs
  have hle := Plan.pos_le hrank.inLoop
  obtain ⟨n, hn⟩ : ∃ n, 4 * plan.turns.length + 5 = plan.pos s'.server + n :=
    Nat.exists_eq_add_of_le hle
  have hbefore : 4 * plan.turns.length + 5 - plan.pos (st r).server = n + 1 := by omega
  have hafter : 4 * plan.turns.length + 5 - plan.pos s'.server = n := by omega
  unfold work
  rw [hworker, hbefore, hafter, Nat.succ_mul]
  omega

/-- Each step leaves less work. -/
theorem Plan.Inv.work_next (hplan : plan.Sound loads) (h : plan.Inv loads st) {a : UpdateStep}
    (hn : plan.next st a = some st') :
    (plan.members.map fun r => plan.work (st' r)).sum <
      (plan.members.map fun r => plan.work (st r)).sum := by
  unfold Plan.next at hn
  split_ifs at hn with hr
  obtain ⟨s', hs', rfl⟩ := Option.map_eq_some_iff.mp hn
  have hless : plan.work s' < plan.work (st a.rank) := by
    cases a with
    | server r => exact h.work_server hplan hr hs'
    | worker r =>
      have hserver := (workerStep_frame hs').1
      have hwork := workerWork_step hs'
      unfold work
      rw [hserver]
      change _ < _ + messageWork (st r).toWorker + workerWork (st r).worker
      change _ + _ + _ < (4 * plan.turns.length + 5 - plan.pos (st r).server) * _ + _ + _
      omega
  refine List.sum_lt_sum _ _ (fun r' _ => ?_) ⟨a.rank, hr, ?_⟩
  · by_cases he : r' = a.rank
    · subst he
      rw [Function.update_self]
      exact hless.le
    · rw [Function.update_of_ne he]
  · rw [Function.update_self]
    exact hless

theorem Plan.Inv.length_le (hplan : plan.Sound loads) (h : plan.Inv loads st)
    {run : List UpdateStep} (hrun : Framework.exec plan.next st run = some st') :
    run.length ≤ (plan.members.map fun r => plan.work (st r)).sum := by
  induction run generalizing st with
  | nil => exact Nat.zero_le _
  | cons a run ih =>
    obtain ⟨st₁, hn, hrest⟩ := exec_cons_eq_some hrun
    have hlen := ih (h.next hplan hn) hrest
    have hless := h.work_next hplan hn
    rw [List.length_cons]
    omega

theorem Plan.work_init (plan : Plan) (alloc : Nat → List UInt8) (r : Nat) :
    plan.work (rankInit alloc r) = (4 * plan.turns.length + 5) * (plan.maxItems + 3) := rfl

/-- Where no step can be taken any more, every server and every worker is out of its loop. -/
theorem Plan.Inv.all_closed (hplan : plan.Sound loads) (h : plan.Inv loads st)
    (hstuck : ∀ a, plan.next st a = none) (hr : r ∈ plan.members) :
    (st r).server = .closed ∧ (st r).worker = .closed := by
  have hserver : (st r).server = .closed := by
    by_contra hopen
    obtain ⟨a, st', hn⟩ := h.exists_next hplan ⟨r, hr, hopen⟩
    rw [hstuck a] at hn
    cases hn
  have hex := (h.ranks r hr).exchange
  unfold Plan.Exchange at hex
  rw [hserver] at hex
  exact ⟨hserver, hex.worker.trans (if_pos rfl)⟩

end Belayer.Weights.Ps
