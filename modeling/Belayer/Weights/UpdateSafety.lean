import Belayer.Framework.Traverse
import Belayer.Weights.UpdatePerBucket

namespace Belayer.Weights.Ps

open Belayer.Framework

/-! What a worker reads is never written over, and it loads what the turns bring. -/

/-- A turn brings these tensors: read at an aligned place where the receiver's bytes lie. -/
def Plan.Brings (plan : Plan) (t : Turn) (load : List (String × RawTensor)) : Prop :=
  ∃ bytes, plan.fill t = some bytes ∧ bytes.length = t.bucket.size ∧
    t.bucket.size ≤ plan.bucketSize ∧
    ∀ memory offset, 256 ∣ offset → readAt memory offset t.bucket.size = bytes →
      extractWeights (toNamedTensor t.bucket.items offset) memory = some load

/-- A plan whose turns bring these loads. -/
structure Plan.Sound (plan : Plan) (loads : List (List (String × RawTensor))) : Prop where
  aligned : 256 ∣ plan.bucketSize
  members : ∀ t ∈ plan.turns, t.receiver ∈ plan.members
  brings : List.Forall₂ plan.Brings plan.turns loads

/-- The half of a turn has the bytes of its receiver. -/
def Plan.HoldsAt (plan : Plan) (gidx : Nat) (buffer : List UInt8) : Prop :=
  ∀ t, plan.turns[gidx]? = some t →
    plan.fill t = some (readAt buffer (plan.start gidx) t.bucket.size)

/-- How many broadcasts are behind a server. -/
def Plan.broadcasts (plan : Plan) : ServerAt → Nat
  | .handle => 0
  | .broadcast gidx => gidx
  | .recv gidx | .barrier gidx | .send gidx => gidx + 1
  | _ => plan.turns.length

/-- The turn of a statement is one of the turns. -/
def Plan.InLoop (plan : Plan) : ServerAt → Prop
  | .broadcast gidx | .recv gidx | .barrier gidx | .send gidx => gidx < plan.turns.length
  | _ => True

/-- The messages to a worker: the handle, one for each turn, and the one that ends its loop. -/
def Plan.message (plan : Plan) : Nat → Message
  | 0 => .handle
  | k + 1 =>
    match plan.turns[k]? with
    | some t => .tensors (toNamedTensor t.bucket.items (plan.start k))
    | none => .done

/-- What a worker has loaded once so many messages are answered. -/
def loadedAfter (loads : List (List (String × RawTensor))) (k : Nat) : List (String × RawTensor) :=
  (loads.take (k - 1)).flatten

/-- Where a worker waits once so many messages are answered. -/
def Plan.workerAfter (plan : Plan) (k : Nat) : WorkerAt :=
  if k = plan.turns.length + 2 then .closed else .recv

/-- No message is on its way; `k` of them are answered. -/
structure Plan.Quiet (plan : Plan) (loads : List (List (String × RawTensor))) (k : Nat)
    (s : RankState) : Prop where
  toWorker : s.toWorker = none
  toServer : s.toServer = false
  worker : s.worker = plan.workerAfter k
  mapped : s.mapped = decide (0 < k)
  loaded : s.loaded = loadedAfter loads k

/-- The message after the first `k` is sent, or worked on, or answered and the answer not read. -/
inductive Plan.Outstanding (plan : Plan) (loads : List (List (String × RawTensor))) (k : Nat)
    (s : RankState) : Prop
  | sent (toWorker : s.toWorker = some (plan.message k)) (toServer : s.toServer = false)
    (worker : s.worker = .recv) (mapped : s.mapped = decide (0 < k))
    (loaded : s.loaded = loadedAfter loads k)
  | running (gidx n : Nat) (t : Turn) (load : List (String × RawTensor)) (message : k = gidx + 1)
    (turn : plan.turns[gidx]? = some t) (brought : loads[gidx]? = some load)
    (le : n ≤ load.length) (toWorker : s.toWorker = none) (toServer : s.toServer = false)
    (worker : s.worker = .run ((toNamedTensor t.bucket.items (plan.start gidx)).drop n))
    (mapped : s.mapped = true) (loaded : s.loaded = loadedAfter loads k ++ load.take n)
  | answered (toWorker : s.toWorker = none) (toServer : s.toServer = true)
    (worker : s.worker = plan.workerAfter (k + 1)) (mapped : s.mapped = true)
    (loaded : s.loaded = loadedAfter loads (k + 1))

/-- How far the messages have come by the statement of the server. -/
def Plan.Exchange (plan : Plan) (loads : List (List (String × RawTensor))) (s : RankState) : Prop :=
  match s.server with
  | .handle => plan.Quiet loads 0 s
  | .broadcast gidx | .recv gidx => plan.Outstanding loads gidx s
  | .barrier gidx | .send gidx => plan.Quiet loads (gidx + 1) s
  | .lastRecv => plan.Outstanding loads plan.turns.length s
  | .sendNone => plan.Quiet loads (plan.turns.length + 1) s
  | .doneRecv => plan.Outstanding loads (plan.turns.length + 1) s
  | .lastBarrier | .closed => plan.Quiet loads (plan.turns.length + 2) s

/-- What holds of a rank: the halves of the last two broadcasts are intact. -/
structure Plan.RankInv (plan : Plan) (loads : List (List (String × RawTensor))) (s : RankState) :
    Prop where
  length : s.buffer.length = 2 * plan.bucketSize
  inLoop : plan.InLoop s.server
  halves : ∀ gidx, gidx < plan.broadcasts s.server → plan.broadcasts s.server ≤ gidx + 2 →
    plan.HoldsAt gidx s.buffer
  exchange : plan.Exchange loads s

/-- No rank is behind a barrier that another one has not come to. -/
def Plan.Together (plan : Plan) (st : Nat → RankState) : Prop :=
  ∀ gidx, gidx < plan.turns.length → ∀ r ∈ plan.members, ∀ r' ∈ plan.members,
    plan.pos (.barrier gidx) < plan.pos (st r).server →
      plan.pos (.barrier gidx) ≤ plan.pos (st r').server

structure Plan.Inv (plan : Plan) (loads : List (List (String × RawTensor)))
    (st : Nat → RankState) : Prop where
  ranks : ∀ r ∈ plan.members, plan.RankInv loads (st r)
  together : plan.Together st

variable {plan : Plan} {loads : List (List (String × RawTensor))} {st : Nat → RankState}
  {s : RankState} {r gidx k : Nat} {t : Turn}

/-! The turns -/

theorem Plan.Sound.exists_load (h : plan.Sound loads) (ht : plan.turns[gidx]? = some t) :
    ∃ load, loads[gidx]? = some load ∧ plan.Brings t load := by
  obtain ⟨hlt, rfl⟩ := List.getElem?_eq_some_iff.mp ht
  have hlt' : gidx < loads.length := h.brings.length_eq ▸ hlt
  exact ⟨loads[gidx], List.getElem?_eq_getElem hlt', h.brings.get hlt hlt'⟩

theorem Plan.Sound.start_dvd (h : plan.Sound loads) (gidx : Nat) : 256 ∣ plan.start gidx :=
  Dvd.dvd.mul_left h.aligned _

/-- Two turns in a row use different halves. -/
theorem Plan.start_succ (plan : Plan) (gidx : Nat) :
    plan.start gidx + plan.bucketSize ≤ plan.start (gidx + 1) ∨
      plan.start (gidx + 1) + plan.bucketSize ≤ plan.start gidx := by
  unfold start
  rcases Nat.mod_two_eq_zero_or_one gidx with h | h
  · have h' : (gidx + 1) % 2 = 1 := by omega
    rw [h, h']
    omega
  · have h' : (gidx + 1) % 2 = 0 := by omega
    rw [h, h']
    omega

theorem Plan.start_le (plan : Plan) (gidx : Nat) :
    plan.start gidx + plan.bucketSize ≤ 2 * plan.bucketSize := by
  unfold start
  rcases Nat.mod_two_eq_zero_or_one gidx with h | h <;> rw [h] <;> omega

theorem loadedAfter_succ {load : List (String × RawTensor)} (h : loads[gidx]? = some load) :
    loadedAfter loads (gidx + 2) = loadedAfter loads (gidx + 1) ++ load := by
  obtain ⟨hlt, rfl⟩ := List.getElem?_eq_some_iff.mp h
  simp only [loadedAfter, Nat.add_sub_cancel, Nat.add_succ_sub_one]
  rw [List.take_succ_eq_append_getElem hlt, List.flatten_append, List.flatten_singleton]

theorem loadedAfter_of_le (h : loads.length + 1 ≤ k) : loadedAfter loads k = loads.flatten := by
  rw [loadedAfter, List.take_of_length_le (by omega)]

/-- The bytes that come with a broadcast, and the halves after it. -/
theorem Plan.RankInv.halves_write (hplan : plan.Sound loads) (h : plan.RankInv loads s)
    (hserver : s.server = .broadcast gidx) (ht : plan.turns[gidx]? = some t) {bytes : List UInt8}
    (hbytes : plan.fill t = some bytes) :
    ∀ g, g < gidx + 1 → gidx + 1 ≤ g + 2 →
      plan.HoldsAt g (writeAt s.buffer (plan.start gidx) bytes) := by
  obtain ⟨load, -, bytes', hfill, hlength, hle, -⟩ := hplan.exists_load ht
  obtain rfl : bytes' = bytes := Option.some.inj (hfill.symm.trans hbytes)
  have hroom : plan.start gidx + bytes'.length ≤ s.buffer.length := by
    have hhalf := plan.start_le gidx
    rw [h.length]
    omega
  intro g hg hg2 t' ht'
  by_cases heq : g = gidx
  · subst heq
    obtain rfl : t = t' := Option.some.inj (ht.symm.trans ht')
    rw [← hlength, readAt_writeAt_self (by omega)]
    exact hbytes
  · obtain rfl : gidx = g + 1 := by omega
    have hold := h.halves g (by rw [hserver]; exact Nat.lt_succ_self g)
      (by rw [hserver]; exact Nat.le_succ _) t' ht'
    obtain ⟨load', -, bytes'', hfill', hlength', hle', -⟩ := hplan.exists_load ht'
    rw [hold]
    refine congrArg some (readAt_writeAt_of_apart hroom ?_).symm
    have hhalf := plan.start_succ g
    omega

/-! The messages -/

theorem Plan.Quiet.congr {s' : RankState} (h : plan.Quiet loads k s)
    (htoWorker : s'.toWorker = s.toWorker) (htoServer : s'.toServer = s.toServer)
    (hworker : s'.worker = s.worker) (hmapped : s'.mapped = s.mapped)
    (hloaded : s'.loaded = s.loaded) : plan.Quiet loads k s' :=
  ⟨htoWorker.trans h.toWorker, htoServer.trans h.toServer, hworker.trans h.worker,
    hmapped.trans h.mapped, hloaded.trans h.loaded⟩

theorem Plan.Outstanding.congr {s' : RankState} (h : plan.Outstanding loads k s)
    (htoWorker : s'.toWorker = s.toWorker) (htoServer : s'.toServer = s.toServer)
    (hworker : s'.worker = s.worker) (hmapped : s'.mapped = s.mapped)
    (hloaded : s'.loaded = s.loaded) : plan.Outstanding loads k s' := by
  cases h with
  | sent h₁ h₂ h₃ h₄ h₅ =>
    exact .sent (htoWorker.trans h₁) (htoServer.trans h₂) (hworker.trans h₃) (hmapped.trans h₄)
      (hloaded.trans h₅)
  | running gidx n t load hk ht hload hle h₁ h₂ h₃ h₄ h₅ =>
    exact .running gidx n t load hk ht hload hle (htoWorker.trans h₁) (htoServer.trans h₂)
      (hworker.trans h₃) (hmapped.trans h₄) (hloaded.trans h₅)
  | answered h₁ h₂ h₃ h₄ h₅ =>
    exact .answered (htoWorker.trans h₁) (htoServer.trans h₂) (hworker.trans h₃)
      (hmapped.trans h₄) (hloaded.trans h₅)

theorem Plan.workerAfter_of_ne (h : k ≠ plan.turns.length + 2) : plan.workerAfter k = .recv :=
  if_neg h

theorem Plan.workerAfter_cases (plan : Plan) (k : Nat) :
    plan.workerAfter k = .closed ∨ plan.workerAfter k = .recv := by
  unfold workerAfter
  split_ifs
  · exact .inl rfl
  · exact .inr rfl

/-- The server reads the answer. -/
theorem Plan.Outstanding.read (h : plan.Outstanding loads k s) (hs : s.toServer = true)
    (server : ServerAt) : plan.Quiet loads (k + 1) { s with toServer := false, server := server } := by
  cases h with
  | sent _ h => rw [hs] at h; cases h
  | running _ _ _ _ _ _ _ _ _ h => rw [hs] at h; cases h
  | answered h₁ _ h₃ h₄ h₅ => exact ⟨h₁, rfl, h₃, h₄, h₅⟩

/-- The server sends the next message. -/
theorem Plan.Quiet.send (h : plan.Quiet loads k s) (hk : k < plan.turns.length + 2)
    (server : ServerAt) :
    plan.Outstanding loads k { s with toWorker := some (plan.message k), server := server } := by
  exact .sent rfl h.toServer (h.worker.trans (Plan.workerAfter_of_ne (Nat.ne_of_lt hk))) h.mapped
    h.loaded

theorem workerStep_of_quiet (h : plan.Quiet loads k s) : workerStep s = none := by
  unfold workerStep
  rcases plan.workerAfter_cases k with hw | hw <;> simp [h.worker, hw, h.toWorker]

/-- While a worker works on a turn, the half of this turn holds its bytes. -/
theorem Plan.Sound.extractWeights (hplan : plan.Sound loads) (ht : plan.turns[gidx]? = some t)
    {load : List (String × RawTensor)} (hload : loads[gidx]? = some load)
    (hholds : plan.HoldsAt gidx s.buffer) :
    Ps.extractWeights (toNamedTensor t.bucket.items (plan.start gidx)) s.buffer = some load := by
  obtain ⟨load', hload', bytes, hfill, -, -, hread⟩ := hplan.exists_load ht
  obtain rfl : load' = load := Option.some.inj (hload'.symm.trans hload)
  refine hread s.buffer _ (hplan.start_dvd gidx) ?_
  exact Option.some.inj ((hholds t ht).symm.trans hfill)

/-- A worker's step on an outstanding message. -/
theorem Plan.Outstanding.workerStep (hplan : plan.Sound loads) {s' : RankState}
    (h : plan.Outstanding loads k s) (hk : k ≤ plan.turns.length + 1)
    (hholds : ∀ gidx, k = gidx + 1 → gidx < plan.turns.length → plan.HoldsAt gidx s.buffer)
    (hs : Ps.workerStep s = some s') : plan.Outstanding loads k s' := by
  have hlength := hplan.brings.length_eq
  unfold Ps.workerStep at hs
  cases h with
  | sent htoWorker htoServer hworker hmapped hloaded =>
    simp only [hworker, htoWorker] at hs
    cases k with
    | zero =>
      cases hs
      exact .answered rfl rfl (Plan.workerAfter_of_ne (by omega)).symm rfl hloaded
    | succ g =>
      unfold Plan.message at hs
      dsimp only at hs
      cases ht : plan.turns[g]? with
      | some t =>
        simp only [ht] at hs
        split_ifs at hs with hm
        cases hs
        obtain ⟨load, hload, -⟩ := hplan.exists_load ht
        exact .running g 0 t load rfl ht hload (Nat.zero_le _) rfl htoServer rfl hm
          (by rw [hloaded, List.take_zero, List.append_nil])
      | none =>
        simp only [ht] at hs
        cases hs
        have hend : g = plan.turns.length := by
          have := List.getElem?_eq_none_iff.mp ht
          omega
        refine .answered rfl rfl (if_pos (by omega)).symm (by simpa using hmapped) ?_
        rw [hloaded, loadedAfter_of_le (by omega), loadedAfter_of_le (by omega)]
  | running g n t load hg ht hload hle htoWorker htoServer hworker hmapped hloaded =>
    have hlt : g < plan.turns.length := (List.getElem?_eq_some_iff.mp ht).1
    have hextract := hplan.extractWeights ht hload (hholds g hg hlt)
    have hlen := congrArg List.length (mapM_eq_some_iff.mp hextract)
    rw [List.length_map, List.length_map] at hlen
    cases hrest : (toNamedTensor t.bucket.items (plan.start g)).drop n with
    | nil =>
      simp only [hworker, hrest] at hs
      cases hs
      have hn : load.length ≤ n := by
        have := List.drop_eq_nil_iff.mp hrest
        omega
      refine .answered htoWorker rfl (Plan.workerAfter_of_ne (by omega)).symm hmapped ?_
      rw [hloaded, hg, loadedAfter_succ hload, List.take_of_length_le hn]
    | cons item rest =>
      simp only [hworker, hrest] at hs
      obtain ⟨weight, hweight, hs⟩ := Option.bind_eq_some_iff.mp hs
      cases hs
      have hitem : (toNamedTensor t.bucket.items (plan.start g))[n]? = some item := by
        rw [← List.head?_drop, hrest]
        rfl
      have hget : load[n]? = some weight := by
        rw [getElem?_of_mapM hextract n, hitem]
        exact hweight
      obtain ⟨hn, hload_n⟩ := List.getElem?_eq_some_iff.mp hget
      refine .running g (n + 1) t load hg ht hload hn htoWorker htoServer ?_ hmapped ?_
      · rw [← List.drop_drop, hrest]
        rfl
      · rw [hloaded, List.append_assoc, List.take_succ_eq_append_getElem hn, hload_n]
  | answered htoWorker htoServer hworker hmapped hloaded =>
    rcases plan.workerAfter_cases (k + 1) with hw | hw <;> simp [hworker, hw, htoWorker] at hs

/-! Steps -/

/-- An outstanding message and what the server has done by then. -/
structure Plan.Awaits (plan : Plan) (loads : List (List (String × RawTensor))) (k : Nat)
    (s : RankState) : Prop where
  le : k ≤ plan.turns.length + 1
  outstanding : plan.Outstanding loads k s
  recent : ∀ gidx, k = gidx + 1 → gidx < plan.turns.length →
    gidx < plan.broadcasts s.server ∧ plan.broadcasts s.server ≤ gidx + 2
  exchange : ∀ s', s'.server = s.server → plan.Outstanding loads k s' → plan.Exchange loads s'

theorem Plan.RankInv.quiet_or_awaits (h : plan.RankInv loads s) :
    (∃ k, plan.Quiet loads k s) ∨ ∃ k, plan.Awaits loads k s := by
  have hloop := h.inLoop
  have hex := h.exchange
  unfold Exchange at hex
  cases hserver : s.server with
  | handle | barrier | send | sendNone | lastBarrier | closed =>
    rw [hserver] at hex
    exact .inl ⟨_, hex⟩
  | broadcast g | recv g =>
    rw [hserver] at hex hloop
    simp only [InLoop] at hloop
    refine .inr ⟨g, by omega, hex, ?_, fun s' hs' h' => ?_⟩
    · intro gidx hg _
      rw [hserver]
      simp only [broadcasts]
      omega
    · rw [Exchange, hs', hserver]
      exact h'
  | lastRecv =>
    rw [hserver] at hex
    refine .inr ⟨_, Nat.le_succ _, hex, ?_, fun s' hs' h' => ?_⟩
    · intro gidx hg _
      rw [hserver]
      simp only [broadcasts]
      omega
    · rw [Exchange, hs', hserver]
      exact h'
  | doneRecv =>
    rw [hserver] at hex
    refine .inr ⟨_, Nat.le_refl _, hex, ?_, fun s' hs' h' => ?_⟩
    · intro gidx hg hlt
      omega
    · rw [Exchange, hs', hserver]
      exact h'

theorem workerStep_frame {s' : RankState} (hs : workerStep s = some s') :
    s'.server = s.server ∧ s'.buffer = s.buffer := by
  unfold workerStep at hs
  split at hs
  · split at hs
    · cases hs
    · cases hs
      exact ⟨rfl, rfl⟩
    · split_ifs at hs
      cases hs
      exact ⟨rfl, rfl⟩
    · cases hs
      exact ⟨rfl, rfl⟩
  · obtain ⟨weight, -, hs⟩ := Option.bind_eq_some_iff.mp hs
    cases hs
    exact ⟨rfl, rfl⟩
  · cases hs
    exact ⟨rfl, rfl⟩
  · cases hs

theorem Plan.RankInv.workerStep (hplan : plan.Sound loads) (h : plan.RankInv loads s)
    {s' : RankState} (hs : Ps.workerStep s = some s') : plan.RankInv loads s' := by
  obtain ⟨hserver, hbuffer⟩ := workerStep_frame hs
  refine ⟨by rw [hbuffer, h.length], by rw [hserver]; exact h.inLoop,
    by rw [hserver, hbuffer]; exact h.halves, ?_⟩
  rcases h.quiet_or_awaits with ⟨k, hquiet⟩ | ⟨k, hawaits⟩
  · rw [workerStep_of_quiet hquiet] at hs
    cases hs
  · refine hawaits.exchange s' hserver (hawaits.outstanding.workerStep hplan hawaits.le ?_ hs)
    intro gidx hk hlt
    exact h.halves gidx (hawaits.recent gidx hk hlt).1 (hawaits.recent gidx hk hlt).2

/-! The statements of a server -/

theorem Plan.pos_turnAt (h : gidx ≤ plan.turns.length) :
    plan.pos (plan.turnAt gidx) = 4 * gidx + 1 := by
  unfold turnAt
  split_ifs with hlt
  · rfl
  · obtain rfl : gidx = plan.turns.length := by omega
    rfl

theorem Plan.broadcasts_turnAt (h : gidx ≤ plan.turns.length) :
    plan.broadcasts (plan.turnAt gidx) = gidx := by
  unfold turnAt
  split_ifs with hlt
  · rfl
  · obtain rfl : gidx = plan.turns.length := by omega
    rfl

theorem Plan.inLoop_turnAt (plan : Plan) (gidx : Nat) : plan.InLoop (plan.turnAt gidx) := by
  unfold turnAt
  split_ifs with hlt
  · exact hlt
  · trivial

theorem Plan.exchange_turnAt (h : gidx ≤ plan.turns.length) (hs : s.server = plan.turnAt gidx)
    (hout : plan.Outstanding loads gidx s) : plan.Exchange loads s := by
  unfold turnAt at hs
  unfold Exchange
  split_ifs at hs with hlt
  · rw [hs]
    exact hout
  · obtain rfl : gidx = plan.turns.length := by omega
    rw [hs]
    exact hout

theorem Plan.broadcasts_of_pos {at' : ServerAt} (hloop : plan.InLoop at')
    (hg : gidx < plan.turns.length) (hlo : 4 * gidx + 1 < plan.pos at')
    (hhi : plan.pos at' ≤ 4 * gidx + 3) : plan.broadcasts at' = gidx + 1 := by
  cases at' <;> simp only [pos, broadcasts, InLoop] at * <;> omega

/-- What comes with a broadcast is what the receiver has for the turn. -/
theorem Plan.Inv.fill_of_broadcast (hplan : plan.Sound loads) (h : plan.Inv loads st)
    (hr : r ∈ plan.members) (hserver : (st r).server = .broadcast gidx)
    (ht : plan.turns[gidx]? = some t) {bytes : List UInt8}
    (hbytes : plan.broadcastBytes st r gidx t = some bytes) : plan.fill t = some bytes := by
  unfold broadcastBytes at hbytes
  split_ifs at hbytes with hself hpast
  · exact hbytes
  · have hlt : gidx < plan.turns.length := (List.getElem?_eq_some_iff.mp ht).1
    have hreceiver : t.receiver ∈ plan.members := hplan.members t (List.mem_of_getElem? ht)
    have hsource := h.ranks _ hreceiver
    have hbound : plan.pos (st t.receiver).server ≤ 4 * gidx + 3 := by
      by_contra hgt
      have hahead := h.together gidx hlt _ hreceiver r hr (Nat.lt_of_not_le hgt)
      rw [hserver] at hahead
      simp only [pos] at hahead
      omega
    have hdone := Plan.broadcasts_of_pos hsource.inLoop hlt hpast hbound
    rw [hsource.halves gidx (by omega) (by omega) t ht]
    exact hbytes

/-- A statement of a server keeps what holds of its rank, and the server goes on by one statement;
behind a barrier all have come to it. -/
theorem Plan.Inv.serverStep (hplan : plan.Sound loads) (h : plan.Inv loads st)
    (hr : r ∈ plan.members) {s' : RankState} (hs : plan.serverStep st r = some s') :
    plan.RankInv loads s' ∧ plan.pos s'.server = plan.pos (st r).server + 1 ∧
      ∀ gidx, (st r).server = .barrier gidx → plan.Arrived st (.barrier gidx) := by
  have hrank := h.ranks r hr
  have hloop := hrank.inLoop
  have hhalves := hrank.halves
  have hex := hrank.exchange
  unfold Plan.serverStep at hs
  unfold Exchange at hex
  cases hserver : (st r).server with
  | handle =>
    simp only [hserver] at hs hex hhalves
    cases hs
    refine ⟨⟨hrank.length, plan.inLoop_turnAt 0, ?_, ?_⟩, ?_, fun _ h => by cases h⟩
    · intro g hg
      rw [Plan.broadcasts_turnAt (Nat.zero_le _)] at hg
      exact absurd hg (Nat.not_lt_zero _)
    · exact Plan.exchange_turnAt (Nat.zero_le _) rfl (hex.send (Nat.succ_pos _) _)
    · exact Plan.pos_turnAt (Nat.zero_le _)
  | broadcast gidx =>
    simp only [hserver] at hs hex hloop
    obtain ⟨t, ht, hs⟩ := Option.bind_eq_some_iff.mp hs
    obtain ⟨bytes, hbytes, hs⟩ := Option.bind_eq_some_iff.mp hs
    cases hs
    have hfill := h.fill_of_broadcast hplan hr hserver ht hbytes
    obtain ⟨load, -, bytes', hfill', hlength, hle, -⟩ := hplan.exists_load ht
    obtain rfl : bytes' = bytes := Option.some.inj (hfill'.symm.trans hfill)
    have hhalf := plan.start_le gidx
    refine ⟨⟨?_, hloop, hrank.halves_write hplan hserver ht hfill, ?_⟩, rfl, fun _ h => by cases h⟩
    · rw [length_writeAt (by rw [hrank.length]; omega), hrank.length]
    · exact hex.congr rfl rfl rfl rfl rfl
  | recv gidx =>
    simp only [hserver] at hs hex hloop hhalves
    split_ifs at hs with hanswer
    cases hs
    exact ⟨⟨hrank.length, hloop, hhalves, hex.read hanswer _⟩, rfl, fun _ h => by cases h⟩
  | barrier gidx =>
    simp only [hserver] at hs hex hloop hhalves
    split_ifs at hs with harrived
    cases hs
    refine ⟨⟨hrank.length, hloop, hhalves, hex.congr rfl rfl rfl rfl rfl⟩, rfl, ?_⟩
    intro g hg
    cases hg
    exact harrived
  | send gidx =>
    simp only [hserver] at hs hex hloop hhalves
    obtain ⟨t, ht, hs⟩ := Option.bind_eq_some_iff.mp hs
    cases hs
    have hlt : gidx + 1 ≤ plan.turns.length := hloop
    have hmessage : plan.message (gidx + 1) =
        .tensors (toNamedTensor t.bucket.items (plan.start gidx)) := by
      simp only [Plan.message, ht]
    refine ⟨⟨hrank.length, plan.inLoop_turnAt _, ?_, ?_⟩, ?_, fun _ h => by cases h⟩
    · intro g
      dsimp only
      rw [Plan.broadcasts_turnAt hlt]
      exact hhalves g
    · refine Plan.exchange_turnAt hlt rfl ?_
      rw [← hmessage]
      exact hex.send (by omega) _
    · exact Plan.pos_turnAt hlt
  | lastRecv =>
    simp only [hserver] at hs hex hloop hhalves
    split_ifs at hs with hanswer
    cases hs
    exact ⟨⟨hrank.length, trivial, hhalves, hex.read hanswer _⟩, rfl, fun _ h => by cases h⟩
  | sendNone =>
    simp only [hserver] at hs hex hloop hhalves
    cases hs
    have hmessage : plan.message (plan.turns.length + 1) = .done := by
      have hend : plan.turns[plan.turns.length]? = none := List.getElem?_eq_none (Nat.le_refl _)
      simp only [Plan.message, hend]
    refine ⟨⟨hrank.length, trivial, hhalves, ?_⟩, rfl, fun _ h => by cases h⟩
    have hsent := hex.send (Nat.lt_succ_self _) .doneRecv
    rw [hmessage] at hsent
    exact hsent
  | doneRecv =>
    simp only [hserver] at hs hex hloop hhalves
    split_ifs at hs with hanswer
    cases hs
    exact ⟨⟨hrank.length, trivial, hhalves, hex.read hanswer _⟩, rfl, fun _ h => by cases h⟩
  | lastBarrier =>
    simp only [hserver] at hs hex hloop hhalves
    split_ifs at hs with harrived
    cases hs
    exact ⟨⟨hrank.length, trivial, hhalves, hex.congr rfl rfl rfl rfl rfl⟩, rfl,
      fun _ h => by cases h⟩
  | closed =>
    simp only [hserver] at hs
    cases hs

theorem Plan.eq_barrier_of_pos {at' : ServerAt} (hg : gidx < plan.turns.length)
    (h : plan.pos at' = plan.pos (.barrier gidx)) : at' = .barrier gidx := by
  cases at' with
  | barrier g =>
    simp only [pos] at h
    rw [show g = gidx by omega]
  | _ => simp only [pos] at h; omega

/-! Runs -/

theorem Plan.Inv.update_ranks (h : plan.Inv loads st) {s' : RankState}
    (hs' : plan.RankInv loads s') :
    ∀ r' ∈ plan.members, plan.RankInv loads (Function.update st r s' r') := by
  intro r' hr'
  by_cases he : r' = r
  · subst he
    rw [Function.update_self]
    exact hs'
  · rw [Function.update_of_ne he]
    exact h.ranks r' hr'

/-- A step of any rank keeps what holds of all. -/
theorem Plan.Inv.next (hplan : plan.Sound loads) (h : plan.Inv loads st) {a : UpdateStep}
    {st' : Nat → RankState} (hn : plan.next st a = some st') : plan.Inv loads st' := by
  unfold Plan.next at hn
  split_ifs at hn with hr
  obtain ⟨s', hs', rfl⟩ := Option.map_eq_some_iff.mp hn
  cases a with
  | server r =>
    obtain ⟨hrank, hpos, hbarrier⟩ := h.serverStep hplan hr hs'
    refine ⟨h.update_ranks hrank, ?_⟩
    intro gidx hlt r₁ h₁ r₂ h₂ hpast
    have hother : plan.pos (.barrier gidx) ≤ plan.pos (st r₂).server := by
      by_cases he : r₁ = r
      · subst he
        change _ < plan.pos (Function.update st r₁ s' r₁).server at hpast
        rw [Function.update_self, hpos] at hpast
        rcases Nat.lt_or_eq_of_le (Nat.le_of_lt_succ hpast) with hbefore | hat
        · exact h.together gidx hlt r₁ h₁ r₂ h₂ hbefore
        · exact hbarrier gidx (Plan.eq_barrier_of_pos hlt hat.symm) r₂ h₂
      · change _ < plan.pos (Function.update st r s' r₁).server at hpast
        rw [Function.update_of_ne he] at hpast
        exact h.together gidx hlt r₁ h₁ r₂ h₂ hpast
    change _ ≤ plan.pos (Function.update st r s' r₂).server
    by_cases he : r₂ = r
    · subst he
      rw [Function.update_self, hpos]
      exact Nat.le_succ_of_le hother
    · rw [Function.update_of_ne he]
      exact hother
  | worker r =>
    have hserver := (workerStep_frame hs').1
    refine ⟨h.update_ranks ((h.ranks r hr).workerStep hplan hs'), ?_⟩
    have hsame : ∀ r', (Function.update st r s' r').server = (st r').server := by
      intro r'
      by_cases he : r' = r
      · subst he
        rw [Function.update_self, hserver]
      · rw [Function.update_of_ne he]
    intro gidx hlt r₁ h₁ r₂ h₂
    change _ < plan.pos (Function.update st r s' r₁).server →
      _ ≤ plan.pos (Function.update st r s' r₂).server
    rw [hsame, hsame]
    exact h.together gidx hlt r₁ h₁ r₂ h₂

theorem Plan.inv_init (loads : List (List (String × RawTensor))) {alloc : Nat → List UInt8}
    (halloc : ∀ rank, (alloc rank).length = 2 * plan.bucketSize) :
    plan.Inv loads (rankInit alloc) := by
  refine ⟨fun r _ => ⟨halloc r, trivial, fun _ h => absurd h (Nat.not_lt_zero _), ?_⟩, ?_⟩
  · exact ⟨rfl, rfl, (Plan.workerAfter_of_ne (by omega)).symm, rfl, rfl⟩
  · intro gidx _ r _ r' _ hpast
    exact absurd hpast (Nat.not_lt_zero _)

theorem Plan.Inv.exec (hplan : plan.Sound loads) (h : plan.Inv loads st) {run : List UpdateStep}
    {st' : Nat → RankState} (hrun : exec plan.next st run = some st') : plan.Inv loads st' :=
  exec_invariant (fun _ _ _ hs hn => hs.next hplan hn) h hrun

/-! What has been loaded -/

theorem loadedAfter_isPrefix (loads : List (List (String × RawTensor))) (k : Nat) :
    loadedAfter loads k <+: loads.flatten := by
  refine ⟨(loads.drop (k - 1)).flatten, ?_⟩
  rw [loadedAfter, ← List.flatten_append, List.take_append_drop]

/-- A worker has loaded a first part of what the turns bring, and all of it once it is out of its
loop. -/
theorem Plan.RankInv.loaded (hplan : plan.Sound loads) (h : plan.RankInv loads s) :
    s.loaded <+: loads.flatten ∧ (s.worker = .closed → s.loaded = loads.flatten) := by
  have hlength := hplan.brings.length_eq
  have hclosed : ∀ k, plan.workerAfter k = .closed → loadedAfter loads k = loads.flatten := by
    intro k hk
    unfold workerAfter at hk
    split_ifs at hk with he
    exact loadedAfter_of_le (by omega)
  rcases h.quiet_or_awaits with ⟨k, hquiet⟩ | ⟨k, hawaits⟩
  · rw [hquiet.loaded, hquiet.worker]
    exact ⟨loadedAfter_isPrefix loads k, hclosed k⟩
  · cases hawaits.outstanding with
    | sent _ _ hworker _ hloaded =>
      rw [hloaded, hworker]
      exact ⟨loadedAfter_isPrefix loads k, fun he => by cases he⟩
    | running g n t load hk _ hload _ _ _ hworker _ hloaded =>
      rw [hloaded, hworker]
      refine ⟨?_, fun he => by cases he⟩
      have hnext := loadedAfter_isPrefix loads (g + 2)
      rw [loadedAfter_succ hload] at hnext
      rw [hk]
      exact ((List.prefix_append_right_inj _).mpr (List.take_prefix n load)).trans hnext
    | answered _ _ hworker _ hloaded =>
      rw [hloaded, hworker]
      exact ⟨loadedAfter_isPrefix loads (k + 1), hclosed (k + 1)⟩

end Belayer.Weights.Ps
