import Belayer.Exec.Discipline

namespace Belayer.Exec

open Belayer.Framework

namespace Lock

theorem Fits.of_rank_le {held : List Lock} {l l' : Lock} (h : l.Fits held)
    (hr : l'.rank ≤ l.rank) (hd : l' ≠ .drain) : l'.Fits held :=
  ⟨fun a ha => hr.trans_lt (h.1 a ha), fun he => absurd he hd⟩

theorem Fits.cons {held : List Lock} {l a : Lock} (h : l.Fits held) (ha : l.rank < a.floor) :
    l.Fits (a :: held) := by
  refine ⟨?_, fun he => List.mem_cons_of_mem _ (h.2 he)⟩
  intro b hb
  rcases List.mem_cons.mp hb with rfl | hb
  · exact ha
  · exact h.1 b hb

theorem fits_nil {l : Lock} (hd : l ≠ .drain) : l.Fits [] :=
  ⟨by simp, fun he => absurd he hd⟩

end Lock

/-- Instructions that keep to the order of the locks and leave what they enter. -/
def Balanced (held : List Lock) (program : List Instr) : Prop :=
  ∀ rest, Ok held rest → Ok held (program ++ rest)

section Programs

variable {held : List Lock} {containerId : String}

theorem balanced_nil : Balanced held [] := fun _ h => h

theorem Balanced.append {p q : List Instr} (hp : Balanced held p) (hq : Balanced held q) :
    Balanced held (p ++ q) := by
  intro rest h
  rw [List.append_assoc]
  exact hp _ (hq rest h)

theorem balanced_within {entry : Entry} {body : List Instr}
    (hfits : ∀ gate, (entry.lock gate).Fits held)
    (hbody : ∀ gate, Balanced (entry.lock gate :: held) body) :
    Balanced held (within entry body) := by
  intro rest h
  simp only [within, List.cons_append, List.append_assoc]
  intro gate
  exact ⟨hfits gate, hbody gate _ ⟨by simp, h⟩⟩

theorem balanced_docker {call : Call} (h : call.Fits held) : Balanced held [.docker call] :=
  fun _ hr => ⟨h, hr⟩

theorem balanced_dockerCalls : Balanced held dockerCalls := balanced_docker trivial

theorem balanced_dropGate : Balanced held [.dropGate containerId] := fun _ hr => hr

theorem balanced_dropUnless (raised : Bool) : Balanced held (dropUnless raised containerId) := by
  cases raised
  · exact balanced_dropGate
  · exact balanced_nil

theorem balanced_killAndDrop : Balanced held (killAndDrop containerId) :=
  balanced_dockerCalls.append balanced_dropGate

theorem balanced_foreground (h : Lock.foreground.Fits held) :
    Balanced held (foregroundSection dockerCalls) :=
  balanced_within (fun _ => h) (fun _ => balanced_dockerCalls)

theorem balanced_destroySection (h : ∀ gate, (Lock.exclusive containerId gate).Fits held) :
    Balanced held (destroySection containerId) := by
  refine balanced_within h (fun gate => balanced_foreground ?_)
  exact ((h gate).of_rank_le (by simp [Lock.rank]) (by simp)).cons
    (by simp [Lock.rank, Entry.lock, Lock.floor])

theorem balanced_commandSection : Balanced [] (commandSection containerId) := by
  refine balanced_within (fun _ => Lock.fits_nil (by simp [Entry.lock])) (fun gate => ?_)
  refine (balanced_within ?_ ?_).append balanced_dockerCalls
  · intro _
    exact (Lock.fits_nil (by simp [Entry.lock])).cons (by simp [Entry.lock, Lock.rank, Lock.floor])
  · intro _
    exact balanced_docker ⟨gate, by simp [Entry.lock]⟩

theorem balanced_execProgram (script : ExecScript) :
    Balanced [] (execProgram containerId script) := by
  cases script with
  | killedBefore => exact balanced_killAndDrop
  | killedAtRandom raised =>
    exact (balanced_destroySection fun _ => Lock.fits_nil (by simp)).append
      (balanced_dropUnless raised)
  | command killedMeanwhile => exact balanced_commandSection.append (balanced_dropUnless _)

/-- In the exclusive section of a checkpoint the docker daemon is used in a commit
section. -/
theorem balanced_commitSection {body : List Instr}
    (hexclusive : ∀ gate, (Lock.exclusive containerId gate).Fits held)
    (hbody : ∀ held, Balanced held body) (gate : Nat) :
    Balanced (.exclusive containerId gate :: held) (commitSection body) := by
  have hforeground : Lock.foreground.Fits (.exclusive containerId gate :: held) :=
    ((hexclusive gate).of_rank_le (by simp [Lock.rank]) (by simp)).cons
      (by simp [Lock.rank, Lock.floor])
  refine balanced_within (fun _ => hforeground) (fun _ => balanced_within ?_ (fun _ => hbody _))
  intro _
  exact (hforeground.of_rank_le (by simp [Lock.rank, Entry.lock]) (by simp [Entry.lock])).cons
    (by simp [Lock.rank, Lock.floor, Entry.lock])

theorem balanced_checkpointProgram (script : CheckpointScript) :
    Balanced [.worker] (checkpointProgram containerId script) := by
  have hexclusive : ∀ gate, (Lock.exclusive containerId gate).Fits [.worker] :=
    fun _ => (Lock.fits_nil (by simp)).cons (by simp [Lock.rank, Lock.floor])
  cases script with
  | notStarted => exact balanced_nil
  | aborted => exact balanced_within hexclusive (fun _ => balanced_dockerCalls)
  | killedBefore =>
    exact balanced_within hexclusive (fun _ => balanced_dockerCalls.append balanced_killAndDrop)
  | commit killedAfter =>
    refine Balanced.append (balanced_within hexclusive fun gate => ?_) ?_
    · exact balanced_dockerCalls.append
        (balanced_commitSection hexclusive (fun _ => balanced_dockerCalls) gate)
    · cases killedAfter
      · exact balanced_nil
      · exact balanced_killAndDrop
  | full killedAfter recovers =>
    refine balanced_within hexclusive fun gate => ?_
    refine (balanced_dockerCalls.append (balanced_commitSection hexclusive ?_ gate)).append ?_
    · intro held
      cases killedAfter
      · exact balanced_dockerCalls.append balanced_dockerCalls
      · exact balanced_dockerCalls.append balanced_killAndDrop
    · cases recovers
      · exact balanced_nil
      · exact balanced_dockerCalls

theorem balanced_destroyOld (raised : Bool) (oldContainerId : Option String) :
    Balanced [] (destroyOld raised oldContainerId) := by
  cases oldContainerId with
  | none => exact balanced_nil
  | some containerId =>
    exact (balanced_destroySection fun _ => Lock.fits_nil (by simp)).append
      (balanced_dropUnless raised)

theorem balanced_rerunProgram (full : Bool) (oldContainerId : Option String)
    (newContainerId : String) (script : RerunScript) (cleanUpRaised : Bool) :
    Balanced [] (rerunProgram full oldContainerId newContainerId script cleanUpRaised) := by
  have hforeground : Balanced [] (foregroundSection dockerCalls) :=
    balanced_foreground (Lock.fits_nil (by simp))
  have hrestore : Balanced [] (if full then [] else foregroundSection dockerCalls) := by
    cases full
    · exact hforeground
    · exact balanced_nil
  have hcleanUp : Balanced []
      ((if full then foregroundSection dockerCalls else destroySection newContainerId) ++
        dropUnless cleanUpRaised newContainerId) := by
    refine Balanced.append ?_ (balanced_dropUnless _)
    cases full
    · exact balanced_destroySection fun _ => Lock.fits_nil (by simp)
    · exact hforeground
  cases script with
  | createRaised =>
    refine hforeground.append ?_
    cases full
    · exact balanced_nil
    · exact hforeground
  | restoreRaised => exact (hforeground.append hrestore).append hcleanUp
  | destroyRaised =>
    exact ((hforeground.append hrestore).append (balanced_destroyOld true _)).append hcleanUp
  | updateRaised =>
    exact ((hforeground.append hrestore).append (balanced_destroyOld false _)).append hcleanUp
  | done => exact (hforeground.append hrestore).append (balanced_destroyOld false _)

theorem balanced_maintenanceSection : Balanced [] (maintenanceSection dockerCalls) := by
  refine balanced_within (fun _ => Lock.fits_nil (by simp [Entry.lock])) (fun _ => ?_)
  refine balanced_within ?_ (fun _ => balanced_dockerCalls)
  intro _
  exact ⟨by simp [Entry.lock, Lock.rank, Lock.floor], by simp [Entry.lock]⟩

theorem balanced_evaluateCommand : Balanced [] (evaluateCommand containerId) :=
  Balanced.append (p := [.docker (.evaluate containerId)]) (balanced_docker trivial)
    balanced_dockerCalls

/-- Every request keeps to the order of the locks and leaves all that it enters. -/
theorem Request.ok_program (request : Request) : Ok [] request.program := by
  have hbalanced : Balanced [] request.program := by
    cases request with
    | exec containerId script => exact balanced_execProgram script
    | faultKill containerId => exact balanced_dockerCalls
    | diff containerId => exact balanced_commandSection
    | evaluate containerId applied =>
      refine balanced_evaluateCommand.append ?_
      cases applied
      · exact balanced_nil
      · exact balanced_evaluateCommand
    | destroy containerId raised =>
      exact (balanced_destroySection fun _ => Lock.fits_nil (by simp)).append
        (balanced_dropUnless raised)
    | checkpointCreate containerId script =>
      exact balanced_within (fun _ => Lock.fits_nil (by simp [Entry.lock]))
        (fun _ => balanced_checkpointProgram script)
    | rerun full oldContainerId newContainerId script cleanUpRaised =>
      exact balanced_rerunProgram full oldContainerId newContainerId script cleanUpRaised
    | checkpointDelete => exact balanced_maintenanceSection
    | checkpointGc => exact balanced_maintenanceSection
    | unguarded => exact balanced_dockerCalls
  simpa using hbalanced [] rfl

end Programs

namespace Thread

variable {s s₀ s' : Server} {t t' : Thread} {lock : Lock} {notified : Option Cond}

theorem mem_counters {u : Counter} {h : Lock} (hh : h ∈ t.held) (hu : h.counter? = some u) :
    0 < t.counters.count u := by
  rw [List.count_pos_iff, counters]
  exact List.mem_append_left _ (List.mem_filterMap.mpr ⟨h, hh, hu⟩)

/-- Who has drained the foreground has claimed the maintenance section. -/
theorem claimed_of_drained {held : List Lock} (h : Stacked held) (hd : .drain ∈ held) :
    .maintenance ∈ held := by
  induction held with
  | nil => simp at hd
  | cons a held ih =>
    rcases List.mem_cons.mp hd with ha | hd
    · exact List.mem_cons_of_mem _ (h.1.2 ha.symm)
    · exact List.mem_cons_of_mem _ (ih h.2 hd)

theorem Tries.level_eq (h : t.Tries s lock s₀) {u : Counter} (hu : ∀ gate, u ≠ .waiting gate) :
    s₀.level u = s.level u := by
  have hl := h.level u
  have hp : t.pos.waiting.count u = 0 := by
    cases hpos : t.pos <;> simp [Server.waiting_count_eq_zero hu]
  rw [hp, Server.waiting_count_eq_zero hu] at hl
  exact hl

/-- An entry raises the level of the counter of its lock, a leave lowers it. -/
theorem Moves.level_le (h : t.Moves s s' t' notified)
    (hle : ∀ u, t.counters.count u ≤ s.level u) {u : Counter} (hu : ∀ gate, u ≠ .waiting gate) :
    s'.level u ≤ s.level u ∨
      ∃ lock s₀, t.Tries s lock s₀ ∧ s₀.blocks lock = false ∧ s' = s₀.enter lock ∧
        lock.counter? = some u := by
  cases h with
  | fetches hpos hprogram hentry => simp
  | sleeps htries hblocks hcond => exact .inl (htries.level_eq hu).le
  | enters htries hblocks =>
    rename_i lock s₀
    by_cases hc : lock.counter? = some u
    · exact .inr ⟨lock, s₀, htries, hblocks, rfl, hc⟩
    · left
      have he := Server.level_enter hblocks (htries.waiting_le hle) u
      have hz : lock.counter?.toList.count u = 0 := by
        rw [List.count_eq_zero]
        simpa using hc
      rw [hz, Server.waiting_count_eq_zero hu, htries.level_eq hu] at he
      exact he.le
  | leaves hpos hprogram hheld =>
    left
    rename_i lock held rest
    have hcount : ∀ v, lock.counter?.toList.count v ≤ s.level v := by
      intro v
      have hv := hle v
      rw [count_counters, hheld, count_held_cons] at hv
      omega
    have hb := Server.level_leave hcount u
    omega
  | drops hpos hprogram => simp
  | calls hpos hprogram => simp
  | returns hpos => simp

theorem Moves.commitLimit (h : t.Moves s s' t' notified) : s'.commitLimit = s.commitLimit := by
  cases h with
  | fetches hpos hprogram hentry =>
    unfold Server.getContainerOpGate
    split <;> rfl
  | sleeps htries hblocks hcond => exact htries.commitLimit
  | enters htries hblocks =>
    rw [Server.commitLimit_enter]
    exact htries.commitLimit
  | leaves hpos hprogram hheld => exact Server.commitLimit_leave s _
  | drops hpos hprogram => rfl
  | calls hpos hprogram => rfl
  | returns hpos => rfl

/-- A step opens no wait that it does not notify. -/
theorem Moves.blocks (h : t.Moves s s' t' notified)
    (hle : ∀ u, t.counters.count u ≤ s.level u) {w : Lock} (hw : w.cond.isSome)
    (hb : s.blocks w) : s'.blocks w ∨ notified = w.cond := by
  cases h with
  | fetches hpos hprogram hentry =>
    left
    rw [Server.blocks_iff] at hb ⊢
    simpa [(Moves.fetches hpos hprogram hentry).commitLimit] using hb
  | sleeps htries hblocks hcond => exact .inl (htries.blocks hb)
  | enters htries hblocks =>
    exact .inl (Server.blocks_enter hblocks (htries.waiting_le hle) (htries.blocks hb))
  | leaves hpos hprogram hheld => exact Server.blocks_leave hb hw
  | drops hpos hprogram => exact .inl hb
  | calls hpos hprogram => exact .inl hb
  | returns hpos => exact .inl hb

theorem eq_exec {gate : Nat} (h : lock.counter? = some (.active gate)) :
    ∃ containerId, lock = .exec containerId gate := by
  cases lock <;> simp_all [Lock.counter?]

theorem eq_exclusive {gate : Nat} (h : lock.counter? = some (.exclusive gate)) :
    ∃ containerId, lock = .exclusive containerId gate := by
  cases lock <;> simp_all [Lock.counter?]

/-- A gate that is held exclusively has no active exec section. -/
theorem Moves.exclusive (h : t.Moves s s' t' notified)
    (hle : ∀ u, t.counters.count u ≤ s.level u)
    (hs : ∀ gate, s.level (.exclusive gate) = 0 ∨ s.level (.active gate) = 0) (gate : Nat) :
    s'.level (.exclusive gate) = 0 ∨ s'.level (.active gate) = 0 := by
  rcases h.level_le hle (u := .exclusive gate) (by simp) with hexclusive | hexclusive
  · rcases h.level_le hle (u := .active gate) (by simp) with hactive | hactive
    · have hg := hs gate
      omega
    · left
      obtain ⟨lock, s₀, htries, hblocks, rfl, hc⟩ := hactive
      obtain ⟨containerId, rfl⟩ := eq_exec hc
      have hb := Server.blocks_iff s₀ (.exec containerId gate)
      have hl := htries.level_eq (u := .exclusive gate) (by simp)
      simp only [hblocks, Bool.false_eq_true, false_iff] at hb
      omega
  · right
    obtain ⟨lock, s₀, htries, hblocks, rfl, hc⟩ := hexclusive
    obtain ⟨containerId, rfl⟩ := eq_exclusive hc
    have hb := Server.blocks_iff s₀ (.exclusive containerId gate)
    have he := Server.level_enter hblocks (htries.waiting_le hle) (.active gate)
    simp only [hblocks, Bool.false_eq_true, false_iff] at hb
    simp [Lock.counter?, Lock.waiting] at he
    omega

/-- Who is in a maintenance section after a step was so before, or has just found that
there is no foreground section. -/
theorem Moves.drained (h : t.Moves s s' t' notified) (hd : .drain ∈ t'.held) :
    .drain ∈ t.held ∨ s'.level .foreground = 0 := by
  cases h with
  | fetches hpos hprogram hentry => exact .inl hd
  | sleeps htries hblocks hcond => exact .inl hd
  | enters htries hblocks =>
    rename_i lock s₀
    rcases List.mem_cons.mp hd with hl | hd
    · right
      subst hl
      have hb := Server.blocks_iff s₀ .drain
      simp only [hblocks, Bool.false_eq_true, false_iff] at hb
      exact Nat.eq_zero_of_not_pos hb
    · exact .inl hd
  | leaves hpos hprogram hheld =>
    rw [hheld]
    exact .inl (List.mem_cons_of_mem _ hd)
  | drops hpos hprogram => exact .inl hd
  | calls hpos hprogram => exact .inl hd
  | returns hpos => exact .inl hd

end Thread

namespace Node

variable {n n' : Node}

/-- What the counters of the server stand for, and what follows from it. -/
structure Inv (n : Node) : Prop where
  counted : ∀ u, n.server.level u = tally (fun t => t.counters.count u) n.threads
  exclusive : ∀ gate, n.server.level (.exclusive gate) = 0 ∨ n.server.level (.active gate) = 0
  bounded : n.server.level .commit ≤ n.server.commitLimit
  drained : ∀ t ∈ n.threads, .drain ∈ t.held → n.server.level .foreground = 0
  asleep : ∀ t ∈ n.threads, ∀ lock, t.pos = .parked lock →
    n.server.blocks lock ∧ lock.cond.isSome
  ok : ∀ t ∈ n.threads, t.Ok

theorem init_inv (checkpointMaxInflight : Int) : (init checkpointMaxInflight).Inv := by
  refine ⟨?_, fun _ => .inl rfl, Nat.zero_le _, by simp [init], by simp [init], by simp [init]⟩
  intro u
  cases u <;> rfl

theorem Inv.counters_le (h : n.Inv) {t : Thread} (ht : t ∈ n.threads) (u : Counter) :
    t.counters.count u ≤ n.server.level u := by
  rw [h.counted u]
  exact le_tally (fun t => t.counters.count u) ht

/-- While a request is in a maintenance section, no foreground section is entered. -/
theorem Inv.blocks_foreground (h : n.Inv) {t : Thread} (ht : t ∈ n.threads)
    (hd : .drain ∈ t.held) : n.server.blocks .foreground := by
  rw [Server.blocks_iff]
  have hm := Thread.claimed_of_drained (h.ok t ht).stacked hd
  exact (Thread.mem_counters hm rfl).trans_le (h.counters_le ht .maintenance)

theorem Inv.receive (h : n.Inv) (request : Request) :
    Inv { n with threads := n.threads ++ [Thread.start request.program] } := by
  have hstart : ∀ u, (Thread.start request.program).counters.count u = 0 := fun _ => rfl
  have hcases : ∀ t ∈ n.threads ++ [Thread.start request.program],
      t ∈ n.threads ∨ t = Thread.start request.program := by
    intro t ht
    simpa using ht
  refine ⟨?_, h.exclusive, h.bounded, ?_, ?_, ?_⟩
  · intro u
    rw [tally_append, tally_cons, tally_nil, hstart u]
    exact h.counted u
  · intro t ht hd
    rcases hcases t ht with ht | rfl
    · exact h.drained t ht hd
    · simp [Thread.start] at hd
  · intro t ht lock hp
    rcases hcases t ht with ht | rfl
    · exact h.asleep t ht lock hp
    · simp [Thread.start] at hp
  · intro t ht
    rcases hcases t ht with ht | rfl
    · exact h.ok t ht
    · exact ⟨trivial, request.ok_program, Thread.at_running _ _⟩

/-- No foreground section is entered during a maintenance section. -/
theorem Inv.foreground_le (h : n.Inv) {t t' : Thread} {s' : Server} {notified : Option Cond}
    (ht : t ∈ n.threads) (hm : t.Moves n.server s' t' notified)
    (hb : n.server.blocks .foreground) : s'.level .foreground ≤ n.server.level .foreground := by
  refine (hm.level_le (h.counters_le ht) (by simp)).resolve_right ?_
  intro he
  obtain ⟨lock, s₀, htries, hblocks, -, hc⟩ := he
  have hl : lock = .foreground := by cases lock <;> simp_all [Lock.counter?]
  subst hl
  rw [htries.blocks hb] at hblocks
  cases hblocks

theorem Inv.moves_bounded (h : n.Inv) {t t' : Thread} {s' : Server} {notified : Option Cond}
    (ht : t ∈ n.threads) (hm : t.Moves n.server s' t' notified) :
    s'.level .commit ≤ s'.commitLimit := by
  rw [hm.commitLimit]
  rcases hm.level_le (h.counters_le ht) (u := .commit) (by simp) with hle | he
  · exact hle.trans h.bounded
  · obtain ⟨lock, s₀, htries, hblocks, rfl, hc⟩ := he
    have hl : lock = .commit := by cases lock <;> simp_all [Lock.counter?]
    subst hl
    have hb := Server.blocks_iff s₀ .commit
    have hlimit := htries.commitLimit
    have hlevel : (s₀.enter .commit).level .commit = s₀.level .commit + 1 := rfl
    simp only [hblocks, Bool.false_eq_true, false_iff] at hb
    omega

theorem mem_stepped {i : Nat} {t' : Thread} {notified : Option Cond} {r : Thread}
    (h : r ∈ (n.threads.set i t').map (Thread.wake notified)) :
    ∃ q, r = q.wake notified ∧ (q ∈ n.threads ∨ q = t') := by
  obtain ⟨q, hq, rfl⟩ := List.mem_map.mp h
  exact ⟨q, rfl, List.mem_or_eq_of_mem_set hq⟩

theorem Inv.moves (h : n.Inv) {i : Nat} {t t' : Thread} {s' : Server} {notified : Option Cond}
    (hi : n.threads[i]? = some t) (hm : t.Moves n.server s' t' notified) :
    Inv ⟨s', (n.threads.set i t').map (Thread.wake notified)⟩ := by
  have ht : t ∈ n.threads := List.mem_of_getElem? hi
  have hle := h.counters_le ht
  refine ⟨?_, hm.exclusive hle h.exclusive, h.moves_bounded ht hm, ?_, ?_, ?_⟩
  · intro u
    have hb := hm.balanced hle u
    have hs := tally_set (fun t => t.counters.count u) hi t'
    rw [← h.counted u] at hs
    simp only [tally_map (fun t => t.counters.count u) (g := Thread.wake notified) (by simp)]
    omega
  · intro r hr hd
    obtain ⟨q, rfl, hq⟩ := mem_stepped hr
    rw [Thread.wake_held] at hd
    have hold : ∀ q ∈ n.threads, .drain ∈ q.held → s'.level .foreground = 0 := by
      intro q hq hd
      have hz := h.drained q hq hd
      have hf := h.foreground_le ht hm (h.blocks_foreground hq hd)
      omega
    rcases hq with hq | rfl
    · exact hold q hq hd
    · exact (hm.drained hd).elim (hold t ht) id
  · intro r hr lock hp
    obtain ⟨q, rfl, hq⟩ := mem_stepped hr
    obtain ⟨hparked, hn⟩ := Thread.parked_of_wake hp
    rcases hq with hq | rfl
    · obtain ⟨hb, hc⟩ := h.asleep q hq lock hparked
      refine ⟨(hm.blocks hle hc hb).resolve_right ?_, hc⟩
      intro he
      exact hn (he ▸ hc) he.symm
    · cases hm with
      | sleeps htries hblocks hcond =>
        cases hparked
        exact ⟨hblocks, hcond⟩
      | fetches hpos hprogram hentry => cases hparked
      | enters htries hblocks => cases hparked
      | leaves hpos hprogram hheld => cases hparked
      | drops hpos hprogram => simp [hpos] at hparked
      | calls hpos hprogram => cases hparked
      | returns hpos => cases hparked
  · intro r hr
    obtain ⟨q, rfl, hq⟩ := mem_stepped hr
    rcases hq with hq | rfl
    · exact (h.ok q hq).wake notified
    · exact (hm.ok (h.ok t ht)).wake notified

/-- A step of the node is a request that comes in or a step of one that is there. -/
theorem next_cases {a : NodeAction} (h : n.next a = some n') :
    (∃ request, a = .receive request ∧
      n' = { n with threads := n.threads ++ [Thread.start request.program] }) ∨
    ∃ i t s' t' notified, a = .step i ∧ n.threads[i]? = some t ∧
      t.Moves n.server s' t' notified ∧
      n' = ⟨s', (n.threads.set i t').map (Thread.wake notified)⟩ := by
  cases a with
  | receive request => exact .inl ⟨request, rfl, (Option.some.inj h).symm⟩
  | step i =>
    right
    simp only [next] at h
    split at h
    · cases h
    · rename_i t hi
      split at h
      · cases h
      · rename_i s' t' notified hs
        exact ⟨i, t, s', t', notified, rfl, hi, Thread.moves_of_step hs,
          (Option.some.inj h).symm⟩

theorem Inv.next {a : NodeAction} (h : n.Inv) (hn : n.next a = some n') : n'.Inv := by
  rcases next_cases hn with hr | hs
  · obtain ⟨request, -, rfl⟩ := hr
    exact h.receive request
  · obtain ⟨i, t, s', t', notified, -, hi, hm, rfl⟩ := hs
    exact h.moves hi hm

end Node

/-- A request is blocked when it has no step, or only one that puts it to sleep. -/
def Server.blocked (s : Server) (t : Thread) : Bool :=
  match s.step t with
  | none => true
  | some (_, t', _) => t'.pos.isParked

/-- The lowest rank of a lock with this counter. -/
def Counter.floor : Counter → Nat
  | .commit => 0
  | .foreground => 1
  | .maintenance => 2
  | .exclusive _ => 3
  | .active _ => 4
  | .waiting _ | .worker => 5

theorem Lock.floor_eq {lock : Lock} {u : Counter} (h : lock.counter? = some u) :
    lock.floor = u.floor := by
  cases lock <;> simp [Lock.counter?] at h <;> subst h <;> rfl

namespace Thread

variable {s s₀ s' : Server} {t t' : Thread} {lock : Lock} {notified : Option Cond}

/-- The lock that the request is waiting for, or is about to. -/
def awaits? (t : Thread) : Option Lock :=
  match t.pos with
  | .running =>
    match t.program with
    | .enter entry :: _ => if entry.containerId?.isNone then some (entry.lock 0) else none
    | _ => none
  | _ => t.pos.lock?

def rank (t : Thread) : Nat := (t.awaits?.map Lock.rank).getD 0

theorem blocks_of_wait (h : ∀ s' t' notified, s₀.wait t lock = some (s', t', notified) →
    t'.pos.isParked) : s₀.blocks lock := by
  by_contra hb
  have ht := h (s₀.enter lock) ⟨t.program.tail, lock :: t.held, .running⟩ none
    (by simp [Server.wait, hb])
  cases ht

theorem blocks_of_arrive (h : (s.arrive lock).blocks lock) : s.blocks lock := by
  cases lock with
  | exec containerId gate => simpa [Server.arrive, Server.blocks] using h
  | _ => exact h

/-- Who is blocked waits for a lock, and the condition of that wait holds. -/
theorem awaits_of_blocked (hok : t.Ok) (hp : t.program ≠ [])
    (hasleep : ∀ lock, t.pos = .parked lock → s.blocks lock) (hb : s.blocked t) :
    ∃ lock, t.awaits? = some lock ∧ s.blocks lock := by
  have hstep : ∀ s' t' notified, s.step t = some (s', t', notified) → t'.pos.isParked := by
    intro s' t' notified h
    simpa [Server.blocked, h] using hb
  unfold Server.step at hstep
  cases hpos : t.pos with
  | running =>
    cases hprogram : t.program with
    | nil => exact absurd hprogram hp
    | cons i rest =>
      simp only [hpos, hprogram] at hstep
      have hi := hok.program
      rw [hprogram] at hi
      cases i with
      | enter entry =>
        cases hentry : entry.containerId? with
        | some containerId =>
          simp only [Server.run, hentry] at hstep
          have h := hstep _ _ _ rfl
          cases h
        | none =>
          refine ⟨entry.lock 0, by simp [awaits?, hpos, hprogram, hentry], ?_⟩
          refine blocks_of_wait (t := t) fun s' t' notified h => hstep s' t' notified ?_
          simpa [Server.run, hentry] using h
      | leave =>
        cases hheld : t.held with
        | nil => exact absurd hheld hi.1
        | cons lock held =>
          simp only [Server.run, hheld] at hstep
          have h := hstep _ _ _ rfl
          cases h
      | dropGate containerId =>
        have h := hstep _ _ _ rfl
        simp [hpos, Pos.isParked] at h
      | docker call =>
        have h := hstep _ _ _ rfl
        cases h
  | calling =>
    simp only [hpos] at hstep
    have h := hstep _ _ _ rfl
    cases h
  | fetched lock =>
    simp only [hpos] at hstep
    exact ⟨lock, by simp [awaits?, hpos, Pos.lock?], blocks_of_arrive (blocks_of_wait hstep)⟩
  | parked lock => exact ⟨lock, by simp [awaits?, hpos, Pos.lock?], hasleep lock hpos⟩
  | woken lock =>
    simp only [hpos] at hstep
    exact ⟨lock, by simp [awaits?, hpos, Pos.lock?], blocks_of_wait hstep⟩

theorem awaits_entry (hok : t.Ok) (h : t.awaits? = some lock) :
    ∃ entry gate rest, t.program = .enter entry :: rest ∧ lock = entry.lock gate := by
  cases hpos : t.pos with
  | running =>
    cases hprogram : t.program with
    | nil => simp [awaits?, hpos, hprogram] at h
    | cons i rest =>
      cases i <;> simp [awaits?, hpos, hprogram] at h
      exact ⟨_, _, _, rfl, h.2.symm⟩
  | calling => simp [awaits?, hpos, Pos.lock?] at h
  | fetched l => exact hok.at_.1 lock (by simpa [awaits?, hpos] using h)
  | parked l => exact hok.at_.1 lock (by simpa [awaits?, hpos] using h)
  | woken l => exact hok.at_.1 lock (by simpa [awaits?, hpos] using h)

theorem awaits_fits (hok : t.Ok) (h : t.awaits? = some lock) : lock.Fits t.held := by
  obtain ⟨entry, gate, rest, hprogram, rfl⟩ := awaits_entry hok h
  have hi := hok.program
  rw [hprogram] at hi
  exact (hi gate).1

/-- Who holds a lock goes on, or waits for a lock of a rank below its floor. -/
theorem rank_lt_floor (hok : t.Ok) {h : Lock} (hh : h ∈ t.held) (ha : t.awaits? = some lock) :
    t.rank < h.floor := by
  simpa [rank, ha] using (awaits_fits hok ha).1 h hh

theorem program_ne_nil_of_held (hok : t.Ok) {h : Lock} (hh : h ∈ t.held) : t.program ≠ [] := by
  intro hp
  have hi := hok.program
  rw [hp] at hi
  rw [show t.held = [] from hi] at hh
  simp at hh

end Thread

namespace Node

variable {n : Node} {lock : Lock}

theorem Inv.holder (h : n.Inv) {u : Counter} (hu : ∀ gate, u ≠ .waiting gate)
    (hl : 0 < n.server.level u) : ∃ t ∈ n.threads, ∃ l ∈ t.held, l.counter? = some u := by
  rw [h.counted u] at hl
  obtain ⟨t, ht, hc⟩ := exists_of_tally_pos hl
  have hz : t.pos.waiting.count u = 0 := by
    cases hpos : t.pos <;> simp [Server.waiting_count_eq_zero hu]
  rw [Thread.count_counters, hz, Nat.add_zero, List.count_pos_iff] at hc
  obtain ⟨l, hm, hs⟩ := List.mem_filterMap.mp hc
  exact ⟨t, ht, l, hm, hs⟩

theorem Inv.waiter (h : n.Inv) {gate : Nat} (hl : 0 < n.server.level (.waiting gate)) :
    ∃ t ∈ n.threads, ∃ containerId, t.awaits? = some (.exec containerId gate) := by
  rw [h.counted] at hl
  obtain ⟨t, ht, hc⟩ := exists_of_tally_pos hl
  refine ⟨t, ht, ?_⟩
  have hz : (t.held.filterMap Lock.counter?).count (.waiting gate) = 0 := by
    rw [List.count_eq_zero]
    intro hm
    obtain ⟨l, -, hs⟩ := List.mem_filterMap.mp hm
    cases l <;> simp [Lock.counter?] at hs
  rw [Thread.count_counters, hz, Nat.zero_add, List.count_pos_iff] at hc
  cases hpos : t.pos with
  | parked l =>
    rw [hpos, Pos.waiting_parked] at hc
    cases l <;> simp [Lock.waiting] at hc
    exact ⟨_, by simp [Thread.awaits?, hpos, Pos.lock?, hc]; rfl⟩
  | woken l =>
    rw [hpos, Pos.waiting_woken] at hc
    cases l <;> simp [Lock.waiting] at hc
    exact ⟨_, by simp [Thread.awaits?, hpos, Pos.lock?, hc]; rfl⟩
  | _ => simp [hpos] at hc

theorem commitLimit_pos (s : Server) : 0 < s.commitLimit := by
  simp only [Server.commitLimit]
  omega

/-- Behind every wait there is a request that goes on or waits for a lower rank. -/
theorem Inv.waits_for (h : n.Inv) (hb : n.server.blocks lock) :
    ∃ t ∈ n.threads, t.program ≠ [] ∧ ∀ l, t.awaits? = some l → t.rank < lock.rank := by
  have hholder : ∀ u : Counter, (∀ gate, u ≠ .waiting gate) → u.floor ≤ lock.rank →
      0 < n.server.level u →
      ∃ t ∈ n.threads, t.program ≠ [] ∧ ∀ l, t.awaits? = some l → t.rank < lock.rank := by
    intro u hu hf hl
    obtain ⟨t, ht, l, hm, hc⟩ := h.holder hu hl
    refine ⟨t, ht, Thread.program_ne_nil_of_held (h.ok t ht) hm, ?_⟩
    intro l' ha
    have hlt := Thread.rank_lt_floor (h.ok t ht) hm ha
    rw [Lock.floor_eq hc] at hlt
    omega
  have hlimit := commitLimit_pos n.server
  rw [Server.blocks_iff] at hb
  cases lock with
  | exec containerId gate =>
    exact hholder (.exclusive gate) (by simp) (by simp [Counter.floor, Lock.rank]) hb
  | exclusive containerId gate =>
    simp only at hb
    by_cases hx : 0 < n.server.level (.exclusive gate)
    · exact hholder (.exclusive gate) (by simp) (by simp [Counter.floor, Lock.rank]) hx
    by_cases ha : 0 < n.server.level (.active gate)
    · exact hholder (.active gate) (by simp) (by simp [Counter.floor, Lock.rank]) ha
    have hw : 0 < n.server.level (.waiting gate) := by omega
    obtain ⟨t, ht, containerId, he⟩ := h.waiter hw
    refine ⟨t, ht, ?_, fun l hl => by simp [Thread.rank, he, Lock.rank]⟩
    obtain ⟨entry, g, rest, hp, -⟩ := Thread.awaits_entry (h.ok t ht) he
    simp [hp]
  | foreground => exact hholder .maintenance (by simp) (by decide) hb
  | maintenance => exact hholder .maintenance (by simp) (by decide) hb
  | commit => exact hholder .commit (by simp) (by decide) (hlimit.trans_le hb)
  | drain => exact hholder .foreground (by simp) (by decide) hb
  | worker => exact hholder .worker (by simp) (by decide) (hlimit.trans_le hb)

/-- Some request is not finished, and none of these can get on. -/
def Deadlocked (n : Node) : Prop :=
  (∃ t ∈ n.threads, t.program ≠ []) ∧
    ∀ t ∈ n.threads, t.program ≠ [] → n.server.blocked t

/-- A request in its maintenance section and one in a foreground section. -/
def MaintenanceOverlap (n : Node) : Prop :=
  ∃ t ∈ n.threads, ∃ t' ∈ n.threads, .drain ∈ t.held ∧ .foreground ∈ t'.held

def commitSections (n : Node) : Nat := tally (fun t => t.held.count .commit) n.threads

def foregroundSections (n : Node) : Nat := tally (fun t => t.held.count .foreground) n.threads

theorem Inv.not_deadlocked (h : n.Inv) : ¬n.Deadlocked := by
  intro hd
  obtain ⟨⟨t, ht, hp⟩, hall⟩ := hd
  have hwait : ∀ p, (p ∈ n.threads ∧ p.program ≠ []) → n.server.blocked p →
      ∃ q, (q ∈ n.threads ∧ q.program ≠ []) ∧ (n.server.blocked q → q.rank < p.rank) := by
    intro p hp hb
    obtain ⟨lock, ha, hl⟩ := Thread.awaits_of_blocked (h.ok p hp.1) hp.2
      (fun lock hlock => (h.asleep p hp.1 lock hlock).1) hb
    obtain ⟨q, hq, hne, hlt⟩ := h.waits_for hl
    refine ⟨q, ⟨hq, hne⟩, fun hbq => ?_⟩
    obtain ⟨l, hal, -⟩ := Thread.awaits_of_blocked (h.ok q hq) hne
      (fun lock hlock => (h.asleep q hq lock hlock).1) hbq
    simpa [Thread.rank, ha] using hlt l hal
  obtain ⟨q, hq, hb⟩ := exists_unblocked hwait ⟨ht, hp⟩
  exact hb (hall q hq.1 hq.2)

theorem Inv.not_maintenanceOverlap (h : n.Inv) : ¬n.MaintenanceOverlap := by
  intro ho
  obtain ⟨t, ht, t', ht', hd, hf⟩ := ho
  have hpos := (Thread.mem_counters hf rfl).trans_le (h.counters_le ht' .foreground)
  have hz := h.drained t ht hd
  omega

theorem count_commit_le (t : Thread) : t.held.count .commit ≤ t.counters.count .commit := by
  rw [Thread.count_counters]
  refine Nat.le_add_right_of_le ?_
  generalize t.held = held
  induction held with
  | nil => simp
  | cons l held ih =>
    rw [Thread.count_held_cons, List.count_cons]
    by_cases hl : l = .commit
    · subst hl
      simp [Lock.counter?]
      omega
    · simp [hl]
      omega

theorem Inv.commitSections_le (h : n.Inv) : n.commitSections ≤ n.server.commitLimit := by
  refine le_trans ?_ h.bounded
  rw [h.counted]
  exact tally_mono count_commit_le n.threads

theorem commitLimit_init (checkpointMaxInflight : Int) {run : List NodeAction}
    (h : exec next (init checkpointMaxInflight) run = some n) :
    n.server.commitLimit = (max 1 checkpointMaxInflight).toNat := by
  refine exec_invariant (I := fun n => n.server.commitLimit = (max 1 checkpointMaxInflight).toNat)
    ?_ rfl h
  intro s a s' hs hn
  rcases next_cases hn with hr | hm
  · obtain ⟨request, -, rfl⟩ := hr
    exact hs
  · obtain ⟨i, t, s₁, t', notified, -, -, hm, rfl⟩ := hm
    exact hm.commitLimit.trans hs

/-- The lock discipline over all requests and their interleavings: a maintenance
section overlaps no foreground section, commit sections keep to their bound, and the
node never comes to a stop. -/
theorem lock_discipline (checkpointMaxInflight : Int) (run : List NodeAction) (n : Node)
    (h : exec next (init checkpointMaxInflight) run = some n) :
    ¬n.MaintenanceOverlap ∧ (n.commitSections : Int) ≤ max 1 checkpointMaxInflight ∧
      ¬n.Deadlocked := by
  have hinv : n.Inv :=
    exec_invariant (fun _ _ _ hs hn => hs.next hn) (init_inv checkpointMaxInflight) h
  refine ⟨hinv.not_maintenanceOverlap, ?_, hinv.not_deadlocked⟩
  have hc := hinv.commitSections_le
  rw [commitLimit_init checkpointMaxInflight h] at hc
  omega

/-- The create step of a rerun, which opens a foreground section. -/
def rerunRequest : Request := .rerun false none "new" .createRaised false

/-- One more request in a foreground section. -/
theorem foregroundSections_succ (h : n.server.maintenanceActive = false) :
    ∃ n', exec next n [.receive rerunRequest, .step n.threads.length] = some n' ∧
      n'.server.maintenanceActive = false ∧ n'.foregroundSections = n.foregroundSections + 1 := by
  let t : Thread := ⟨rerunRequest.program.tail, [.foreground], .running⟩
  refine ⟨⟨n.server.enter .foreground, (n.threads ++ [t]).map (Thread.wake none)⟩, ?_, h, ?_⟩
  · have hstep : n.server.step (Thread.start rerunRequest.program) =
        some (n.server.enter .foreground, t, none) := by
      simp only [Server.step, Thread.start, rerunRequest, Request.program, rerunProgram,
        foregroundSection, within, List.cons_append, Server.run, Entry.containerId?,
        Server.wait, Entry.lock, Server.blocks, h]
      rfl
    simp [exec, next, hstep]
  · simp [foregroundSections, tally_map, t]

theorem exists_foregroundSections (h : n.server.maintenanceActive = false) (k : Nat) :
    ∃ run n', exec next n run = some n' ∧ n'.foregroundSections = n.foregroundSections + k := by
  induction k generalizing n with
  | zero => exact ⟨[], n, rfl, rfl⟩
  | succ k ih =>
    obtain ⟨n₁, hrun, hm, hf⟩ := foregroundSections_succ h
    obtain ⟨run, n', hn, hk⟩ := ih hm
    refine ⟨[.receive rerunRequest, .step n.threads.length] ++ run, n', ?_, by omega⟩
    obtain ⟨s, hs, hrest⟩ := exec_cons_eq_some hrun
    obtain ⟨s', hs', hlast⟩ := exec_cons_eq_some hrest
    cases hlast
    rw [List.cons_append, exec_cons_some hs, List.cons_append, exec_cons_some hs']
    exact hn

/-- Whatever the configuration, no number bounds the foreground sections. -/
theorem foregroundSections_unbounded :
    ¬∃ (checkpointMaxInflight : Int) (bound : Nat), ∀ run n,
      exec next (init checkpointMaxInflight) run = some n → n.foregroundSections ≤ bound := by
  intro h
  obtain ⟨checkpointMaxInflight, bound, hbound⟩ := h
  obtain ⟨run, n, hn, hk⟩ :=
    exists_foregroundSections (n := init checkpointMaxInflight) rfl (bound + 1)
  have hle := hbound run n hn
  omega

/-- A garbage collection waits for the foreground section of a diff. -/
def collectingRun : List NodeAction :=
  [.receive (.diff "c"), .receive .checkpointGc, .step 0, .step 0, .step 0, .step 1, .step 1]

theorem lock_discipline_collectingRun :
    ∃ n, exec next (init 1) collectingRun = some n ∧ ¬n.MaintenanceOverlap ∧
      (n.commitSections : Int) ≤ max 1 1 ∧ ¬n.Deadlocked :=
  ⟨_, rfl, lock_discipline 1 collectingRun _ rfl⟩

end Node

end Belayer.Exec
