import Belayer.Exec.Requests
import Belayer.Framework.Waiting

namespace Belayer.Exec

open Belayer.Framework

/-- What the server counts. -/
inductive Counter where
  | active (gate : Nat)
  | waiting (gate : Nat)
  | exclusive (gate : Nat)
  | foreground
  | commit
  | maintenance
  | worker
  deriving DecidableEq

namespace Lock

/-- The counter that stands for the lock while it is held. -/
def counter? : Lock → Option Counter
  | .exec _ gate => some (.active gate)
  | .exclusive _ gate => some (.exclusive gate)
  | .foreground => some .foreground
  | .commit => some .commit
  | .maintenance => some .maintenance
  | .drain => none
  | .worker => some .worker

/-- What is counted while the request waits for the lock. -/
def waiting : Lock → List Counter
  | .exec _ gate => [.waiting gate]
  | _ => []

/-- The order in which locks may be waited for, from the innermost outwards. -/
def rank : Lock → Nat
  | .commit => 0
  | .drain => 1
  | .foreground | .maintenance => 2
  | .exec _ _ => 3
  | .exclusive _ _ => 4
  | .worker => 5

/-- The lowest rank of a wait that the lock can hold up. -/
def floor : Lock → Nat
  | .commit => 0
  | .foreground => 1
  | .maintenance | .drain => 2
  | .exclusive _ _ => 3
  | .exec _ _ => 4
  | .worker => 5

/-- A lock may be entered under `held` when its wait is held up by none of these. -/
def Fits (held : List Lock) (lock : Lock) : Prop :=
  (∀ h ∈ held, lock.rank < h.floor) ∧ (lock = .drain → .maintenance ∈ held)

end Lock

namespace Server

def level (s : Server) : Counter → Nat
  | .active gate => (s.gates gate).activeExecs
  | .waiting gate => (s.gates gate).waitingExecs
  | .exclusive gate => (s.gates gate).exclusiveActive.toNat
  | .foreground => s.foregroundDockerOps
  | .commit => s.activeCommitOps
  | .maintenance => s.maintenanceActive.toNat
  | .worker => s.busyWorkers

end Server

def Pos.waiting : Pos → List Counter
  | .parked lock | .woken lock => lock.waiting
  | _ => []

@[simp] theorem Pos.waiting_running : Pos.running.waiting = [] := rfl

@[simp] theorem Pos.waiting_calling : Pos.calling.waiting = [] := rfl

@[simp] theorem Pos.waiting_fetched (lock : Lock) : (Pos.fetched lock).waiting = [] := rfl

@[simp] theorem Pos.waiting_parked (lock : Lock) : (Pos.parked lock).waiting = lock.waiting := rfl

@[simp] theorem Pos.waiting_woken (lock : Lock) : (Pos.woken lock).waiting = lock.waiting := rfl

/-- A command is run in the exec section of its container. -/
def Call.Fits (held : List Lock) : Call → Prop
  | .command containerId => ∃ gate, Lock.exec containerId gate ∈ held
  | .evaluate _ | .other => True

/-- Every lock of the stack was entered in the order of the ranks. -/
def Stacked : List Lock → Prop
  | [] => True
  | lock :: held => lock.Fits held ∧ Stacked held

/-- A program that, under `held`, enters in the order of the ranks and leaves all. -/
def Ok : List Lock → List Instr → Prop
  | held, [] => held = []
  | held, .enter entry :: rest =>
    ∀ gate, (entry.lock gate).Fits held ∧ Ok (entry.lock gate :: held) rest
  | held, .leave :: rest => held ≠ [] ∧ Ok held.tail rest
  | held, .dropGate _ :: rest => Ok held rest
  | held, .docker call :: rest => call.Fits held ∧ Ok held rest

namespace Thread

def counters (t : Thread) : List Counter := t.held.filterMap Lock.counter? ++ t.pos.waiting

/-- The instruction in which the request stands. -/
def At (t : Thread) : Prop :=
  (∀ lock, t.pos.lock? = some lock →
    ∃ entry gate rest, t.program = .enter entry :: rest ∧ lock = entry.lock gate) ∧
  (t.pos = .calling → ∃ call rest, t.program = .docker call :: rest)

structure Ok (t : Thread) : Prop where
  stacked : Stacked t.held
  program : Exec.Ok t.held t.program
  at_ : t.At

/-- `t` tries to enter `lock`, with `s₀` as the server once it has arrived. -/
inductive Tries (s : Server) (t : Thread) : Lock → Server → Prop where
  | fetched {lock : Lock} (hpos : t.pos = .fetched lock) : Tries s t lock (s.arrive lock)
  | woken {lock : Lock} (hpos : t.pos = .woken lock) : Tries s t lock s
  | running {entry : Entry} {rest : List Instr} (hpos : t.pos = .running)
      (hprogram : t.program = .enter entry :: rest) (hentry : entry.containerId? = none) :
      Tries s t (entry.lock 0) s

/-- What a step can do. -/
inductive Moves (s : Server) (t : Thread) : Server → Thread → Option Cond → Prop where
  | fetches {entry : Entry} {rest : List Instr} {containerId : String}
      (hpos : t.pos = .running) (hprogram : t.program = .enter entry :: rest)
      (hentry : entry.containerId? = some containerId) :
      Moves s t (s.getContainerOpGate containerId).2
        { t with pos := .fetched (entry.lock (s.getContainerOpGate containerId).1) } none
  | sleeps {lock : Lock} {s₀ : Server} (htries : t.Tries s lock s₀) (hblocks : s₀.blocks lock)
      (hcond : lock.cond.isSome) : Moves s t s₀ { t with pos := .parked lock } none
  | enters {lock : Lock} {s₀ : Server} (htries : t.Tries s lock s₀)
      (hblocks : s₀.blocks lock = false) :
      Moves s t (s₀.enter lock) ⟨t.program.tail, lock :: t.held, .running⟩ none
  | leaves {lock : Lock} {held : List Lock} {rest : List Instr} (hpos : t.pos = .running)
      (hprogram : t.program = .leave :: rest) (hheld : t.held = lock :: held) :
      Moves s t (s.leave lock).1 ⟨rest, held, .running⟩ (s.leave lock).2
  | drops {containerId : String} {rest : List Instr} (hpos : t.pos = .running)
      (hprogram : t.program = .dropGate containerId :: rest) :
      Moves s t (s.dropContainerOpGate containerId) { t with program := rest } none
  | calls {call : Call} {rest : List Instr} (hpos : t.pos = .running)
      (hprogram : t.program = .docker call :: rest) :
      Moves s t s { t with pos := .calling } none
  | returns (hpos : t.pos = .calling) :
      Moves s t s ⟨t.program.tail, t.held, .running⟩ none

variable {s s₀ s' : Server} {t t' : Thread} {lock : Lock} {notified : Option Cond}

theorem moves_of_wait (htries : t.Tries s lock s₀)
    (h : s₀.wait t lock = some (s', t', notified)) : t.Moves s s' t' notified := by
  simp only [Server.wait] at h
  split_ifs at h with hb hc
  · cases h
    exact .sleeps htries hb hc
  · cases h
    exact .enters htries (by simpa using hb)

theorem moves_of_step (h : s.step t = some (s', t', notified)) : t.Moves s s' t' notified := by
  unfold Server.step at h
  split at h
  · rename_i hpos
    split at h
    · cases h
    · rename_i i rest hprogram
      cases i with
      | enter entry =>
        simp only [Server.run] at h
        split at h
        · rename_i containerId hentry
          cases h
          exact .fetches hpos hprogram hentry
        · rename_i hentry
          exact moves_of_wait (.running hpos hprogram hentry) h
      | leave =>
        simp only [Server.run] at h
        split at h
        · cases h
        · rename_i lock held hheld
          cases h
          exact .leaves hpos hprogram hheld
      | dropGate containerId =>
        cases h
        exact .drops hpos hprogram
      | docker call =>
        cases h
        exact .calls hpos hprogram
  · rename_i hpos
    cases h
    exact .returns hpos
  · rename_i lock hpos
    exact moves_of_wait (.fetched hpos) h
  · cases h
  · rename_i lock hpos
    exact moves_of_wait (.woken hpos) h

end Thread

namespace Server

variable {s : Server} {lock w : Lock}

@[simp] theorem setGate_gates (s : Server) (gate g : Nat) (f : Gate → Gate) :
    (s.setGate gate f).gates g = if g = gate then f (s.gates gate) else s.gates g := by
  by_cases h : g = gate
  · subst h; simp [setGate]
  · simp [setGate, h]

@[simp] theorem getContainerOpGate_level (s : Server) (containerId : String) :
    (s.getContainerOpGate containerId).2.level = s.level := by
  unfold getContainerOpGate
  split <;> rfl

@[simp] theorem dropContainerOpGate_level (s : Server) (containerId : String) :
    (s.dropContainerOpGate containerId).level = s.level := rfl

theorem level_setGate (s : Server) (gate : Nat) (f : Gate → Gate) (u : Counter)
    (h : u ≠ .active gate ∧ u ≠ .waiting gate ∧ u ≠ .exclusive gate) :
    (s.setGate gate f).level u = s.level u := by
  cases u <;> simp_all [level, setGate]

theorem level_arrive (s : Server) (lock : Lock) (u : Counter) :
    (s.arrive lock).level u = s.level u + lock.waiting.count u := by
  cases lock with
  | exec containerId gate =>
    by_cases h : u ≠ .active gate ∧ u ≠ .waiting gate ∧ u ≠ .exclusive gate
    · simp [arrive, level_setGate, h, Lock.waiting, h.2.1.symm]
    · rcases (by tauto : u = .active gate ∨ u = .waiting gate ∨ u = .exclusive gate) with
        rfl | rfl | rfl <;> simp [arrive, level, Lock.waiting]
  | _ => simp [arrive, Lock.waiting]

theorem level_enter (h : s.blocks lock = false)
    (hw : ∀ u, lock.waiting.count u ≤ s.level u) (u : Counter) :
    (s.enter lock).level u + lock.waiting.count u =
      s.level u + lock.counter?.toList.count u := by
  cases lock with
  | exec containerId gate =>
    have hpos := hw (.waiting gate)
    simp only [Lock.waiting, List.count_singleton_self, level] at hpos
    by_cases hu : u ≠ .active gate ∧ u ≠ .waiting gate ∧ u ≠ .exclusive gate
    · simp [enter, level_setGate, hu, Lock.waiting, Lock.counter?,
        hu.1.symm, hu.2.1.symm]
    · rcases (by tauto : u = .active gate ∨ u = .waiting gate ∨ u = .exclusive gate) with
        rfl | rfl | rfl
      · simp [enter, level, Lock.waiting, Lock.counter?]
      · simp [enter, level, Lock.waiting, Lock.counter?]
        omega
      · simp [enter, level, Lock.waiting, Lock.counter?]
  | exclusive containerId gate =>
    have hf : (s.gates gate).exclusiveActive = false := by
      simp [blocks] at h
      exact h.1.1
    by_cases hu : u ≠ .active gate ∧ u ≠ .waiting gate ∧ u ≠ .exclusive gate
    · simp [enter, level_setGate, hu, Lock.waiting, Lock.counter?,
        hu.2.2.symm]
    · rcases (by tauto : u = .active gate ∨ u = .waiting gate ∨ u = .exclusive gate) with
        rfl | rfl | rfl <;> simp [enter, level, Lock.waiting, Lock.counter?, hf]
  | maintenance =>
    have hf : s.maintenanceActive = false := h
    cases u <;> simp [enter, level, Lock.waiting, Lock.counter?, hf]
  | _ => cases u <;> simp [enter, level, Lock.waiting, Lock.counter?]

theorem level_leave (hl : ∀ u, lock.counter?.toList.count u ≤ s.level u) (u : Counter) :
    (s.leave lock).1.level u + lock.counter?.toList.count u = s.level u := by
  cases lock with
  | exec containerId gate =>
    have hpos := hl (.active gate)
    simp [Lock.counter?, level] at hpos
    by_cases hu : u ≠ .active gate ∧ u ≠ .waiting gate ∧ u ≠ .exclusive gate
    · simp [leave, level_setGate, hu, Lock.counter?, hu.1.symm]
    · rcases (by tauto : u = .active gate ∨ u = .waiting gate ∨ u = .exclusive gate) with
        rfl | rfl | rfl
      · simp [leave, level, Lock.counter?]
        omega
      · simp [leave, level, Lock.counter?]
      · simp [leave, level, Lock.counter?]
  | exclusive containerId gate =>
    have hpos := hl (.exclusive gate)
    have ht : (s.gates gate).exclusiveActive = true := by
      simpa [Lock.counter?, level, Nat.one_le_iff_ne_zero] using hpos
    by_cases hu : u ≠ .active gate ∧ u ≠ .waiting gate ∧ u ≠ .exclusive gate
    · simp [leave, level_setGate, hu, Lock.counter?, hu.2.2.symm]
    · rcases (by tauto : u = .active gate ∨ u = .waiting gate ∨ u = .exclusive gate) with
        rfl | rfl | rfl <;> simp [leave, level, Lock.counter?, ht]
  | maintenance =>
    have hpos := hl .maintenance
    have ht : s.maintenanceActive = true := by
      simpa [Lock.counter?, level, Nat.one_le_iff_ne_zero] using hpos
    cases u <;> simp [leave, level, Lock.counter?, ht]
  | drain => simp [leave, Lock.counter?]
  | foreground =>
    have hpos := hl .foreground
    simp [Lock.counter?, level] at hpos
    cases u <;> simp [leave, level, Lock.counter?]
    omega
  | commit =>
    have hpos := hl .commit
    simp [Lock.counter?, level] at hpos
    cases u <;> simp [leave, level, Lock.counter?]
    omega
  | worker =>
    have hpos := hl .worker
    simp [Lock.counter?, level] at hpos
    cases u <;> simp [leave, level, Lock.counter?]
    omega

theorem waiting_count_eq_zero {u : Counter} (h : ∀ gate, u ≠ .waiting gate) :
    lock.waiting.count u = 0 := by
  cases lock <;> simp [Lock.waiting, Ne.symm (h _)]

/-- Whoever gets past the wait for an exec section counts as an active one. -/
theorem waiting_count_le (lock : Lock) (gate : Nat) :
    lock.waiting.count (.waiting gate) ≤ lock.counter?.toList.count (.active gate) := by
  cases lock <;> simp [Lock.waiting, Lock.counter?, List.count_singleton]

theorem blocks_iff (s : Server) (w : Lock) :
    s.blocks w ↔
      match w with
      | .exec _ gate => 0 < s.level (.exclusive gate)
      | .exclusive _ gate =>
        0 < s.level (.exclusive gate) + s.level (.active gate) + s.level (.waiting gate)
      | .foreground | .maintenance => 0 < s.level .maintenance
      | .commit => s.commitLimit ≤ s.level .commit
      | .drain => 0 < s.level .foreground
      | .worker => s.commitLimit ≤ s.level .worker := by
  cases w with
  | exclusive containerId gate =>
    cases h : (s.gates gate).exclusiveActive <;> simp [blocks, level, h]
  | _ => simp [blocks, level, Nat.pos_iff_ne_zero]

@[simp] theorem commitLimit_arrive (s : Server) (lock : Lock) :
    (s.arrive lock).commitLimit = s.commitLimit := by
  cases lock <;> rfl

@[simp] theorem commitLimit_enter (s : Server) (lock : Lock) :
    (s.enter lock).commitLimit = s.commitLimit := by
  cases lock <;> rfl

@[simp] theorem commitLimit_leave (s : Server) (lock : Lock) :
    (s.leave lock).1.commitLimit = s.commitLimit := by
  cases lock <;> rfl

/-- Levels that do not fall open no wait. The number of requests at a gate counts for
an exclusive section. -/
theorem blocks_mono {s' : Server} (hlimit : s'.commitLimit = s.commitLimit)
    (hlevel : ∀ u, (∀ gate, u ≠ .waiting gate) → s.level u ≤ s'.level u)
    (hgate : ∀ gate, s.level (.active gate) + s.level (.waiting gate) ≤
      s'.level (.active gate) + s'.level (.waiting gate))
    (h : s.blocks w) : s'.blocks w := by
  rw [blocks_iff] at h ⊢
  cases w with
  | exec containerId gate => exact h.trans_le (hlevel _ (by simp))
  | exclusive containerId gate =>
    have he := hlevel (.exclusive gate) (by simp)
    have hg := hgate gate
    simp only at h ⊢
    omega
  | foreground => exact h.trans_le (hlevel _ (by simp))
  | maintenance => exact h.trans_le (hlevel _ (by simp))
  | commit => exact hlimit ▸ h.trans (hlevel _ (by simp))
  | drain => exact h.trans_le (hlevel _ (by simp))
  | worker => exact hlimit ▸ h.trans (hlevel _ (by simp))

theorem blocks_arrive (h : s.blocks w) : (s.arrive lock).blocks w := by
  refine blocks_mono (commitLimit_arrive s lock) (fun u _ => ?_) (fun gate => ?_) h
  · rw [level_arrive]
    omega
  · rw [level_arrive, level_arrive]
    omega

theorem blocks_enter (hb : s.blocks lock = false)
    (hw : ∀ u, lock.waiting.count u ≤ s.level u) (h : s.blocks w) : (s.enter lock).blocks w := by
  have hlevel := level_enter hb hw
  refine blocks_mono (commitLimit_enter s lock) (fun u hu => ?_) (fun gate => ?_) h
  · have hu' := hlevel u
    rw [waiting_count_eq_zero hu] at hu'
    omega
  · have ha := hlevel (.active gate)
    have hg := hlevel (.waiting gate)
    have hle := waiting_count_le lock gate
    rw [waiting_count_eq_zero (u := .active gate) (by simp)] at ha
    omega

/-- A wait that is opened by leaving a section is notified. -/
theorem blocks_leave (h : s.blocks w) (hw : w.cond.isSome) :
    (s.leave lock).1.blocks w ∨ (s.leave lock).2 = w.cond := by
  rw [blocks_iff] at h ⊢
  cases lock with
  | exec containerId gate =>
    by_cases hg : w.cond = some (.gate gate)
    · by_cases hz : (s.gates gate).activeExecs - 1 = 0
      · simp [leave, hz, hg]
      · left
        cases w <;> simp_all [Lock.cond, leave, level]
        omega
    · left
      cases w <;> simp_all [Lock.cond, leave, level, setGate, commitLimit]
  | exclusive containerId gate =>
    by_cases hg : w.cond = some (.gate gate)
    · simp [leave, hg]
    · left
      cases w <;> simp_all [Lock.cond, leave, level, setGate, commitLimit]
  | foreground =>
    by_cases hz : s.foregroundDockerOps - 1 = 0
    · cases w <;> simp_all [Lock.cond, leave, level, commitLimit]
    · left
      cases w <;> simp_all [Lock.cond, leave, level, commitLimit]
      omega
  | commit => cases w <;> simp_all [Lock.cond, leave, level]
  | maintenance => cases w <;> simp_all [Lock.cond, leave, level, commitLimit]
  | drain => exact .inl h
  | worker =>
    left
    cases w <;> simp_all [Lock.cond, leave, level, commitLimit]

end Server

namespace Thread

variable {s s₀ s' : Server} {t t' : Thread} {lock : Lock} {notified : Option Cond}

@[simp] theorem count_counters (t : Thread) (u : Counter) :
    t.counters.count u = (t.held.filterMap Lock.counter?).count u + t.pos.waiting.count u := by
  simp [counters]

theorem count_held_cons (lock : Lock) (held : List Lock) (u : Counter) :
    ((lock :: held).filterMap Lock.counter?).count u =
      lock.counter?.toList.count u + (held.filterMap Lock.counter?).count u := by
  cases h : lock.counter? <;> simp [h, List.count_cons, Nat.add_comm]

theorem Tries.level (h : t.Tries s lock s₀) (u : Counter) :
    s₀.level u + t.pos.waiting.count u = s.level u + lock.waiting.count u := by
  cases h with
  | fetched hpos => simp [Server.level_arrive, hpos]
  | woken hpos => simp [hpos]
  | running hpos hprogram hentry =>
    rename_i entry rest
    cases entry <;> simp_all [Entry.containerId?, Entry.lock, Lock.waiting]

theorem Tries.commitLimit (h : t.Tries s lock s₀) : s₀.commitLimit = s.commitLimit := by
  cases h with
  | fetched hpos => exact Server.commitLimit_arrive s lock
  | woken hpos => rfl
  | running hpos hprogram hentry => rfl

theorem Tries.blocks (h : t.Tries s lock s₀) {w : Lock} (hw : s.blocks w) : s₀.blocks w := by
  cases h with
  | fetched hpos => exact Server.blocks_arrive hw
  | woken hpos => exact hw
  | running hpos hprogram hentry => exact hw

/-- What the request counts in the server it has arrived at. -/
theorem Tries.waiting_le (h : t.Tries s lock s₀) (hle : ∀ u, t.counters.count u ≤ s.level u)
    (u : Counter) : lock.waiting.count u ≤ s₀.level u := by
  have hu := h.level u
  have ht := hle u
  rw [count_counters] at ht
  omega

/-- The counters of the server change by what the request comes to count for. -/
theorem Moves.balanced (h : t.Moves s s' t' notified)
    (hle : ∀ u, t.counters.count u ≤ s.level u) (u : Counter) :
    s'.level u + t.counters.count u = s.level u + t'.counters.count u := by
  cases h with
  | fetches hpos hprogram hentry => simp [hpos]
  | sleeps htries hblocks hcond =>
    have hu := htries.level u
    simp only [count_counters, Pos.waiting_parked]
    omega
  | enters htries hblocks =>
    have hu := htries.level u
    have he := Server.level_enter hblocks (htries.waiting_le hle) u
    simp only [count_counters, count_held_cons, Pos.waiting_running, List.count_nil]
    omega
  | leaves hpos hprogram hheld =>
    rename_i lock held rest
    have hl : ∀ u, lock.counter?.toList.count u ≤ s.level u := by
      intro v
      have hv := hle v
      rw [count_counters, hheld, count_held_cons] at hv
      omega
    have hu := Server.level_leave hl u
    simp only [count_counters, hheld, count_held_cons, hpos, Pos.waiting_running, List.count_nil]
    omega
  | drops hpos hprogram => simp [hpos]
  | calls hpos hprogram => simp [hpos]
  | returns hpos => simp [hpos]

theorem Tries.entry (h : t.Tries s lock s₀) (hat : t.At) :
    ∃ entry gate rest, t.program = .enter entry :: rest ∧ lock = entry.lock gate := by
  cases h with
  | fetched hpos => exact hat.1 lock (by simp [hpos, Pos.lock?])
  | woken hpos => exact hat.1 lock (by simp [hpos, Pos.lock?])
  | running hpos hprogram hentry => exact ⟨_, _, _, hprogram, rfl⟩

theorem at_running (program : List Instr) (held : List Lock) :
    At ⟨program, held, .running⟩ := by
  constructor
  · intro lock h
    cases h
  · intro h
    cases h

/-- A request keeps to the order of the locks. -/
theorem Moves.ok (h : t.Moves s s' t' notified) (hok : t.Ok) : t'.Ok := by
  obtain ⟨hstacked, hprogram, hat⟩ := hok
  cases h with
  | fetches hpos hp hentry =>
    refine ⟨hstacked, hprogram, ?_, by simp⟩
    intro lock hl
    cases hl
    exact ⟨_, _, _, hp, rfl⟩
  | sleeps htries hblocks hcond =>
    refine ⟨hstacked, hprogram, ?_, by simp⟩
    intro l hl
    cases hl
    exact htries.entry hat
  | enters htries hblocks =>
    obtain ⟨entry, gate, rest, hp, rfl⟩ := htries.entry hat
    rw [hp] at hprogram ⊢
    obtain ⟨hfits, hrest⟩ := hprogram gate
    exact ⟨⟨hfits, hstacked⟩, hrest, at_running _ _⟩
  | leaves hpos hp hheld =>
    rw [hp, hheld] at hprogram
    rw [hheld] at hstacked
    exact ⟨hstacked.2, hprogram.2, at_running _ _⟩
  | drops hpos hp =>
    rw [hp] at hprogram
    refine ⟨hstacked, hprogram, ?_⟩
    simp [At, hpos, Pos.lock?]
  | calls hpos hp =>
    refine ⟨hstacked, hprogram, ?_, fun _ => ⟨_, _, hp⟩⟩
    intro lock hl
    cases hl
  | returns hpos =>
    obtain ⟨call, rest, hp⟩ := hat.2 hpos
    rw [hp] at hprogram ⊢
    exact ⟨hstacked, hprogram.2, at_running _ _⟩

@[simp] theorem wake_held (n : Option Cond) (t : Thread) : (t.wake n).held = t.held := by
  unfold wake
  split
  · split_ifs <;> rfl
  · rfl

@[simp] theorem wake_program (n : Option Cond) (t : Thread) :
    (t.wake n).program = t.program := by
  unfold wake
  split
  · split_ifs <;> rfl
  · rfl

@[simp] theorem wake_lock? (n : Option Cond) (t : Thread) :
    (t.wake n).pos.lock? = t.pos.lock? := by
  unfold wake
  split
  · rename_i hpos
    split_ifs <;> simp [hpos, Pos.lock?]
  · rfl

@[simp] theorem wake_waiting (n : Option Cond) (t : Thread) :
    (t.wake n).pos.waiting = t.pos.waiting := by
  unfold wake
  split
  · rename_i hpos
    split_ifs <;> simp [hpos]
  · rfl

@[simp] theorem wake_calling (n : Option Cond) (t : Thread) :
    (t.wake n).pos = .calling ↔ t.pos = .calling := by
  unfold wake
  split
  · rename_i hpos
    split_ifs <;> simp [hpos]
  · rfl

/-- Who still sleeps after a notification was asleep and not notified. -/
theorem parked_of_wake {n : Option Cond} (h : (t.wake n).pos = .parked lock) :
    t.pos = .parked lock ∧ (n.isSome → lock.cond ≠ n) := by
  unfold wake at h
  split at h
  · rename_i l hpos
    split_ifs at h with hn
    obtain rfl : l = lock := by simpa [hpos] using h
    exact ⟨hpos, fun hs hc => hn ⟨hs, hc⟩⟩
  · rename_i hno
    exact absurd h (hno lock)

theorem Ok.wake (h : t.Ok) (n : Option Cond) : (t.wake n).Ok := by
  refine ⟨?_, ?_, ?_⟩
  · simpa using h.stacked
  · simpa using h.program
  · simpa [At] using h.at_

end Thread

end Belayer.Exec
