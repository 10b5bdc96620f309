import Belayer.Exec.Deadlock

namespace Belayer.Exec

open Belayer.Framework

/-- The gate of a lock on the same container that an entry has to keep apart from. -/
def Entry.otherGate : Entry → Lock → Option Nat
  | .exec containerId, .exclusive containerId' gate
  | .exclusive containerId, .exec containerId' gate =>
    if containerId' = containerId then some gate else none
  | _, _ => none

/-- The container that is held exclusively. -/
def Lock.exclusiveOf : Lock → Option String
  | .exclusive containerId _ => some containerId
  | _ => none

namespace Thread

/-- The gates the request holds, and the one it waits at. -/
def locks (t : Thread) : List Lock := t.held ++ t.pos.lock?.toList

/-- The entry for which the request is about to fetch a gate. -/
def fetches? (t : Thread) : Option Entry :=
  match t.pos, t.program with
  | .running, .enter entry :: _ => if entry.containerId?.isSome then some entry else none
  | _, _ => none

/-- The container in which the request is about to start a command of an evaluation. -/
def evaluates? (t : Thread) : Option String :=
  match t.pos, t.program with
  | .running, .docker (.evaluate containerId) :: _ => some containerId
  | _, _ => none

/-- The container in which a command of an evaluation is running. -/
def evaluating? (t : Thread) : Option String :=
  match t.pos, t.program with
  | .calling, .docker (.evaluate containerId) :: _ => some containerId
  | _, _ => none

/-- The container in which a command of the request is running. -/
def runs? (t : Thread) : Option String :=
  match t.pos, t.program with
  | .calling, .docker (.command containerId) :: _
  | .calling, .docker (.evaluate containerId) :: _ => some containerId
  | _, _ => none

/-- The container whose gate the request enters exclusively in its next step. -/
def excludes? (s : Server) (t : Thread) : Option String :=
  match t.pos with
  | .fetched lock | .woken lock => if s.blocks lock then none else lock.exclusiveOf
  | _ => none

end Thread

namespace Node

/-- No command runs inside a container while that is held exclusively. -/
def NoOverlap (n : Node) : Prop :=
  ∀ t ∈ n.threads, ∀ containerId ∈ t.runs?, ∀ q ∈ n.threads, ∀ l ∈ q.held,
    l.exclusiveOf ≠ some containerId

instance (n : Node) : Decidable n.NoOverlap :=
  inferInstanceAs (Decidable (∀ t ∈ n.threads, ∀ containerId ∈ t.runs?, ∀ q ∈ n.threads,
    ∀ l ∈ q.held, l.exclusiveOf ≠ some containerId))

/-- A gate is fetched while all that has to be kept apart refers to the same gate, and
commands of evaluations keep out of exclusive sections by themselves. -/
def InOrder (n : Node) (t : Thread) : Prop :=
  (∀ entry ∈ t.fetches?, ∀ q ∈ n.threads, ∀ l ∈ q.locks, ∀ gate ∈ entry.otherGate l,
    ∀ containerId ∈ entry.containerId?,
      n.server.containerOpGates.lookup containerId = some gate) ∧
  (∀ containerId ∈ t.evaluates?, ∀ q ∈ n.threads, ∀ l ∈ q.held,
    l.exclusiveOf ≠ some containerId) ∧
  ∀ containerId ∈ t.excludes? n.server, ∀ q ∈ n.threads, q.evaluating? ≠ some containerId

instance (n : Node) (t : Thread) : Decidable (n.InOrder t) :=
  inferInstanceAs (Decidable (_ ∧ _ ∧ _))

/-- The condition on a step. -/
def Orderly (n : Node) : NodeAction → Prop
  | .receive _ => True
  | .step i => ∀ t ∈ n.threads[i]?, n.InOrder t

instance (n : Node) : (a : NodeAction) → Decidable (n.Orderly a)
  | .receive _ => .isTrue trivial
  | .step i => inferInstanceAs (Decidable (∀ t ∈ n.threads[i]?, n.InOrder t))

end Node

namespace Thread

variable {s s₀ s' : Server} {t t' : Thread} {lock l : Lock} {notified : Option Cond}

@[simp] theorem wake_locks (n : Option Cond) (t : Thread) : (t.wake n).locks = t.locks := by
  simp [locks]

/-- A lock of a container. -/
def OnContainer (l : Lock) : Prop := ∃ containerId gate,
  l = .exec containerId gate ∨ l = .exclusive containerId gate

theorem not_onContainer {entry : Entry} (h : entry.containerId? = none) (gate : Nat) :
    ¬OnContainer (entry.lock gate) := by
  intro ho
  obtain ⟨containerId, g, he | he⟩ := ho <;>
    cases entry <;> simp_all [Entry.lock, Entry.containerId?]

theorem Tries.mem_locks (h : t.Tries s lock s₀) (ho : OnContainer lock) : lock ∈ t.locks := by
  cases h with
  | fetched hpos => simp [locks, hpos, Pos.lock?]
  | woken hpos => simp [locks, hpos, Pos.lock?]
  | running hpos hprogram hentry => exact absurd ho (not_onContainer hentry 0)

/-- The only gate that a request comes to refer to in a step is the one it fetches. -/
theorem Moves.mem_locks (h : t.Moves s s' t' notified) (ho : OnContainer l)
    (hl : l ∈ t'.locks) :
    l ∈ t.locks ∨ ∃ entry ∈ t.fetches?, ∃ containerId ∈ entry.containerId?,
      l = entry.lock (s.getContainerOpGate containerId).1 := by
  cases h with
  | fetches hpos hprogram hentry =>
    rename_i entry rest containerId
    simp only [locks, Pos.lock?, Option.toList_some, List.mem_append, List.mem_singleton] at hl
    rcases hl with hl | hl
    · exact .inl (List.mem_append_left _ hl)
    · exact .inr ⟨entry, by simp [fetches?, hpos, hprogram, hentry], containerId, hentry, hl⟩
  | sleeps htries hblocks hcond =>
    simp only [locks, Pos.lock?, Option.toList_some, List.mem_append, List.mem_singleton] at hl
    rcases hl with hl | rfl
    · exact .inl (List.mem_append_left _ hl)
    · exact .inl (htries.mem_locks ho)
  | enters htries hblocks =>
    simp only [locks, Pos.lock?, Option.toList_none, List.append_nil, List.mem_cons] at hl
    rcases hl with rfl | hl
    · exact .inl (htries.mem_locks ho)
    · exact .inl (List.mem_append_left _ hl)
  | leaves hpos hprogram hheld =>
    simp only [locks, Pos.lock?, Option.toList_none, List.append_nil] at hl
    left
    rw [locks, hheld]
    exact List.mem_append_left _ (List.mem_cons_of_mem _ hl)
  | drops hpos hprogram => exact .inl hl
  | calls hpos hprogram =>
    simp only [locks, Pos.lock?, Option.toList_none, List.append_nil] at hl
    exact .inl (List.mem_append_left _ hl)
  | returns hpos =>
    simp only [locks, Pos.lock?, Option.toList_none, List.append_nil] at hl
    exact .inl (List.mem_append_left _ hl)

/-- What a request comes to hold exclusively it enters in that step. -/
theorem Moves.mem_held (h : t.Moves s s' t' notified) {containerId : String}
    (hl : l ∈ t'.held) (hc : l.exclusiveOf = some containerId) :
    l ∈ t.held ∨ t.excludes? s = some containerId := by
  cases h with
  | fetches hpos hprogram hentry => exact .inl hl
  | sleeps htries hblocks hcond => exact .inl hl
  | enters htries hblocks =>
    rcases List.mem_cons.mp hl with rfl | hl
    · right
      cases htries with
      | fetched hpos =>
        have hb : s.blocks l = false := by
          cases l with
          | exclusive c g => exact hblocks
          | _ => cases hc
        simp [excludes?, hpos, hb, hc]
      | woken hpos => simp [excludes?, hpos, hblocks, hc]
      | running hpos hprogram hentry =>
        rename_i entry rest
        cases entry <;> simp_all [Entry.lock, Entry.containerId?, Lock.exclusiveOf]
    · exact .inl hl
  | leaves hpos hprogram hheld =>
    rw [hheld]
    exact .inl (List.mem_cons_of_mem _ hl)
  | drops hpos hprogram => exact .inl hl
  | calls hpos hprogram => exact .inl hl
  | returns hpos => exact .inl hl

/-- A command of an evaluation that runs after a step did so before, or has just started. -/
theorem Moves.evaluating (h : t.Moves s s' t' notified) {containerId : String}
    (he : t'.evaluating? = some containerId) :
    t.evaluating? = some containerId ∨ t.evaluates? = some containerId := by
  cases h with
  | calls hpos hprogram =>
    right
    rename_i call rest
    cases call <;> simp_all [evaluating?, evaluates?]
  | fetches hpos hprogram hentry => simp [evaluating?] at he
  | sleeps htries hblocks hcond => simp [evaluating?] at he
  | enters htries hblocks => simp [evaluating?] at he
  | leaves hpos hprogram hheld => simp [evaluating?] at he
  | drops hpos hprogram => simp [evaluating?, hpos] at he
  | returns hpos => simp [evaluating?] at he

@[simp] theorem wake_evaluating? (n : Option Cond) (t : Thread) :
    (t.wake n).evaluating? = t.evaluating? := by
  unfold wake
  split
  · rename_i hpos
    split_ifs <;> simp [evaluating?, hpos]
  · rfl

theorem not_excludes_of_evaluates {containerId containerId' : String}
    (h : t.evaluates? = some containerId) : t.excludes? s ≠ some containerId' := by
  cases hpos : t.pos <;> simp_all [evaluates?, excludes?]

/-- A command that runs is in its exec section, or belongs to an evaluation. -/
theorem runs_cases (hok : t.Ok) {containerId : String} (h : t.runs? = some containerId) :
    (∃ gate, .exec containerId gate ∈ t.held) ∨ t.evaluating? = some containerId := by
  unfold runs? at h
  split at h
  · rename_i c rest hpos hprogram
    cases h
    have hi := hok.program
    rw [hprogram] at hi
    exact .inl hi.1
  · rename_i c rest hpos hprogram
    cases h
    exact .inr (by simp [evaluating?, hpos, hprogram])
  · cases h

end Thread

namespace Node

variable {n n' : Node}

/-- Commands and exclusive sections on a container refer to one gate, and no evaluation
runs in an exclusive section. -/
structure Apart (n : Node) : Prop where
  inv : n.Inv
  together : ∀ t ∈ n.threads, ∀ q ∈ n.threads, ∀ containerId gate gate',
    .exec containerId gate ∈ t.locks → .exclusive containerId gate' ∈ q.locks → gate = gate'
  evaluating : ∀ t ∈ n.threads, ∀ containerId ∈ t.evaluating?, ∀ q ∈ n.threads, ∀ l ∈ q.held,
    l.exclusiveOf ≠ some containerId

theorem getContainerOpGate_of_lookup {s : Server} {containerId : String} {gate : Nat}
    (h : s.containerOpGates.lookup containerId = some gate) :
    (s.getContainerOpGate containerId).1 = gate := by
  simp [Server.getContainerOpGate, h]

/-- The gate that is fetched is the one all locks of the other kind refer to. -/
theorem InOrder.gate_eq {t : Thread} (h : n.InOrder t) {entry : Entry} {containerId : String}
    (he : entry ∈ t.fetches?) (hc : containerId ∈ entry.containerId?) {q : Thread}
    (hq : q ∈ n.threads) {l : Lock} (hl : l ∈ q.locks) {gate : Nat}
    (hg : entry.otherGate l = some gate) :
    (n.server.getContainerOpGate containerId).1 = gate :=
  getContainerOpGate_of_lookup (h.1 entry he q hq l hl gate hg containerId hc)

theorem Apart.moves (h : n.Apart) {i : Nat} {t t' : Thread} {s' : Server}
    {notified : Option Cond} (hi : n.threads[i]? = some t) (ho : n.InOrder t)
    (hm : t.Moves n.server s' t' notified) :
    Apart ⟨s', (n.threads.set i t').map (Thread.wake notified)⟩ := by
  have ht : t ∈ n.threads := List.mem_of_getElem? hi
  -- Whoever refers to a gate after the step did so before, or it is `t` that fetches it.
  have hold : ∀ r ∈ (n.threads.set i t').map (Thread.wake notified), ∀ l,
      Thread.OnContainer l → l ∈ r.locks → (∃ q ∈ n.threads, l ∈ q.locks) ∨
        ∃ entry ∈ t.fetches?, ∃ containerId ∈ entry.containerId?,
          l = entry.lock (n.server.getContainerOpGate containerId).1 := by
    intro r hr l hon hl
    obtain ⟨q, rfl, hq⟩ := mem_stepped hr
    rw [Thread.wake_locks] at hl
    rcases hq with hq | rfl
    · exact .inl ⟨q, hq, hl⟩
    · exact (hm.mem_locks hon hl).imp_left fun hl => ⟨t, ht, hl⟩
  refine ⟨h.inv.moves hi hm, ?_, ?_⟩
  · intro r hr q hq containerId gate gate' hexec hexclusive
    have hexec := hold r hr _ ⟨containerId, gate, .inl rfl⟩ hexec
    have hexclusive := hold q hq _ ⟨containerId, gate', .inr rfl⟩ hexclusive
    rcases hexec with ⟨a, ha, hexec⟩ | ⟨entry, he, c, hc, hl⟩
    · rcases hexclusive with ⟨b, hb, hexclusive⟩ | ⟨entry, he, c, hc, hl⟩
      · exact h.together a ha b hb containerId gate gate' hexec hexclusive
      · cases entry <;> simp [Entry.lock] at hl
        obtain ⟨rfl, rfl⟩ := hl
        cases hc
        exact (ho.gate_eq he rfl ha hexec (by simp [Entry.otherGate])).symm
    · cases entry <;> simp [Entry.lock] at hl
      obtain ⟨rfl, rfl⟩ := hl
      cases hc
      rcases hexclusive with ⟨b, hb, hexclusive⟩ | ⟨entry', he', c', hc', hl'⟩
      · exact ho.gate_eq he rfl hb hexclusive (by simp [Entry.otherGate])
      · rw [Option.mem_unique he' he] at hl'
        simp [Entry.lock] at hl'
  · intro r hr containerId hrun q hq l hl hc
    obtain ⟨a, rfl, ha⟩ := mem_stepped hr
    obtain ⟨b, rfl, hb⟩ := mem_stepped hq
    rw [Thread.wake_evaluating?] at hrun
    rw [Thread.wake_held] at hl
    have hrun : (∃ a ∈ n.threads, a.evaluating? = some containerId) ∨
        t.evaluates? = some containerId := by
      rcases ha with ha | rfl
      · exact .inl ⟨a, ha, hrun⟩
      · exact (hm.evaluating hrun).imp_left fun he => ⟨t, ht, he⟩
    have hl : (∃ b ∈ n.threads, l ∈ b.held) ∨ t.excludes? n.server = some containerId := by
      rcases hb with hb | rfl
      · exact .inl ⟨b, hb, hl⟩
      · exact (hm.mem_held hl hc).imp_left fun hl => ⟨t, ht, hl⟩
    rcases hrun with ⟨a, ha, hrun⟩ | hstart
    · rcases hl with ⟨b, hb, hl⟩ | henter
      · exact h.evaluating a ha containerId hrun b hb l hl hc
      · exact ho.2.2 containerId henter a ha hrun
    · rcases hl with ⟨b, hb, hl⟩ | henter
      · exact ho.2.1 containerId hstart b hb l hl hc
      · exact Thread.not_excludes_of_evaluates hstart henter

theorem init_apart (checkpointMaxInflight : Int) : (init checkpointMaxInflight).Apart :=
  ⟨init_inv checkpointMaxInflight, by simp [init], by simp [init]⟩

theorem Apart.next {a : NodeAction} (h : n.Apart) (ho : n.Orderly a)
    (hn : n.next a = some n') : n'.Apart := by
  rcases next_cases hn with ⟨request, rfl, rfl⟩ | ⟨i, t, s', t', notified, rfl, hi, hm, rfl⟩
  · have hcases : ∀ t ∈ n.threads ++ [Thread.start request.program],
        t ∈ n.threads ∨ t = Thread.start request.program := by
      intro t ht
      simpa using ht
    have hlocks : ∀ l, l ∉ (Thread.start request.program).locks := by
      simp [Thread.start, Thread.locks, Pos.lock?]
    refine ⟨h.inv.receive request, ?_, ?_⟩
    · intro r hr q hq containerId gate gate' hexec hexclusive
      rcases hcases r hr with hr | rfl
      · rcases hcases q hq with hq | rfl
        · exact h.together r hr q hq containerId gate gate' hexec hexclusive
        · exact absurd hexclusive (hlocks _)
      · exact absurd hexec (hlocks _)
    · intro r hr containerId hrun q hq l hl
      rcases hcases r hr with hr | rfl
      · rcases hcases q hq with hq | rfl
        · exact h.evaluating r hr containerId hrun q hq l hl
        · exact absurd hl (by simp [Thread.start])
      · simp [Thread.start, Thread.evaluating?] at hrun
  · exact h.moves hi (ho t hi) hm

theorem Apart.noOverlap (h : n.Apart) : n.NoOverlap := by
  intro t ht containerId hrun q hq l hl hc
  rcases Thread.runs_cases (h.inv.ok t ht) hrun with ⟨gate, hexec⟩ | hevaluate
  · obtain ⟨gate', rfl⟩ : ∃ gate', l = .exclusive containerId gate' := by
      cases l <;> simp_all [Lock.exclusiveOf]
    have hg := h.together t ht q hq containerId gate gate' (List.mem_append_left _ hexec)
      (List.mem_append_left _ hl)
    subst hg
    have hactive := (Thread.mem_counters hexec rfl).trans_le (h.inv.counters_le ht (.active gate))
    have hexclusive :=
      (Thread.mem_counters hl rfl).trans_le (h.inv.counters_le hq (.exclusive gate))
    have hx := h.inv.exclusive gate
    omega
  · exact h.evaluating t ht containerId hevaluate q hq l hl hc

/-- A destroy that waits for a diff, with the whole run of both. -/
def orderlyRun : List NodeAction :=
  [.receive (.diff "c"), .receive (.destroy "c" false)] ++
    List.replicate 4 (.step 0) ++ List.replicate 2 (.step 1) ++ List.replicate 5 (.step 0) ++
    List.replicate 7 (.step 1)

/-- An evaluation takes no gate. -/
def evaluatedRun : List NodeAction :=
  [.receive (.evaluate "c" true), .receive (.destroy "c" false), .step 0, .step 1, .step 1]

/-- The gate that a diff holds is dropped by a fault; a destroy gets a new one. -/
def droppedRun : List NodeAction :=
  [.receive (.diff "c"), .receive (.exec "c" .killedBefore), .receive (.destroy "c" false)] ++
    List.replicate 4 (.step 0) ++ List.replicate 3 (.step 1) ++ List.replicate 2 (.step 2)

end Node

end Belayer.Exec
