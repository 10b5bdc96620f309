import Belayer.Framework.Segments

namespace Belayer.Framework

/-! A memory of one length: parts of it are read and written over -/

variable {α : Type*}

/-- `memory[offset : offset + n]`. -/
def readAt (memory : List α) (offset n : Nat) : List α := (memory.drop offset).take n

/-- `memory[offset : offset + len(new)] = new`. -/
def writeAt (memory : List α) (offset : Nat) (new : List α) : List α :=
  memory.take offset ++ new ++ memory.drop (offset + new.length)

variable {memory new : List α} {offset offset' n m : Nat}

theorem length_readAt (h : offset + n ≤ memory.length) : (readAt memory offset n).length = n := by
  rw [readAt, List.length_take, List.length_drop]
  omega

theorem length_writeAt (h : offset + new.length ≤ memory.length) :
    (writeAt memory offset new).length = memory.length := by
  simp only [writeAt, List.length_append, List.length_take, List.length_drop]
  omega

theorem readAt_append_readAt (memory : List α) (offset n m : Nat) :
    readAt memory offset n ++ readAt memory (offset + n) m = readAt memory offset (n + m) := by
  rw [readAt, readAt, readAt, List.take_add, List.drop_drop]

theorem readAt_writeAt_self (h : offset ≤ memory.length) :
    readAt (writeAt memory offset new) offset new.length = new := by
  have hlen : (memory.take offset).length = offset := by
    rw [List.length_take, Nat.min_eq_left h]
  rw [readAt, writeAt, List.append_assoc, List.drop_left' hlen, List.take_left' rfl]

theorem writeAt_append_replicate (memory new : List α) (m : Nat) (a : α) :
    writeAt (memory ++ List.replicate m a) memory.length new =
      memory ++ new ++ List.replicate (m - new.length) a := by
  rw [writeAt, List.take_left, ← List.drop_drop, List.drop_left, List.drop_replicate]

/-- What is read before or behind a written part is as it was. -/
theorem readAt_writeAt_of_apart (h : offset + new.length ≤ memory.length)
    (hapart : offset' + m ≤ offset ∨ offset + new.length ≤ offset') :
    readAt (writeAt memory offset new) offset' m = readAt memory offset' m := by
  have hlen : (memory.take offset).length = offset := by
    rw [List.length_take]
    omega
  rcases hapart with hbefore | hbehind
  · rw [readAt, readAt, writeAt, List.append_assoc, List.drop_append_of_le_length (by omega),
      List.take_append_of_le_length (by rw [List.length_drop]; omega), List.drop_take,
      List.take_take, Nat.min_eq_left (by omega)]
  · have hfront : (memory.take offset ++ new).length = offset + new.length := by
      rw [List.length_append, hlen]
    obtain ⟨k, rfl⟩ := Nat.exists_eq_add_of_le hbehind
    rw [readAt, readAt, writeAt, ← List.drop_drop, List.drop_left' hfront, List.drop_drop]

/-! Many writes -/

/-- Writes one after the other: where each begins and what it writes. -/
def writeAll (memory : List α) (writes : List (Nat × List α)) : List α :=
  writes.foldl (fun memory w => writeAt memory w.1 w.2) memory

/-- Two parts that do not overlap. -/
def PartsApart (v w : Nat × List α) : Prop := v.1 + v.2.length ≤ w.1 ∨ w.1 + w.2.length ≤ v.1

theorem PartsApart.symm {v w : Nat × List α} (h : PartsApart v w) : PartsApart w v := Or.symm h

variable {writes : List (Nat × List α)} {w : Nat × List α}

theorem length_writeAll (h : ∀ v ∈ writes, v.1 + v.2.length ≤ memory.length) :
    (writeAll memory writes).length = memory.length := by
  induction writes generalizing memory with
  | nil => rfl
  | cons v writes ih =>
    obtain ⟨hv, hrest⟩ := List.forall_mem_cons.mp h
    have hlen := length_writeAt hv
    rw [writeAll, List.foldl_cons, ← writeAll, ih fun v hv => hlen.symm ▸ hrest v hv, hlen]

theorem readAt_writeAll_of_apart (h : ∀ v ∈ writes, v.1 + v.2.length ≤ memory.length)
    (hapart : ∀ v ∈ writes, PartsApart w v) :
    readAt (writeAll memory writes) w.1 w.2.length = readAt memory w.1 w.2.length := by
  induction writes generalizing memory with
  | nil => rfl
  | cons v writes ih =>
    obtain ⟨hv, hrest⟩ := List.forall_mem_cons.mp h
    obtain ⟨hwv, hwrest⟩ := List.forall_mem_cons.mp hapart
    have hlen := length_writeAt hv
    rw [writeAll, List.foldl_cons, ← writeAll, ih (fun v hv => hlen.symm ▸ hrest v hv) hwrest,
      readAt_writeAt_of_apart hv hwv]

/-- Writes that do not overlap all last, in whatever order they come. -/
theorem readAt_writeAll (h : ∀ v ∈ writes, v.1 + v.2.length ≤ memory.length)
    (hapart : writes.Pairwise PartsApart) (hw : w ∈ writes) :
    readAt (writeAll memory writes) w.1 w.2.length = w.2 := by
  induction writes generalizing memory with
  | nil => exact absurd hw List.not_mem_nil
  | cons v writes ih =>
    obtain ⟨hv, hrest⟩ := List.forall_mem_cons.mp h
    obtain ⟨hvapart, htail⟩ := List.pairwise_cons.mp hapart
    have hlen := length_writeAt hv
    have hrest' : ∀ u ∈ writes, u.1 + u.2.length ≤ (writeAt memory v.1 v.2).length :=
      fun u hu => hlen.symm ▸ hrest u hu
    rw [writeAll, List.foldl_cons, ← writeAll]
    rcases List.mem_cons.mp hw with rfl | hw
    · rw [readAt_writeAll_of_apart hrest' hvapart, readAt_writeAt_self (by omega)]
    · exact ih hrest' htail hw

end Belayer.Framework
