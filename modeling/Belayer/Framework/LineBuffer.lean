import Mathlib.Data.List.Basic

namespace Belayer.Framework.LineBuffer

/-! A stream that comes in pieces is read line by line through a buffer. -/

variable {α σ ε : Type*} [DecidableEq α] (sep : α) (step : σ → List α → Except ε σ)

theorem length_tail_dropWhile_lt {sep : α} {buffer : List α} (h : sep ∈ buffer) :
    ((buffer.dropWhile (· ≠ sep)).tail).length < buffer.length := by
  have hle := (List.dropWhile_sublist (· ≠ sep) (l := buffer)).length_le
  have hpos : 0 < buffer.length := List.length_pos_of_mem h
  rw [List.length_tail]
  omega

/-- The lines of a buffer that have ended are taken one after the other; what is left, if no line
stops the reading, is the state and the rest of the buffer. -/
def drain (s : σ) (buffer : List α) : Except ε (σ × List α) :=
  if _h : sep ∈ buffer then
    (step s (buffer.takeWhile (· ≠ sep))).bind fun s =>
      drain s (buffer.dropWhile (· ≠ sep)).tail
  else .ok (s, buffer)
termination_by buffer.length
decreasing_by exact length_tail_dropWhile_lt _h

/-- Every piece that comes is added to the buffer, and the lines that it ends are taken. -/
def feed (s : σ) (buffer : List α) : List (List α) → Except ε (σ × List α)
  | [] => .ok (s, buffer)
  | piece :: pieces =>
    if piece = [] then feed s buffer pieces
    else (drain sep step s (buffer ++ piece)).bind fun r => feed r.1 r.2 pieces

/-- The lines of a stream that have ended, and the rest that has not. -/
structure IsLines (sep : α) (stream : List α) (lines : List (List α)) (rest : List α) : Prop where
  stream_eq : stream = lines.flatMap (· ++ [sep]) ++ rest
  ended : ∀ line ∈ lines, sep ∉ line
  unended : sep ∉ rest

section Lines

variable {α : Type*} {sep : α} {stream stream' rest rest' line : List α}
  {lines lines' : List (List α)}

theorem isLines_nil (h : sep ∉ rest) : IsLines sep rest [] rest :=
  ⟨rfl, fun _ hline => absurd hline List.not_mem_nil, h⟩

theorem IsLines.cons (h : IsLines sep stream lines rest) (hline : sep ∉ line) :
    IsLines sep (line ++ sep :: stream) (line :: lines) rest := by
  refine ⟨?_, List.forall_mem_cons.mpr ⟨hline, h.ended⟩, h.unended⟩
  rw [h.stream_eq, List.flatMap_cons, List.append_assoc, List.append_assoc, List.singleton_append]

/-- A stream goes on where its rest goes on. -/
theorem IsLines.append (h : IsLines sep stream lines rest)
    (h' : IsLines sep (rest ++ stream') lines' rest') :
    IsLines sep (stream ++ stream') (lines ++ lines') rest' := by
  refine ⟨?_, ?_, h'.unended⟩
  · rw [List.flatMap_append, List.append_assoc, ← h'.stream_eq, h.stream_eq, List.append_assoc]
  · exact fun line hline => (List.mem_append.mp hline).elim (h.ended line) (h'.ended line)

end Lines

variable {sep step} {stream stream' rest rest' buffer line : List α} {lines lines' : List (List α)}
  {s : σ}

theorem takeWhile_ne (stream : List α) (hline : sep ∉ line) :
    (line ++ sep :: stream).takeWhile (· ≠ sep) = line ∧
      (line ++ sep :: stream).dropWhile (· ≠ sep) = sep :: stream := by
  induction line with
  | nil => simp
  | cons a line ih =>
    have hne : decide (a ≠ sep) = true := decide_eq_true (List.ne_of_not_mem_cons hline).symm
    obtain ⟨htake, hdrop⟩ := ih (List.not_mem_of_not_mem_cons hline)
    exact ⟨by rw [List.cons_append, List.takeWhile_cons_of_pos (p := (· ≠ sep)) hne, htake],
      by rw [List.cons_append, List.dropWhile_cons_of_pos (p := (· ≠ sep)) hne, hdrop]⟩

/-- The lines of a buffer are taken in their order. -/
theorem drain_eq (h : IsLines sep buffer lines rest) :
    drain sep step s buffer = (lines.foldlM step s).map fun s => (s, rest) := by
  obtain ⟨rfl, hended, hrest⟩ := h
  induction lines generalizing s with
  | nil =>
    rw [List.flatMap_nil, List.nil_append, drain, dif_neg hrest]
    rfl
  | cons line lines ih =>
    obtain ⟨hline, hended⟩ := List.forall_mem_cons.mp hended
    have hbuffer : (line :: lines).flatMap (· ++ [sep]) ++ rest =
        line ++ sep :: (lines.flatMap (· ++ [sep]) ++ rest) := by
      simp
    obtain ⟨htake, hdrop⟩ := takeWhile_ne (lines.flatMap (· ++ [sep]) ++ rest) hline
    rw [hbuffer, drain, dif_pos (List.mem_append_right line List.mem_cons_self), htake, hdrop,
      List.tail_cons, List.foldlM_cons]
    cases hstep : step s line with
    | error e => rfl
    | ok s => exact ih hended

theorem exists_isLines (sep : α) (stream : List α) :
    ∃ lines rest, IsLines sep stream lines rest := by
  induction stream with
  | nil => exact ⟨[], [], isLines_nil List.not_mem_nil⟩
  | cons a stream ih =>
    obtain ⟨lines, rest, h⟩ := ih
    by_cases ha : a = sep
    · subst ha
      exact ⟨[] :: lines, rest, h.cons List.not_mem_nil⟩
    · cases lines with
      | nil =>
        have hstream : stream = rest := by simpa using h.stream_eq
        refine ⟨[], a :: stream, isLines_nil ?_⟩
        exact List.not_mem_cons_of_ne_of_not_mem (Ne.symm ha) (hstream ▸ h.unended)
      | cons line lines =>
        obtain ⟨hline, hended⟩ := List.forall_mem_cons.mp h.ended
        refine ⟨(a :: line) :: lines, rest, ?_, ?_, h.unended⟩
        · rw [h.stream_eq]
          simp
        · exact List.forall_mem_cons.mpr
            ⟨List.not_mem_cons_of_ne_of_not_mem (Ne.symm ha) hline, hended⟩

theorem IsLines.unique (h : IsLines sep stream lines rest) (h' : IsLines sep stream lines' rest') :
    lines = lines' ∧ rest = rest' := by
  obtain ⟨rfl, hended, hrest⟩ := h
  obtain ⟨heq, hended', hrest'⟩ := h'
  induction lines generalizing lines' with
  | nil =>
    cases lines' with
    | nil => exact ⟨rfl, by simpa using heq⟩
    | cons line' lines' =>
      have hmem : sep ∈ rest := by
        rw [List.flatMap_nil, List.nil_append] at heq
        rw [heq]
        simp
      exact absurd hmem hrest
  | cons line lines ih =>
    obtain ⟨hline, hended⟩ := List.forall_mem_cons.mp hended
    cases lines' with
    | nil =>
      have hmem : sep ∈ rest' := by
        rw [List.flatMap_nil, List.nil_append] at heq
        rw [← heq]
        simp
      exact absurd hmem hrest'
    | cons line' lines' =>
      obtain ⟨hline', htail'⟩ := List.forall_mem_cons.mp hended'
      have hsplit : line ++ sep :: (lines.flatMap (· ++ [sep]) ++ rest) =
          line' ++ sep :: (lines'.flatMap (· ++ [sep]) ++ rest') := by
        simpa using heq
      have hfirst := congrArg (List.takeWhile (· ≠ sep)) hsplit
      rw [(takeWhile_ne _ hline).1, (takeWhile_ne _ hline').1] at hfirst
      subst hfirst
      obtain ⟨rfl, rfl⟩ := ih hended (List.cons.inj (List.append_cancel_left hsplit)).2 htail'
      exact ⟨rfl, rfl⟩

/-- However a stream comes in pieces, its lines are taken, in their order. -/
theorem feed_eq {pieces : List (List α)} (hbuffer : sep ∉ buffer)
    (h : IsLines sep (buffer ++ pieces.flatten) lines rest) :
    feed sep step s buffer pieces = (lines.foldlM step s).map fun s => (s, rest) := by
  induction pieces generalizing s buffer lines with
  | nil =>
    rw [List.flatten_nil, List.append_nil] at h
    obtain ⟨rfl, rfl⟩ := h.unique (isLines_nil hbuffer)
    rfl
  | cons piece pieces ih =>
    rw [feed]
    split_ifs with hpiece
    · subst hpiece
      exact ih hbuffer h
    · obtain ⟨first, rest₁, hfirst⟩ := exists_isLines sep (buffer ++ piece)
      obtain ⟨second, rest₂, hsecond⟩ := exists_isLines sep (rest₁ ++ pieces.flatten)
      have hwhole := hfirst.append hsecond
      rw [List.append_assoc, ← List.flatten_cons] at hwhole
      obtain ⟨rfl, rfl⟩ := h.unique hwhole
      rw [drain_eq hfirst, List.foldlM_append]
      cases hstep : first.foldlM step s with
      | error e => rfl
      | ok s => exact ih hfirst.unended hsecond

end Belayer.Framework.LineBuffer
