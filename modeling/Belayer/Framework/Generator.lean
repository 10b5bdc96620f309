import Mathlib.Data.List.Basic

namespace Belayer.Framework

variable {τ ε : Type*}

/-- A deterministic generator: what comes next, with a note on it, and whether the
sequence ends there depend on the sequence so far alone. -/
structure Generator (τ ε : Type*) where
  next : List τ → τ × ε
  stops : List τ → Bool

namespace Generator

/-- At most `n` items after the prompt. -/
def run (g : Generator τ ε) : List τ → Nat → List (τ × ε)
  | _, 0 => []
  | prompt, n + 1 =>
    let t := g.next prompt
    let prompt := prompt ++ [t.1]
    t :: if g.stops prompt then [] else run g prompt n

/-- A generator that is given a proper part of its own run, and what is left of its
cap, goes on where that part ends. -/
theorem run_resume (g : Generator τ ε) {prompt : List τ} {n a : Nat}
    (h : a < (g.run prompt n).length) :
    g.run (prompt ++ ((g.run prompt n).take a).map Prod.fst) (n - a) = (g.run prompt n).drop a := by
  induction a generalizing prompt n with
  | zero => simp
  | succ a ih =>
    cases n with
    | zero => simp [run] at h
    | succ n =>
      simp only [run] at h ⊢
      split_ifs at h ⊢ with hs
      · simp at h
      · have hr := ih (Nat.lt_of_succ_lt_succ h)
        simpa using hr

end Generator

end Belayer.Framework
