import Mathlib.Algebra.Order.Ring.Rat

namespace Belayer.Scheduler

@[ext]
structure ResourceVector where
  memoryBytes : ℚ
  cpuPercent : ℚ
  diskReadBytes : ℚ
  diskWriteBytes : ℚ
  deriving DecidableEq

namespace ResourceVector

def plus (v w : ResourceVector) : ResourceVector :=
  ⟨v.memoryBytes + w.memoryBytes, v.cpuPercent + w.cpuPercent,
    v.diskReadBytes + w.diskReadBytes, v.diskWriteBytes + w.diskWriteBytes⟩

/-- The difference, at least zero in every dimension. -/
def minus (v w : ResourceVector) : ResourceVector :=
  ⟨max 0 (v.memoryBytes - w.memoryBytes), max 0 (v.cpuPercent - w.cpuPercent),
    max 0 (v.diskReadBytes - w.diskReadBytes), max 0 (v.diskWriteBytes - w.diskWriteBytes)⟩

instance : Add ResourceVector := ⟨plus⟩

instance : Zero ResourceVector := ⟨⟨0, 0, 0, 0⟩⟩

/-- No dimension is larger. -/
instance : LE ResourceVector :=
  ⟨fun v w => v.memoryBytes ≤ w.memoryBytes ∧ v.cpuPercent ≤ w.cpuPercent ∧
    v.diskReadBytes ≤ w.diskReadBytes ∧ v.diskWriteBytes ≤ w.diskWriteBytes⟩

instance (v w : ResourceVector) : Decidable (v ≤ w) := inferInstanceAs (Decidable (_ ∧ _))

variable {v w : ResourceVector}

instance : AddCancelCommMonoid ResourceVector where
  add_assoc u v w := ResourceVector.ext (add_assoc _ _ _) (add_assoc _ _ _) (add_assoc _ _ _)
    (add_assoc _ _ _)
  zero_add v := ResourceVector.ext (zero_add _) (zero_add _) (zero_add _) (zero_add _)
  add_zero v := ResourceVector.ext (add_zero _) (add_zero _) (add_zero _) (add_zero _)
  add_comm v w := ResourceVector.ext (add_comm _ _) (add_comm _ _) (add_comm _ _) (add_comm _ _)
  nsmul := nsmulRec
  add_left_cancel u v w h := by
    obtain ⟨hm, hc, hr, hw⟩ := ResourceVector.ext_iff.mp h
    exact ResourceVector.ext (add_left_cancel hm) (add_left_cancel hc) (add_left_cancel hr)
      (add_left_cancel hw)

theorem nonneg_iff : 0 ≤ v ↔ 0 ≤ v.memoryBytes ∧ 0 ≤ v.cpuPercent ∧ 0 ≤ v.diskReadBytes ∧
    0 ≤ v.diskWriteBytes :=
  Iff.rfl

theorem nonneg_add (hv : 0 ≤ v) (hw : 0 ≤ w) : 0 ≤ v + w := by
  obtain ⟨hv₁, hv₂, hv₃, hv₄⟩ := hv
  obtain ⟨hw₁, hw₂, hw₃, hw₄⟩ := hw
  exact ⟨add_nonneg hv₁ hw₁, add_nonneg hv₂ hw₂, add_nonneg hv₃ hw₃, add_nonneg hv₄ hw₄⟩

/-- Taking back a summand leaves the other one exactly when that is nowhere negative. -/
theorem add_minus_eq_iff : (v + w).minus v = w ↔ 0 ≤ w := by
  have hdim : ∀ a b : ℚ, max 0 (a + b - a) = b ↔ 0 ≤ b := by
    intro a b
    rw [add_sub_cancel_left, max_eq_right_iff]
  rw [ResourceVector.ext_iff, nonneg_iff]
  exact and_congr (hdim _ _) (and_congr (hdim _ _) (and_congr (hdim _ _) (hdim _ _)))

/-- A summand that needs memory changes the sum. -/
theorem add_ne_right (hv : 0 < v.memoryBytes) : v + w ≠ w := by
  intro h
  have hm : v.memoryBytes + w.memoryBytes = w.memoryBytes :=
    congrArg ResourceVector.memoryBytes h
  exact hv.ne' (add_eq_right.mp hm)

end ResourceVector

end Belayer.Scheduler
