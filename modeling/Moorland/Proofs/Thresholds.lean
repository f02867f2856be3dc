import Moorland.Preset
import Moorland.Proofs.Level
/-!
# Sound thresholds

Thresholds in effect are **sound**: finite, the lower one at least zero and at most the upper one,
and the upper one above zero (`Moorland.Thresholds.Sound`). The check lets through sound pairs only
(`Moorland.Thresholds.sound_of_check`). The presets go around it, and are sound all the same
(`Moorland.Preset.sound_thresholds`).
-/

namespace Moorland

/-- **Sound thresholds.** -/
structure Thresholds.Sound (t : Thresholds) : Prop where
  /-- The lower threshold is finite. -/
  lower_finite : t.lower.isFinite = true
  /-- The upper threshold is finite. -/
  upper_finite : t.upper.isFinite = true
  /-- The lower threshold is not below zero. -/
  lower_nonneg : 0 ≤ t.lower
  /-- The thresholds are in order. -/
  lower_le : t.lower ≤ t.upper
  /-- The upper threshold is above zero. -/
  upper_pos : 0 < t.upper

instance (t : Thresholds) : Decidable t.Sound :=
  decidable_of_iff
    (t.lower.isFinite = true ∧ t.upper.isFinite = true ∧ 0 ≤ t.lower ∧ t.lower ≤ t.upper ∧
      0 < t.upper)
    ⟨fun ⟨h₁, h₂, h₃, h₄, h₅⟩ => ⟨h₁, h₂, h₃, h₄, h₅⟩,
      fun ⟨h₁, h₂, h₃, h₄, h₅⟩ => ⟨h₁, h₂, h₃, h₄, h₅⟩⟩

namespace Thresholds

variable {lower upper : Float32} {t : Thresholds}

/-- **A pair without a flaw is sound.** -/
theorem sound_of_flaw (h : flaw? lower upper = none) : Sound ⟨lower, upper⟩ := by
  rw [flaw?] at h
  split at h
  · cases h
  next hfinite =>
  split at h
  · cases h
  next hneg =>
  split at h
  · cases h
  next horder =>
  split at h
  · cases h
  next hzero =>
  obtain ⟨hl, hu⟩ : lower.isFinite = true ∧ upper.isFinite = true := by simpa using hfinite
  -- of two numbers neither of which is a NaN, what is not below is at least as great
  have hln := Single.isNaN_of_isFinite hl
  have hun := Single.isNaN_of_isFinite hu
  have hzn : (0 : Float32).isNaN = false := isLevel_zero.1
  exact ⟨hl, hu, (Single.le_or_lt hzn hln).resolve_right hneg,
    (Single.le_or_lt hln hun).resolve_right horder,
    (Single.le_or_lt hun hzn).resolve_left hzero⟩

/-- **The check lets through sound pairs only.** -/
theorem sound_of_check (h : check lower upper = .ok t) : t.Sound := by
  obtain ⟨hflaw, rfl⟩ := check_eq_ok_iff.mp h
  exact sound_of_flaw hflaw

end Thresholds

/-- **The thresholds of the presets are sound.** -/
theorem Preset.sound_thresholds (p : Preset) : p.thresholds.Sound := by
  cases p <;> decide

end Moorland
