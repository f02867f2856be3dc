import Moorland.Configuration.File
import Moorland.Proofs.Thresholds
/-!
# Faults of a configuration

`Moorland.Configuration.fault?` looks for one fault after the other. A configuration has none if
its sides are in range, its thresholds can be resolved, its intensities can be used and its
summaries have an interval (`Moorland.Configuration.fault?_eq_none_iff`).

Resolved thresholds pass the check of pairs a second time
(`Moorland.ThresholdSection.check_of_resolve`): a pair has passed it already, and the pairs of the
presets, which go around it, would pass it too.
-/

namespace Moorland

/-- **The pair of a preset passes the check.** -/
theorem Preset.check_thresholds (p : Preset) :
    Thresholds.check p.thresholds.lower p.thresholds.upper = .ok p.thresholds := by
  cases p <;> rfl

namespace ThresholdSection

variable {t : ThresholdSection} {thresholds : Thresholds}

/-- A preset stands in for the pair, whatever that is. -/
theorem resolve_of_preset {p : Preset} (hp : t.preset = some p) : t.resolve = .ok p.thresholds := by
  rw [resolve, hp]

/-- **Resolved thresholds pass the check**, and are kept by it as they are. -/
theorem check_of_resolve (ht : t.resolve = .ok thresholds) :
    Thresholds.check thresholds.lower thresholds.upper = .ok thresholds := by
  rcases hp : t.preset with _ | p
  · rw [resolve, hp] at ht
    obtain ⟨-, rfl⟩ := Thresholds.check_eq_ok_iff.mp ht
    exact ht
  · obtain rfl : p.thresholds = thresholds := Except.ok.inj ((resolve_of_preset hp).symm.trans ht)
    exact p.check_thresholds

theorem fault?_eq_none_iff : t.fault? = none ↔ ∃ thresholds, t.resolve = .ok thresholds := by
  rw [fault?]
  rcases t.resolve with refusal | thresholds
  · exact ⟨nofun, nofun⟩
  · exact ⟨fun _ => ⟨thresholds, rfl⟩, fun _ => rfl⟩

end ThresholdSection

namespace Configuration

/-- **A configuration has no fault** exactly if each of its values can be used. -/
theorem fault?_eq_none_iff {c : Configuration} :
    c.fault? = none ↔
      (0 < c.grid.width ∧ c.grid.width ≤ maxSide) ∧ (0 < c.grid.height ∧ c.grid.height ≤ maxSide) ∧
        (∃ thresholds, c.thresholds.resolve = .ok thresholds) ∧
        (isIntensity c.init.red = true ∧ isIntensity c.init.green = true ∧
          isIntensity c.init.blue = true) ∧
        c.logInterval ≠ 0 := by
  rw [← ThresholdSection.fault?_eq_none_iff, fault?]
  rcases c.thresholds.fault? with _ | fault
  · grind
  · grind

/-- **The size of a grid that a configuration may ask for** fits in a word. -/
theorem size_lt {c : Configuration} (h : c.fault? = none) :
    c.grid.width * c.grid.height < UInt64.size := by
  obtain ⟨⟨-, hw⟩, ⟨-, hh⟩, -⟩ := fault?_eq_none_iff.mp h
  have hle : c.grid.width * c.grid.height ≤ maxSide * maxSide := Nat.mul_le_mul hw hh
  exact Nat.lt_of_le_of_lt hle (by decide)

/-- **What cannot be a fault does not matter**: how many generations are kept, which pixels a stamp
skips, and how long the interval of the summaries is. -/
theorem fault?_congr {c d : Configuration} (hw : d.grid.width = c.grid.width)
    (hh : d.grid.height = c.grid.height) (ht : d.thresholds = c.thresholds) (hi : d.init = c.init)
    (hl : d.logInterval = 0 ↔ c.logInterval = 0) : d.fault? = c.fault? := by
  simp only [fault?, hw, hh, ht, hi, hl]

/-- **The check refuses a configuration** for its first fault. -/
theorem check_eq_error_iff {c : Configuration} {fault : ConfigurationFault} :
    c.check = .error fault ↔ c.fault? = some fault := by
  rw [check]
  split <;> simp [*]

/-- **A text gives only configurations that pass the check.** -/
theorem check_of_ofToml {text : String} {c : Configuration} (hc : ofToml text = .ok c) :
    c.check = .ok c := by
  rw [ofToml] at hc
  split at hc
  · cases hc
  · have hcheck := mapError_eq_ok_iff.mp hc
    obtain ⟨-, rfl⟩ := check_eq_ok_iff.mp hcheck
    exact hcheck

end Configuration

end Moorland
