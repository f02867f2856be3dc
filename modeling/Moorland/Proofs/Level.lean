import Moorland.Cell
/-!
# Levels

A **level** is what a channel of a stored cell holds: a number between zero and one, both included,
and so never a NaN (`Moorland.IsLevel`). This file shows that clamping does its work:
`Moorland.storedLevel` gives a level whatever it is applied to (`Moorland.isLevel_storedLevel`).

The one fact about single precision behind this is that **two numbers are comparable unless one of
them is a NaN** (`Moorland.Single.le_or_lt`). It is read off the comparison of unpacked numbers,
which answers nothing exactly if one of the two is a NaN, and is turned around when the two are
exchanged.
-/

namespace Moorland

open Float.Model (UnpackedFloat)
open Float.Model.UnpackedFloat (Sign)

namespace Single

/-! ### Comparing unpacked numbers -/

/-- **Only a NaN is incomparable.** -/
theorem compare_eq_none_iff {a b : UnpackedFloat} :
    a.compare b = none ↔ a.isNaN = true ∨ b.isNaN = true := by
  -- one of the two is a NaN, or neither of them is
  rcases a with (_ | _) | _ | _ | ⟨_ | _, m, e, hm⟩ <;>
    rcases b with (_ | _) | _ | _ | ⟨_ | _, n, f, hn⟩ <;>
    first
    | exact ⟨fun _ => .inl rfl, fun _ => rfl⟩
    | exact ⟨fun _ => .inr rfl, fun _ => rfl⟩
    | exact ⟨nofun, fun h => h.elim nofun nofun⟩

/-- Exchanging two pairs of an exponent and a significand turns their lexicographic comparison
around. -/
theorem swap_compare_then (e f : Int) (m n : Nat) :
    ((compare e f).then (compare m n)).swap = (compare f e).then (compare n m) := by
  rw [Ordering.swap_then, ← Std.OrientedCmp.eq_swap, ← Std.OrientedCmp.eq_swap]

/-- **Exchanging two numbers turns their comparison around.** -/
theorem compare_swap (a b : UnpackedFloat) : (a.compare b).map Ordering.swap = b.compare a := by
  -- a finite number is compared by its significand only with one of the same sign
  rcases a with (_ | _) | _ | s | ⟨_ | _, m, e, hm⟩ <;>
    rcases b with (_ | _) | _ | t | ⟨_ | _, n, f, hn⟩ <;> try rfl
  · exact congrArg some (congrArg Ordering.swap (swap_compare_then e f m n))
  · exact congrArg some (swap_compare_then e f m n)

/-! ### The order of single precision -/

theorem lt_iff_compare {a b : Float32} :
    a < b ↔ a.toModel.unpack.compare b.toModel.unpack = some .lt := by
  change decide (a.toModel < b.toModel) = true ↔ _
  rw [decide_eq_true_iff]
  exact beq_iff_eq

theorem le_iff_compare {a b : Float32} :
    a ≤ b ↔ (a.toModel.unpack.compare b.toModel.unpack).any Ordering.isLE = true := by
  change decide (a.toModel ≤ b.toModel) = true ↔ _
  exact decide_eq_true_iff

/-- **Two numbers are comparable unless one of them is a NaN.** -/
theorem le_or_lt {a b : Float32} (ha : a.isNaN = false) (hb : b.isNaN = false) :
    a ≤ b ∨ b < a := by
  rw [le_iff_compare, lt_iff_compare, ← compare_swap a.toModel.unpack]
  rcases h : a.toModel.unpack.compare b.toModel.unpack with _ | _ | _ | _
  · rcases compare_eq_none_iff.mp h with h | h
    · exact absurd h (Bool.eq_false_iff.mp ha)
    · exact absurd h (Bool.eq_false_iff.mp hb)
  · exact Or.inl rfl
  · exact Or.inl rfl
  · exact Or.inr rfl

theorem not_lt_of_le {a b : Float32} (h : a ≤ b) : ¬b < a := by
  rw [le_iff_compare, ← compare_swap b.toModel.unpack] at h
  rw [lt_iff_compare]
  intro hlt
  rw [hlt] at h
  cases h

/-- A finite number is not a NaN. -/
theorem isNaN_of_isFinite {a : Float32} (h : a.isFinite = true) : a.isNaN = false := by
  change a.toModel.unpack.isFinite = true at h
  change a.toModel.unpack.isNaN = false
  generalize a.toModel.unpack = u at h ⊢
  cases u with
  | notANumber | infinity => cases h
  | zero | finite => rfl

end Single

/-! ### Levels -/

/-- **A level**: a number between zero and one. -/
def IsLevel (v : Float32) : Prop := v.isNaN = false ∧ 0 ≤ v ∧ v ≤ 1

instance (v : Float32) : Decidable (IsLevel v) :=
  inferInstanceAs (Decidable (v.isNaN = false ∧ 0 ≤ v ∧ v ≤ 1))

theorem isLevel_zero : IsLevel 0 := by decide

theorem isLevel_one : IsLevel 1 := by decide

/-- **Clamping gives a level**, unless it is applied to a NaN. -/
theorem isLevel_unitClamp {v : Float32} (hv : v.isNaN = false) : IsLevel (unitClamp v) := by
  rw [unitClamp]
  by_cases h₀ : v < 0
  · rw [if_pos h₀]
    exact isLevel_zero
  · rw [if_neg h₀]
    by_cases h₁ : 1 < v
    · rw [if_pos h₁]
      exact isLevel_one
    · rw [if_neg h₁]
      exact ⟨hv, (Single.le_or_lt isLevel_zero.1 hv).resolve_right h₀,
        (Single.le_or_lt hv isLevel_one.1).resolve_right h₁⟩

/-- **Every stored level is a level**, whatever it is the stored form of. -/
theorem isLevel_storedLevel (v : Float32) : IsLevel (storedLevel v) := by
  rw [storedLevel]
  rcases hv : v.isNaN with _ | _
  · exact isLevel_unitClamp hv
  · exact isLevel_zero

/-- **Clamping keeps a level as it is**, a zero with its sign included. -/
theorem IsLevel.unitClamp_eq {v : Float32} (hv : IsLevel v) : unitClamp v = v := by
  rw [unitClamp, if_neg (Single.not_lt_of_le hv.2.1), if_neg (Single.not_lt_of_le hv.2.2)]

/-- **A level is stored as it is.** -/
theorem IsLevel.storedLevel_eq {v : Float32} (hv : IsLevel v) : storedLevel v = v := by
  rw [storedLevel, hv.1, if_neg Bool.false_ne_true, hv.unitClamp_eq]

end Moorland
