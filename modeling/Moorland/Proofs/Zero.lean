import Moorland.Proofs.Rounding.Packing
import Moorland.Proofs.Thresholds
/-!
# Zeros and signs

A channel without population holds a **zero**, of either sign (`Moorland.Single.IsZero`). This file
follows such a channel through a step. Zeros add up to a zero
(`Moorland.Single.zero_add_of_isZero`), and the thresholds take a sum of zero to a stored level of
zero (`Moorland.Thresholds.Sound.storedLevel_channel_zero`), although they may divide it: a lower
threshold of zero lets the sum into the band, and the midpoint of the band may be so small that it
is zero too. The quotient is then a NaN, which is stored as a zero.

That the zero comes out without a minus sign needs a midpoint without one. A sign does not depend on
how a number is rounded, so that numbers without a minus sign (`Moorland.Single.IsUnsigned`) have
sums and quotients without one, however large or small these are.
-/

namespace Moorland

open Float.Model (UnpackedFloat)
open Float.Model.UnpackedFloat (Sign)

namespace Single

/-! ### Zeros -/

/-- **A zero**, of either sign. -/
def IsZero (v : Float32) : Prop := ∃ s, v.toModel.unpack = .zero s

variable {v w : Float32}

theorem unpack_zero : (0 : Float32).toModel.unpack = .zero .positive := rfl

/-- **A level that is not above zero is a zero.** -/
theorem isZero_of_not_pos (hv : IsLevel v) (h : ¬0 < v) : IsZero v := by
  obtain ⟨hnan, hge, -⟩ := hv
  rw [lt_iff_compare, unpack_zero] at h
  rw [le_iff_compare, unpack_zero] at hge
  change v.toModel.unpack.isNaN = false at hnan
  rw [IsZero]
  cases hu : v.toModel.unpack with
  | notANumber =>
    rw [hu] at hnan
    cases hnan
  | zero s => exact ⟨s, rfl⟩
  | infinity s | finite s =>
    -- what is neither a zero nor a NaN is above zero or below it
    rw [hu] at h hge
    cases s with
    | negative => cases hge
    | positive => exact absurd rfl h

theorem IsZero.not_pos (hv : IsZero v) : ¬0 < v := by
  obtain ⟨s, hs⟩ := hv
  intro h
  rw [lt_iff_compare, unpack_zero, hs] at h
  cases h

theorem isZero_of_beq (h : (v == 0) = true) : IsZero v := by
  change (v.toModel.unpack.compare (0 : Float32).toModel.unpack == some .eq) = true at h
  rw [unpack_zero] at h
  rw [IsZero]
  cases hu : v.toModel.unpack with
  | notANumber =>
    rw [hu] at h
    cases h
  | zero s => exact ⟨s, rfl⟩
  | infinity s | finite s =>
    rw [hu] at h
    cases s <;> cases h

theorem beq_zero_of_isZero (hv : IsZero v) : (v == 0) = true := by
  obtain ⟨s, hs⟩ := hv
  change UnpackedFloat.beq v.toModel.unpack (0 : Float32).toModel.unpack = true
  rw [hs]
  rfl

/-- **Adding a zero to nothing leaves nothing**, without a sign. -/
theorem zero_add_of_isZero (hv : IsZero v) : 0 + v = 0 := by
  obtain ⟨s, hs⟩ := hv
  have hadd : 0 + v = .ofModel (.pack (UnpackedFloat.add .binary32 (.zero .positive)
      v.toModel.unpack)) := rfl
  rw [hadd, hs]
  cases s <;> rfl

/-! ### Numbers without a minus sign -/

/-- **The number has no minus sign**, or is a NaN and has no sign at all. -/
def IsUnsigned : UnpackedFloat → Prop
  | .notANumber => True
  | .infinity s => s = .positive
  | .zero s => s = .positive
  | .finite s _ _ _ => s = .positive

open Float.Model.UnpackedFloat in
theorem isUnsigned_unpack_packComponents (e : BitVec 8) (m : BitVec 23) :
    IsUnsigned (unpack .binary32 (packComponents .binary32 .positive e m)) := by
  rw [unpack]
  simp only [unpackSign_packComponents, Sign.ofBitVec_toBitVec]
  split
  · split
    · rfl
    · trivial
  · split
    · split <;> rfl
    · rfl

/-- **Packing a number keeps its sign**, even where the number does not fit. -/
theorem IsUnsigned.unpack_pack {u : UnpackedFloat} (hu : IsUnsigned u) :
    IsUnsigned (Float32.Model.pack u).unpack := by
  change IsUnsigned (.unpack .binary32 (UnpackedFloat.pack .binary32 u))
  cases u with
  | notANumber => exact isUnsigned_unpack_packComponents _ _
  | infinity s | zero s =>
    obtain rfl : s = .positive := hu
    exact isUnsigned_unpack_packComponents _ _
  | finite s m e hm =>
    obtain rfl : s = .positive := hu
    rw [UnpackedFloat.pack]
    dsimp only
    split
    · exact isUnsigned_unpack_packComponents _ _
    · split <;> exact isUnsigned_unpack_packComponents _ _

theorem isUnsigned_roundWithAccuracy (m : Nat) (e : Int) (a : UnpackedFloat.Accuracy) :
    IsUnsigned (.roundWithAccuracy .binary32 .positive m e a) := by
  rw [UnpackedFloat.roundWithAccuracy]
  dsimp only
  split <;> rfl

theorem isUnsigned_normalize {m : Int} (hm : 0 ≤ m) (e : Int) :
    IsUnsigned (.normalize .binary32 m e .positive) := by
  rw [UnpackedFloat.normalize]
  split
  · next h => exact absurd (Int.compare_eq_lt.mp h) (Int.not_lt.mpr hm)
  · rfl
  · exact isUnsigned_roundWithAccuracy _ _ _

theorem IsUnsigned.add {u w : UnpackedFloat} (hu : IsUnsigned u) (hw : IsUnsigned w) :
    IsUnsigned (.add .binary32 u w) := by
  cases u <;> cases w <;> try trivial
  all_goals
    obtain rfl := hu
    obtain rfl := hw
    try rfl
  · exact isUnsigned_normalize (Int.add_nonneg (Int.natCast_nonneg _) (Int.natCast_nonneg _)) _

theorem IsUnsigned.div {u w : UnpackedFloat} (hu : IsUnsigned u) (hw : IsUnsigned w) :
    IsUnsigned (.div .binary32 u w) := by
  cases u <;> cases w <;> try trivial
  all_goals
    obtain rfl := hu
    obtain rfl := hw
    try rfl
  · exact isUnsigned_roundWithAccuracy _ _ _

theorem isUnsigned_of_pos (h : 0 < v) : IsUnsigned v.toModel.unpack := by
  rw [lt_iff_compare, unpack_zero] at h
  cases hu : v.toModel.unpack with
  | notANumber => trivial
  | zero s =>
    rw [hu] at h
    cases h
  | infinity s | finite s =>
    rw [hu] at h
    cases s with
    | negative => cases h
    | positive => rfl

/-- **A sum with something above zero has no minus sign**, although the other summand may be a zero
that has one. -/
theorem isUnsigned_add (hv : 0 ≤ v) (hw : 0 < w) : IsUnsigned (v + w).toModel.unpack := by
  have hu := isUnsigned_of_pos hw
  refine IsUnsigned.unpack_pack (u := .add .binary32 v.toModel.unpack w.toModel.unpack) ?_
  rw [lt_iff_compare, unpack_zero] at hw
  rw [le_iff_compare, unpack_zero] at hv
  cases hv' : v.toModel.unpack with
  | notANumber => trivial
  | infinity s | finite s =>
    rw [hv'] at hv
    cases s with
    | negative => cases hv
    | positive => exact IsUnsigned.add rfl hu
  | zero s =>
    cases hw' : w.toModel.unpack with
    | notANumber => trivial
    | zero t =>
      rw [hw'] at hw
      cases hw
    | infinity t | finite t =>
      rw [hw'] at hu
      exact hu

/-- **Zero over a number** is a zero or a NaN, and without a minus sign if the number has none. -/
theorem zero_div_cases (u : UnpackedFloat) :
    UnpackedFloat.div .binary32 (.zero .positive) u = .notANumber ∨
      UnpackedFloat.div .binary32 (.zero .positive) u = .zero .positive ∨
      UnpackedFloat.div .binary32 (.zero .positive) u = .zero .negative ∧ ¬IsUnsigned u := by
  cases u with
  | notANumber | zero => exact .inl rfl
  | infinity s | finite s =>
    cases s with
    | negative => exact .inr (.inr ⟨rfl, nofun⟩)
    | positive => exact .inr (.inl rfl)

/-- **What is stored of zero over a number** is a zero, and without a minus sign if the number has
none. -/
theorem storedLevel_zero_div (m : Float32) :
    IsZero (storedLevel (unitClamp (0 / m))) ∧
      (IsUnsigned m.toModel.unpack → storedLevel (unitClamp (0 / m)) = 0) := by
  have hdiv : 0 / m = .ofModel (.pack (UnpackedFloat.div .binary32 (.zero .positive)
      m.toModel.unpack)) := rfl
  rw [hdiv]
  rcases zero_div_cases m.toModel.unpack with h | h | ⟨h, hsign⟩
  · rw [h]
    exact ⟨⟨.positive, rfl⟩, fun _ => rfl⟩
  · rw [h]
    exact ⟨⟨.positive, rfl⟩, fun _ => rfl⟩
  · rw [h]
    exact ⟨⟨.negative, rfl⟩, fun hm => absurd hm hsign⟩

end Single

/-! ### Sums of zero -/

namespace Thresholds

variable {t : Thresholds}

theorem Sound.isUnsigned_midpoint (ht : t.Sound) : Single.IsUnsigned t.midpoint.toModel.unpack := by
  have hsum := Single.isUnsigned_add ht.lower_nonneg ht.upper_pos
  have htwo : (0 : Float32) < 2 := by decide
  exact (hsum.div (Single.isUnsigned_of_pos htwo)).unpack_pack

/-- A sum of zero is outside the band, or it is divided by the midpoint. -/
theorem channel_zero (t : Thresholds) :
    t.channel 0 = unitClamp 0 ∨ t.channel 0 = unitClamp (0 / t.midpoint) := by
  rw [channel]
  split
  · exact .inl rfl
  · split
    · exact .inr rfl
    · exact .inl rfl

/-- **Nothing grows from nothing**, whatever the thresholds are. -/
theorem isZero_channel_zero (t : Thresholds) : Single.IsZero (storedLevel (t.channel 0)) := by
  rcases t.channel_zero with h | h
  · rw [h]
    exact ⟨.positive, rfl⟩
  · rw [h]
    exact (Single.storedLevel_zero_div t.midpoint).1

/-- **Sound thresholds store a sum of zero as the zero without a sign.** -/
theorem Sound.storedLevel_channel_zero (ht : t.Sound) : storedLevel (t.channel 0) = 0 := by
  rcases t.channel_zero with h | h
  · rw [h]
    rfl
  · rw [h]
    exact (Single.storedLevel_zero_div t.midpoint).2 ht.isUnsigned_midpoint

end Thresholds

end Moorland
