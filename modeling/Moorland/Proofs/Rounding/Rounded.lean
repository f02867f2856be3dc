import Moorland.Proofs.Divisor
import Moorland.Proofs.Rounding.Conversion
/-!
# Rounded sizes

The result of an operation in single precision has the size of the exact result, rounded to nearest.
Seen as a function of rationals this rounding (`Moorland.Single.rounded`) is monotone, keeps the
numbers of the format and so never passes one, and moves a number by a small part of it at most
(`Moorland.Single.abs_rounded_sub_le`). The other half of an operation, that the result is there at
all, needs that the exact one is not above the greatest power of two of the format
(`Moorland.Single.ceiling`). Sums and quotients of numbers that are not below zero are stated in
this form here (`Moorland.Single.Nonneg.add`, `Moorland.Single.Nonneg.div`).
-/

namespace Moorland

open Float.Model (Format UnpackedFloat)
open Float.Model.UnpackedFloat
open Rounding (bounded nearest magnitude IsRepresentable)

namespace Single

variable {v w : Float32} {s : Sign} {x y r : ℚ}

/-! ### Rounding as a function -/

/-- **What becomes of a size when it is rounded.** -/
def rounded (x : ℚ) : ℚ := magnitude (nearest .binary32 .positive x)

theorem magnitude_nearest_eq (s : Sign) (x : ℚ) :
    magnitude (nearest .binary32 s x) = rounded x := by
  rw [rounded, Rounding.magnitude_nearest, Rounding.magnitude_nearest]

@[simp] theorem rounded_zero : rounded 0 = 0 := by
  rw [rounded, Rounding.nearest_zero, Rounding.magnitude_zero]

theorem rounded_nonneg (x : ℚ) : 0 ≤ rounded x := Rounding.magnitude_nonneg _

theorem isRepresentable_one : IsRepresentable .binary32 1 :=
  size_one ▸ (canonical 1).isRepresentable

/-- **Rounding gives a number of the format.** -/
theorem isRepresentable_rounded (hx : 0 ≤ x) : IsRepresentable .binary32 (rounded x) :=
  (Rounding.canonical_nearest_of_nonneg hx).isRepresentable

/-- **Rounding is monotone.** -/
theorem rounded_mono (hx : 0 ≤ x) (h : x ≤ y) : rounded x ≤ rounded y := by
  rcases hx.eq_or_lt with rfl | hpos
  · rw [rounded_zero]
    exact rounded_nonneg y
  · exact Rounding.magnitude_nearest_mono hpos h

/-- **A number of the format is kept.** -/
theorem rounded_eq (hr : IsRepresentable .binary32 r) (h : 0 ≤ r) : rounded r = r := by
  rcases h.eq_or_lt with rfl | hpos
  · exact rounded_zero
  · exact le_antisymm (Rounding.magnitude_nearest_le hr hpos le_rfl)
      (Rounding.le_magnitude_nearest hr hpos le_rfl)

/-- **Rounding does not pass a number of the format** from below. -/
theorem rounded_le (hr : IsRepresentable .binary32 r) (hx : 0 ≤ x) (h : x ≤ r) : rounded x ≤ r :=
  (rounded_mono hx h).trans_eq (rounded_eq hr (hx.trans h))

/-- **Rounding does not pass a number of the format** from above. -/
theorem le_rounded (hr : IsRepresentable .binary32 r) (hr' : 0 ≤ r) (h : r ≤ x) : r ≤ rounded x :=
  (rounded_eq hr hr').symm.trans_le (rounded_mono hr' h)

theorem rounded_eq_nearestNat (x : ℚ) : rounded x =
    Rounding.nearestNat (Rounding.inUnits .binary32 x) * 2 ^ Rounding.unitExponent .binary32 x :=
  Rounding.magnitude_nearest _ _ _

/-- **Rounding moves a number by no more than half of a unit of its last digit**, which is a small
part of the number. -/
theorem abs_rounded_sub_le (hx : 1 ≤ x) : |rounded x - x| ≤ x / 2 ^ 24 := by
  have hpos : 0 < x := zero_lt_one.trans_le hx
  have hunit := Rounding.two_zpow_pos (Rounding.unitExponent .binary32 x)
  have hbound : (2 : ℚ) ^ Rounding.unitExponent .binary32 x ≤ x / 2 ^ 23 := by
    rw [le_div_iff₀ (by positivity), mul_comm]
    rcases Rounding.unitExponent_eq_or (S := .binary32) hpos with hmin | hfull
    · rw [hmin]
      refine le_trans ?_ hx
      change (2 : ℚ) ^ 23 * 2 ^ (-149 : ℤ) ≤ 1
      norm_num
    · exact (le_div_iff₀ hunit).mp hfull
  have hnear := Rounding.abs_nearestNat_sub_le
    (Rounding.inUnits_nonneg (S := .binary32) hpos)
  have hmove : rounded x - x = (Rounding.nearestNat (Rounding.inUnits .binary32 x) -
      Rounding.inUnits .binary32 x) * 2 ^ Rounding.unitExponent .binary32 x := by
    rw [sub_mul, Rounding.inUnits_mul, rounded_eq_nearestNat]
  rw [hmove, abs_mul, abs_of_pos hunit]
  calc |(Rounding.nearestNat (Rounding.inUnits .binary32 x) : ℚ) - Rounding.inUnits .binary32 x| *
        2 ^ Rounding.unitExponent .binary32 x
    _ ≤ 1 / 2 * (x / 2 ^ 23) := mul_le_mul hnear hbound hunit.le (by norm_num)
    _ = x / 2 ^ 24 := by ring

/-- **Twice a natural number is rounded to twice what the number is rounded to.** -/
theorem rounded_two_mul {n : ℕ} (hn : 0 < n) : rounded (2 * n) = 2 * rounded n := by
  have hdouble : (2 * n : ℚ) = n * 2 ^ (1 : ℤ) := by
    rw [zpow_one, mul_comm]
  have hsingle : (n : ℚ) = n * 2 ^ (0 : ℤ) := by
    rw [zpow_zero, mul_one]
  have hlog : Int.log 2 (2 * n : ℚ) = Int.log 2 (n : ℚ) + 1 := by
    rw [hdouble, Rounding.log_mul_zpow hn]
    conv_rhs => rw [hsingle, Rounding.log_mul_zpow hn]
    omega
  have hlog₀ : 0 ≤ Int.log 2 (n : ℚ) := by
    rw [hsingle, Rounding.log_mul_zpow hn]
    omega
  have hunit : Rounding.unitExponent .binary32 (2 * n : ℚ) =
      Rounding.unitExponent .binary32 (n : ℚ) + 1 := by
    have hmin : Format.minExponent .binary32 = -149 := rfl
    have hbits : Format.mantissaBits .binary32 = 24 := rfl
    rw [Rounding.unitExponent, Rounding.unitExponent, Format.targetExponent, Format.targetExponent,
      hlog, hmin, hbits]
    omega
  have hunits : Rounding.inUnits .binary32 (2 * n : ℚ) = Rounding.inUnits .binary32 (n : ℚ) := by
    rw [Rounding.inUnits, Rounding.inUnits, hunit, zpow_add_one₀ two_ne_zero, mul_comm (2 : ℚ),
      mul_div_mul_right _ _ two_ne_zero]
  rw [rounded_eq_nearestNat, rounded_eq_nearestNat, hunits, hunit, zpow_add_one₀ two_ne_zero]
  ring

/-- Half of a number of the format is one too, unless the number is very small. -/
theorem isRepresentable_div_two (hr : IsRepresentable .binary32 r) (h : 1 ≤ r) :
    IsRepresentable .binary32 (r / 2) := by
  obtain ⟨m, e, hm, he, rfl⟩ := hr
  refine ⟨m, e - 1, hm, ?_, ?_⟩
  · -- a number with the least exponent is far below one
    have hmin : Format.minExponent .binary32 = -149 := rfl
    rw [hmin] at he ⊢
    by_contra hlt
    obtain rfl : e = -149 := by omega
    have hm' : (m : ℚ) ≤ 2 ^ 24 := by exact_mod_cast hm.le
    have hsmall : (m : ℚ) * 2 ^ (-149 : ℤ) ≤ 2 ^ 24 * 2 ^ (-149 : ℤ) :=
      mul_le_mul_of_nonneg_right hm' (by positivity)
    exact absurd (h.trans hsmall) (by norm_num)
  · rw [zpow_sub_one₀ two_ne_zero, div_eq_mul_inv, mul_assoc]

/-- **Halving a rounded natural number is exact.** -/
theorem rounded_rounded_div_two (n : ℕ) : rounded (rounded n / 2) = rounded n / 2 := by
  rcases Nat.eq_zero_or_pos n with rfl | hn
  · simp
  · have hle : 1 ≤ rounded (n : ℚ) :=
      le_rounded isRepresentable_one zero_le_one (by exact_mod_cast hn)
    refine rounded_eq (isRepresentable_div_two (isRepresentable_rounded (Nat.cast_nonneg n)) hle) ?_
    exact (half_pos (zero_lt_one.trans_le hle)).le

/-! ### Results -/

/-- **The greatest power of two of the format.** What is not above it is not too large. -/
def ceiling : ℚ := 2 ^ (127 : ℤ)

theorem le_ceiling {n : ℕ} (hn : n ≤ 127) (h : x ≤ 2 ^ n) : x ≤ ceiling := by
  refine h.trans ?_
  rw [ceiling, ← zpow_natCast]
  exact zpow_le_zpow_right₀ one_le_two (by exact_mod_cast hn)

theorem one_le_ceiling : 1 ≤ ceiling := le_ceiling (Nat.zero_le 127) (pow_zero 2).ge

/-- **What is not above the ceiling** is not too large for the format. -/
theorem bounded_nearest (s : Sign) (hx : 0 < x) (hle : x ≤ ceiling) :
    bounded .binary32 (nearest .binary32 s x) = nearest .binary32 s x :=
  Rounding.bounded_nearest_of_le (by decide) s hx hle

/-- **A result that is not too large** is unpacked as it was packed. -/
theorem unpack_of_pack (hx : 0 ≤ x) (hle : x ≤ ceiling)
    (hv : v.toModel.unpack = unpack .binary32 (pack .binary32 (nearest .binary32 s x))) :
    v.toModel.unpack = nearest .binary32 s x := by
  rw [hv, Rounding.unpack_pack (Rounding.canonical_nearest_of_nonneg hx)]
  rcases hx.eq_or_lt with rfl | hpos
  · rw [Rounding.nearest_zero]
    rfl
  · exact bounded_nearest s hpos hle

theorem isFinite_of_nearest (h : v.toModel.unpack = nearest .binary32 s x) : v.isFinite = true := by
  change v.toModel.unpack.isFinite = true
  rw [h]
  exact Rounding.isFinite_nearest _ _ _

theorem size_of_nearest (h : v.toModel.unpack = nearest .binary32 s x) : size v = rounded x := by
  rw [size, h, magnitude_nearest_eq]

theorem nonneg_of_nearest (h : v.toModel.unpack = nearest .binary32 .positive x) : Nonneg v := by
  refine nonneg_of_isUnsigned (isFinite_of_nearest h) ?_
  rw [h]
  rcases Rounding.nearest_cases .binary32 .positive x with hx | ⟨m, e, hm, hx⟩ <;> rw [hx] <;> rfl

/-! ### Sums and quotients -/

theorem IsZero.add (hv : IsZero v) (hw : IsZero w) : IsZero (v + w) := by
  have hadd := unpack_add_eq v w
  obtain ⟨s, hs⟩ := hv
  obtain ⟨t, ht⟩ := hw
  rw [hs, ht] at hadd
  cases s <;> cases t <;> exact ⟨_, hadd.trans UnpackedFloat.unpack_packedZero⟩

/-- **The size of a sum** is the exact sum, rounded. -/
theorem Nonneg.add (hv : Nonneg v) (hw : Nonneg w) (hle : size v + size w ≤ ceiling) :
    Nonneg (v + w) ∧ size (v + w) = rounded (size v + size w) := by
  rcases (add_nonneg (size_nonneg v) (size_nonneg w)).eq_or_lt with hzero | hpos
  · have hv' := hv.isZero_or_pos.resolve_right (by linarith [size_nonneg w])
    have hw' := hw.isZero_or_pos.resolve_right (by linarith [size_nonneg v])
    have hsum := hv'.add hw'
    refine ⟨hsum.nonneg, ?_⟩
    rw [hsum.size_eq, ← hzero, rounded_zero]
  · have hunpack := unpack_add hv hw hpos
    rw [bounded_nearest .positive hpos hle] at hunpack
    exact ⟨nonneg_of_nearest hunpack, size_of_nearest hunpack⟩

/-- **The size of a quotient** is the exact quotient, rounded. -/
theorem Nonneg.div (hv : Nonneg v) (hw : Nonneg w) (hpos : 0 < size w)
    (hle : size v / size w ≤ ceiling) :
    Nonneg (v / w) ∧ size (v / w) = rounded (size v / size w) := by
  rcases hv.isZero_or_pos with hzero | hvpos
  · have hquot := hzero.div hw hpos
    refine ⟨hquot.nonneg, ?_⟩
    rw [hquot.size_eq, hzero.size_eq, zero_div, rounded_zero]
  · have hunpack := unpack_div hv hw hvpos hpos
    rw [bounded_nearest .positive (div_pos hvpos hpos) hle] at hunpack
    exact ⟨nonneg_of_nearest hunpack, size_of_nearest hunpack⟩

theorem Nonneg.half (hv : Nonneg v) (hle : size v ≤ ceiling) :
    Nonneg (v / 2) ∧ size (v / 2) = rounded (size v / 2) := by
  rw [← size_two]
  refine hv.div nonneg_two ?_ ?_ <;> rw [size_two]
  · exact two_pos
  · exact (half_le_self (size_nonneg v)).trans hle

end Single

end Moorland
