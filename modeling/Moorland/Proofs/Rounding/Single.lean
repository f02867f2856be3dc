import Moorland.Proofs.Rounding.Arithmetic
import Moorland.Proofs.Rounding.Packing
import Moorland.Proofs.Zero
/-!
# Sums and quotients in single precision

The **size** of a single-precision number is its value without the sign, a rational
(`Moorland.Single.size`). This file says what sums and quotients of numbers that are not below zero
are, in terms of sizes: the exact sum or quotient, rounded to nearest and infinite if it is too
large for the format (`Moorland.Single.unpack_add`, `Moorland.Single.unpack_div`).

Numbers are compared by exponent first and by significand after that, which is the order of their
sizes because both are canonical (`Moorland.Rounding.compare_finite`).
-/

namespace Moorland

open Float.Model (Format UnpackedFloat)
open Float.Model.UnpackedFloat

/-! ### The order of canonical numbers -/

namespace Rounding

variable {S : Format} {m n : ℕ} {e f : ℤ} {x : ℚ} {u w : UnpackedFloat}

/-- **Of two canonical numbers, the one with the greater exponent is the greater one.** -/
theorem IsCanonical.mul_zpow_lt (hm : IsCanonical S m e) (hn : IsCanonical S n f) (h : e < f) :
    (m : ℚ) * 2 ^ e < n * 2 ^ f := by
  have hmin := hm.le
  have hbits := mantissaBits_eq S
  have hfull : 2 ^ S.mantissaBitsWithoutImplicit ≤ n := hn.normal.resolve_right (by omega)
  calc (m : ℚ) * 2 ^ e < 2 ^ S.mantissaBits * 2 ^ e :=
        mul_lt_mul_of_pos_right (by exact_mod_cast hm.lt) (two_zpow_pos e)
    _ = 2 ^ (S.mantissaBits + e) := by rw [zpow_add₀ two_ne_zero, zpow_natCast]
    _ ≤ 2 ^ (S.mantissaBitsWithoutImplicit + f) :=
        zpow_le_zpow_right₀ one_le_two (by omega)
    _ = 2 ^ S.mantissaBitsWithoutImplicit * 2 ^ f := by
        rw [zpow_add₀ two_ne_zero, zpow_natCast]
    _ ≤ n * 2 ^ f := mul_le_mul_of_nonneg_right (by exact_mod_cast hfull) (two_zpow_pos f).le

/-- **Canonical numbers are compared as rationals.** -/
theorem compare_finite (hm : IsCanonical S m e) (hn : IsCanonical S n f) :
    (compare e f).then (compare m n) = compare ((m : ℚ) * 2 ^ e) (n * 2 ^ f) := by
  rcases lt_trichotomy e f with h | rfl | h
  · rw [compare_lt_iff_lt.mpr h, compare_lt_iff_lt.mpr (hm.mul_zpow_lt hn h)]
    rfl
  · rw [compare_eq_iff_eq.mpr rfl, Ordering.eq_then]
    rcases lt_trichotomy m n with h | rfl | h
    · rw [compare_lt_iff_lt.mpr h, compare_lt_iff_lt.mpr]
      exact mul_lt_mul_of_pos_right (by exact_mod_cast h) (two_zpow_pos e)
    · rw [compare_eq_iff_eq.mpr rfl, compare_eq_iff_eq.mpr rfl]
    · rw [compare_gt_iff_gt.mpr h, compare_gt_iff_gt.mpr]
      exact mul_lt_mul_of_pos_right (by exact_mod_cast h) (two_zpow_pos e)
  · rw [compare_gt_iff_gt.mpr h, compare_gt_iff_gt.mpr (hn.mul_zpow_lt hm h)]
    rfl

theorem IsCanonical.isRepresentable (hm : IsCanonical S m e) : IsRepresentable S (m * 2 ^ e) :=
  ⟨m, e, hm.lt, hm.le, rfl⟩

theorem Canonical.isRepresentable (hu : Canonical S u) : IsRepresentable S (magnitude u) := by
  cases u with
  | notANumber | infinity | zero =>
    exact ⟨0, S.minExponent, Nat.two_pow_pos _, le_rfl, by simp [magnitude]⟩
  | finite s m e hm => exact IsCanonical.isRepresentable hu

theorem IsRepresentable.two_mul {r : ℚ} (hr : IsRepresentable S r) : IsRepresentable S (2 * r) := by
  obtain ⟨m, e, hm, he, rfl⟩ := hr
  refine ⟨m, e + 1, hm, by omega, ?_⟩
  rw [zpow_add_one₀ two_ne_zero]
  ring

/-- **Every number of a format is a multiple of its least number above zero.** -/
theorem IsRepresentable.exists_nat_mul {r : ℚ} (hr : IsRepresentable S r) :
    ∃ k : ℕ, r = k * 2 ^ S.minExponent := by
  obtain ⟨m, e, -, he, rfl⟩ := hr
  refine ⟨m * 2 ^ (e - S.minExponent).toNat, ?_⟩
  have hexp : ((e - S.minExponent).toNat : ℤ) + S.minExponent = e := by omega
  rw [Nat.cast_mul, Nat.cast_pow, Nat.cast_ofNat, mul_assoc, ← zpow_natCast,
    ← zpow_add₀ two_ne_zero, hexp]

theorem magnitude_nonneg (u : UnpackedFloat) : 0 ≤ magnitude u := by
  cases u with
  | notANumber | infinity | zero => exact le_rfl
  | finite s m e hm => exact (mul_zpow_pos hm e).le

/-- **A number that is not greater than one within bounds is within bounds itself.** -/
theorem bounded_of_magnitude_le (hu : Canonical S u) (hw : Canonical S w)
    (hbound : bounded S w = w) (hle : magnitude u ≤ magnitude w) : bounded S u = u := by
  cases u with
  | notANumber | infinity | zero => rfl
  | finite s m e hm =>
    rw [bounded, if_pos]
    cases w with
    | notANumber | infinity | zero => exact absurd hle (not_le.mpr (mul_zpow_pos hm e))
    | finite t n f hn =>
      have hf : f ≤ maxExponent S := by
        by_contra hgt
        rw [bounded, if_neg hgt] at hbound
        cases hbound
      by_contra hgt
      exact absurd hle (not_le.mpr (IsCanonical.mul_zpow_lt hw hu (by omega)))

theorem isFinite_nearest (S : Format) (s : Sign) (x : ℚ) : (nearest S s x).isFinite = true := by
  rcases nearest_cases S s x with h | ⟨m, e, hm, h⟩ <;> rw [h] <;> rfl

/-- **What does not fit is infinite.** -/
theorem bounded_nearest_cases (S : Format) (s : Sign) (x : ℚ) :
    (bounded S (nearest S s x)).isFinite = true ∧ bounded S (nearest S s x) = nearest S s x ∨
      bounded S (nearest S s x) = .infinity s := by
  rcases nearest_cases S s x with h | ⟨m, e, hm, h⟩ <;> rw [h]
  · exact .inl ⟨rfl, rfl⟩
  · rw [bounded]
    split_ifs
    · exact .inl ⟨rfl, rfl⟩
    · exact .inr rfl

end Rounding

/-! ### Sizes -/

namespace Single

open Rounding (bounded nearest magnitude magnitude_zero magnitude_finite Canonical canonical_unpack
  bounded_unpack unpack_pack mul_zpow_pos)

variable {v w : Float32}

/-- **The size of a number**, without its sign; zero for what is not finite. -/
def size (v : Float32) : ℚ := magnitude v.toModel.unpack

theorem size_nonneg (v : Float32) : 0 ≤ size v := Rounding.magnitude_nonneg _

theorem unpack_inj : v.toModel.unpack = w.toModel.unpack ↔ v = w := by
  refine ⟨fun h => Float32.toBits_inj.mp (UInt32.toBitVec_inj.mp ?_),
    congrArg fun v : Float32 => v.toModel.unpack⟩
  exact (UnpackedFloat.unpack_inj_of_valid v.toModel.valid w.toModel.valid).mp h

theorem canonical (v : Float32) : Canonical .binary32 v.toModel.unpack := canonical_unpack _

theorem bounded_eq (v : Float32) : bounded .binary32 v.toModel.unpack = v.toModel.unpack :=
  bounded_unpack (by decide) _

/-- **A finite number that is not below zero.** -/
structure Nonneg (v : Float32) : Prop where
  /-- The number is finite. -/
  isFinite : v.isFinite = true
  /-- The number is not below zero. -/
  le : 0 ≤ v

/-- A finite number that is not below zero is a zero, or a significand and an exponent. -/
theorem Nonneg.cases (hv : Nonneg v) :
    (∃ s, v.toModel.unpack = .zero s) ∨
      ∃ m e hm, v.toModel.unpack = .finite .positive m e hm := by
  obtain ⟨hfinite, hle⟩ := hv
  change v.toModel.unpack.isFinite = true at hfinite
  rw [le_iff_compare, unpack_zero] at hle
  cases hu : v.toModel.unpack with
  | notANumber | infinity =>
    rw [hu] at hfinite
    cases hfinite
  | zero s => exact .inl ⟨s, rfl⟩
  | finite s m e hm =>
    rw [hu] at hle
    cases s with
    | negative => cases hle
    | positive => exact .inr ⟨m, e, hm, rfl⟩

/-- **Numbers that are not below zero are compared by their sizes.** -/
theorem Nonneg.compare_eq (hv : Nonneg v) (hw : Nonneg w) :
    v.toModel.unpack.compare w.toModel.unpack = some (compare (size v) (size w)) := by
  have hcv := canonical v
  have hcw := canonical w
  rw [size, size]
  rcases hv.cases with ⟨s, hs⟩ | ⟨m, e, hm, hs⟩ <;>
    rcases hw.cases with ⟨t, ht⟩ | ⟨n, f, hn, ht⟩ <;>
    rw [hs] at hcv ⊢ <;> rw [ht] at hcw ⊢
  · exact congrArg some (compare_eq_iff_eq.mpr rfl).symm
  · exact congrArg some (compare_lt_iff_lt.mpr (mul_zpow_pos hn f)).symm
  · exact congrArg some (compare_gt_iff_gt.mpr (mul_zpow_pos hm e)).symm
  · exact congrArg some (Rounding.compare_finite hcv hcw)

theorem Nonneg.le_iff (hv : Nonneg v) (hw : Nonneg w) : v ≤ w ↔ size v ≤ size w := by
  rw [le_iff_compare, hv.compare_eq hw, Option.any_some, Ordering.isLE_iff_ne_gt]
  exact compare_le_iff_le

theorem Nonneg.lt_iff (hv : Nonneg v) (hw : Nonneg w) : v < w ↔ size v < size w := by
  rw [lt_iff_compare, hv.compare_eq hw, Option.some_inj, compare_lt_iff_lt]

/-- **Numbers that are not below zero are numerically equal** if their sizes are. -/
theorem Nonneg.beq_iff (hv : Nonneg v) (hw : Nonneg w) : (v == w) = true ↔ size v = size w := by
  change (v.toModel.unpack.compare w.toModel.unpack == some .eq) = true ↔ _
  rw [hv.compare_eq hw, beq_iff_eq, Option.some_inj, compare_eq_iff_eq]

/-- **A number that is not below zero is a zero or above it.** -/
theorem Nonneg.isZero_or_pos (hv : Nonneg v) : IsZero v ∨ 0 < size v := by
  rcases hv.cases with hzero | ⟨m, e, hm, hs⟩
  · exact .inl hzero
  · right
    rw [size, hs]
    exact mul_zpow_pos hm e

theorem IsZero.size_eq (hv : IsZero v) : size v = 0 := by
  obtain ⟨s, hs⟩ := hv
  rw [size, hs, magnitude_zero]

/-- A finite number without a minus sign is not below zero. -/
theorem nonneg_of_isUnsigned (hfinite : v.isFinite = true) (hsign : IsUnsigned v.toModel.unpack) :
    Nonneg v := by
  refine ⟨hfinite, ?_⟩
  change v.toModel.unpack.isFinite = true at hfinite
  rw [le_iff_compare, unpack_zero]
  cases hu : v.toModel.unpack with
  | notANumber | infinity =>
    rw [hu] at hfinite
    cases hfinite
  | zero s => rfl
  | finite s m e hm =>
    rw [hu] at hsign
    obtain rfl : s = .positive := hsign
    rfl

/-! ### Zero, one and two -/

theorem IsZero.nonneg (hv : IsZero v) : Nonneg v := by
  obtain ⟨s, hs⟩ := hv
  refine ⟨?_, ?_⟩
  · change v.toModel.unpack.isFinite = true
    rw [hs]
    rfl
  · rw [le_iff_compare, unpack_zero, hs]
    rfl

theorem nonneg_zero : Nonneg 0 := ⟨rfl, by decide⟩

theorem unpack_one :
    (1 : Float32).toModel.unpack = .finite .positive (2 ^ 23) (-23) (by decide) := rfl

theorem unpack_two :
    (2 : Float32).toModel.unpack = .finite .positive (2 ^ 23) (-22) (by decide) := rfl

theorem nonneg_one : Nonneg 1 := ⟨by decide, by decide⟩

theorem nonneg_two : Nonneg 2 := ⟨by decide, by decide⟩

theorem size_zero : size 0 = 0 := by
  rw [size, unpack_zero, magnitude_zero]

theorem size_one : size 1 = 1 := by
  rw [size, unpack_one, Rounding.magnitude_finite]
  norm_num

theorem size_two : size 2 = 2 := by
  rw [size, unpack_two, Rounding.magnitude_finite]
  norm_num

theorem Nonneg.pos_iff (hv : Nonneg v) : 0 < v ↔ 0 < size v :=
  Nonneg.lt_iff ⟨rfl, by decide⟩ hv

/-! ### Operations -/

theorem unpack_add_eq (v w : Float32) : (v + w).toModel.unpack = .unpack .binary32
    (UnpackedFloat.pack .binary32 (.add .binary32 v.toModel.unpack w.toModel.unpack)) := rfl

theorem unpack_div_eq (v w : Float32) : (v / w).toModel.unpack = .unpack .binary32
    (UnpackedFloat.pack .binary32 (.div .binary32 v.toModel.unpack w.toModel.unpack)) := rfl

/-- **A sum is the exact sum, rounded to nearest**, and infinite if that is too large. -/
theorem unpack_add (hv : Nonneg v) (hw : Nonneg w) (hpos : 0 < size v + size w) :
    (v + w).toModel.unpack =
      bounded .binary32 (nearest .binary32 .positive (size v + size w)) := by
  have hcanonical := Rounding.canonical_nearest (S := .binary32) (s := .positive) hpos
  rw [unpack_add_eq, ← Rounding.unpack_pack hcanonical]
  refine congrArg (fun u => UnpackedFloat.unpack _ (UnpackedFloat.pack _ u)) ?_
  have hcv := canonical v
  have hcw := canonical w
  clear hcanonical
  rw [size, size] at hpos ⊢
  rcases hv.cases with ⟨s, hs⟩ | ⟨m, e, hm, hs⟩ <;>
    rcases hw.cases with ⟨t, ht⟩ | ⟨n, f, hn, ht⟩ <;>
    rw [hs] at hcv hpos ⊢ <;> rw [ht] at hcw hpos ⊢
  · exact absurd hpos (by simp)
  · rw [magnitude_zero, magnitude_finite, zero_add, Rounding.IsCanonical.nearest_eq hcw hn]
    rfl
  · rw [magnitude_zero, magnitude_finite, add_zero, Rounding.IsCanonical.nearest_eq hcv hm]
    rfl
  · exact Rounding.add_finite_eq hm hn

/-- **A quotient is the exact quotient, rounded to nearest**, and infinite if that is too large. -/
theorem unpack_div (hv : Nonneg v) (hw : Nonneg w) (hvpos : 0 < size v) (hwpos : 0 < size w) :
    (v / w).toModel.unpack =
      bounded .binary32 (nearest .binary32 .positive (size v / size w)) := by
  have hcanonical :=
    Rounding.canonical_nearest (S := .binary32) (s := .positive) (div_pos hvpos hwpos)
  rw [unpack_div_eq, ← Rounding.unpack_pack hcanonical]
  refine congrArg (fun u => UnpackedFloat.unpack _ (UnpackedFloat.pack _ u)) ?_
  clear hcanonical
  rw [size] at hvpos hwpos ⊢
  rw [size]
  rcases hv.cases with ⟨s, hs⟩ | ⟨m, e, hm, hs⟩ <;>
    rcases hw.cases with ⟨t, ht⟩ | ⟨n, f, hn, ht⟩ <;>
    rw [hs] at hvpos ⊢ <;> rw [ht] at hwpos ⊢
  · exact absurd hvpos (lt_irrefl _)
  · exact absurd hvpos (lt_irrefl _)
  · exact absurd hwpos (lt_irrefl _)
  · exact Rounding.div_finite_eq hm hn

/-- **A result that is bounded by a number is finite.** -/
theorem bounded_nearest_eq {x : ℚ} (hx : 0 < x)
    (hle : magnitude (nearest .binary32 .positive x) ≤ size w) :
    bounded .binary32 (nearest .binary32 .positive x) = nearest .binary32 .positive x :=
  Rounding.bounded_of_magnitude_le (Rounding.canonical_nearest hx) (canonical w) (bounded_eq w) hle

end Single

end Moorland
