import Moorland.Decimal.Style
import Moorland.Proofs.Rounding.Conversion
/-!
# A sign and a size

A number is its size with its sign put before it (`Moorland.Double.withSign_abs`), so that two
numbers of one sign and one size are the same (`Moorland.Single.eq_of_abs_eq`). The sign is the
first bit of the number, zeros included, and the size is the number with that bit cleared, so that
nothing is rounded on the way.
-/

namespace Moorland

open Float.Model (Format UnpackedFloat)
open Float.Model.UnpackedFloat
open Rounding (Canonical bounded)

namespace Rounding

variable {S : Format} {s : Sign} {u w : UnpackedFloat}

theorem Canonical.abs (hu : Canonical S u) : Canonical S u.abs := by
  cases u with
  | notANumber | infinity | zero => trivial
  | finite s m e hm => exact hu

theorem bounded_abs (u : UnpackedFloat) : bounded S u.abs = (bounded S u).abs := by
  cases u with
  | notANumber | infinity | zero => rfl
  | finite s m e hm =>
    simp only [UnpackedFloat.abs, bounded]
    split <;> rfl

/-- **The number has the sign**; a NaN has any. -/
def HasSign (s : Sign) : UnpackedFloat → Prop
  | .notANumber => True
  | .infinity t | .zero t | .finite t _ _ _ => t = s

theorem hasSign_unpack (b : BitVec S.numBits) :
    HasSign (.ofBitVec (unpackSign b)) (unpack S b) := by
  rw [unpack]
  split_ifs
  all_goals first | rfl | trivial

/-- A number with a sign put before it. -/
def signed (u : UnpackedFloat) : Sign → UnpackedFloat
  | .positive => u
  | .negative => u.neg

/-- **A number is its size with its sign before it.** -/
theorem HasSign.signed_abs (hu : HasSign s u) : signed u.abs s = u := by
  cases u with
  | notANumber => cases s <;> rfl
  | infinity t | zero t | finite t m e hm =>
    obtain rfl : t = s := hu
    cases t <;> rfl

/-- **A number is told by its sign and its size.** -/
theorem eq_of_abs_eq (hu : HasSign s u) (hw : HasSign s w) (h : u.abs = w.abs) : u = w := by
  rw [← hu.signed_abs, ← hw.signed_abs, h]

/-- **The sign is the first bit.** -/
theorem ofBitVec_unpackSign (b : BitVec S.numBits) :
    Sign.ofBitVec (unpackSign b) =
      if 2 ^ (S.mantissaBitsWithoutImplicit + S.exponentBits) ≤ b.toNat then .negative
      else .positive := by
  have hlt : b.toNat <
      2 ^ (S.mantissaBitsWithoutImplicit + S.exponentBits) * 2 := by
    rw [← pow_succ]
    exact b.isLt.trans_eq (congrArg (2 ^ ·) (by rw [Format.numBits]; omega))
  have hbit : (unpackSign b).toNat =
      b.toNat / 2 ^ (S.mantissaBitsWithoutImplicit + S.exponentBits) := by
    rw [unpackSign, BitVec.toNat_cast, BitVec.extractLsb_toNat, Nat.shiftRight_eq_div_pow,
      Nat.sub_self]
    exact Nat.mod_eq_of_lt (Nat.div_lt_of_lt_mul hlt)
  have hzero : unpackSign b = 0#1 ↔
      b.toNat < 2 ^ (S.mantissaBitsWithoutImplicit + S.exponentBits) := by
    rw [BitVec.toNat_eq, hbit, BitVec.toNat_ofNat, Nat.zero_mod,
      Nat.div_eq_zero_iff_lt (Nat.two_pow_pos _)]
  rw [Sign.ofBitVec]
  by_cases hn : 2 ^ (S.mantissaBitsWithoutImplicit + S.exponentBits) ≤ b.toNat
  · rw [if_pos hn, if_neg (hzero.not.mpr (Nat.not_lt.mpr hn))]
  · rw [if_neg hn, if_pos (hzero.mpr (Nat.lt_of_not_le hn))]

end Rounding

/-! ### Single precision -/

namespace Single

variable {v w : Float32}

theorem unpack_abs (v : Float32) : v.abs.toModel.unpack = v.toModel.unpack.abs :=
  (Rounding.unpack_pack (canonical v).abs).trans (by rw [Rounding.bounded_abs, bounded_eq])

/-- **The first bit of a number is its sign.** -/
theorem hasSign (v : Float32) :
    Rounding.HasSign (if isNegativeSingle v then .negative else .positive) v.toModel.unpack := by
  have hsign : Sign.ofBitVec (@unpackSign .binary32 v.toBits.toBitVec) =
      if isNegativeSingle v then .negative else .positive := by
    simp only [Rounding.ofBitVec_unpackSign, isNegativeSingle, decide_eq_true_eq,
      UInt32.le_iff_toNat_le]
    rfl
  exact hsign ▸ Rounding.hasSign_unpack (S := .binary32) v.toBits.toBitVec

/-- **A number is told by its sign and its size.** -/
theorem eq_of_abs_eq (hsign : isNegativeSingle v = isNegativeSingle w) (h : v.abs = w.abs) :
    v = w := by
  have hv := hasSign v
  rw [hsign] at hv
  rw [← unpack_inj] at h ⊢
  rw [unpack_abs, unpack_abs] at h
  exact Rounding.eq_of_abs_eq hv (hasSign w) h

/-- There is one NaN. -/
theorem eq_of_isNaN (hv : v.isNaN = true) (hw : w.isNaN = true) : v = w := by
  change v.toModel.unpack.isNaN = true at hv
  change w.toModel.unpack.isNaN = true at hw
  rw [← unpack_inj]
  cases hu : v.toModel.unpack <;> rw [hu] at hv <;> cases hv
  cases hx : w.toModel.unpack <;> rw [hx] at hw <;> cases hw

/-- All infinities have one size. -/
theorem abs_eq_of_infinite (hv : v.isNaN = false) (hv' : v.isFinite = false)
    (hw : w.isNaN = false) (hw' : w.isFinite = false) : v.abs = w.abs := by
  change v.toModel.unpack.isNaN = false at hv
  change v.toModel.unpack.isFinite = false at hv'
  change w.toModel.unpack.isNaN = false at hw
  change w.toModel.unpack.isFinite = false at hw'
  rw [← unpack_inj, unpack_abs, unpack_abs]
  cases hu : v.toModel.unpack <;> rw [hu] at hv hv' <;> cases hv <;> cases hv'
  cases hx : w.toModel.unpack <;> rw [hx] at hw hw' <;> cases hw <;> cases hw'
  rfl

end Single

/-! ### Double precision -/

namespace Double

theorem unpack_abs (v : Float) : v.abs.toModel.unpack = v.toModel.unpack.abs :=
  (unpack_ofModel_pack (canonical v).abs).trans (by rw [Rounding.bounded_abs, bounded_eq])

theorem ofModel_pack_unpack (v : Float) : Float.ofModel (.pack v.toModel.unpack) = v :=
  unpack_inj.mp ((unpack_ofModel_pack (canonical v)).trans (bounded_eq v))

/-- **The first bit of a number is its sign.** -/
theorem hasSign (v : Float) :
    Rounding.HasSign (if isNegativeDouble v then .negative else .positive) v.toModel.unpack := by
  have hsign : Sign.ofBitVec (@unpackSign .binary64 v.toBits.toBitVec) =
      if isNegativeDouble v then .negative else .positive := by
    simp only [Rounding.ofBitVec_unpackSign, isNegativeDouble, decide_eq_true_eq,
      UInt64.le_iff_toNat_le]
    rfl
  exact hsign ▸ Rounding.hasSign_unpack (S := .binary64) v.toBits.toBitVec

/-- **A number is its size with its sign before it.** -/
theorem withSign_abs (v : Float) : (if isNegativeDouble v then -v.abs else v.abs) = v := by
  have hneg : -v.abs = .ofModel (.pack v.abs.toModel.unpack.neg) := rfl
  have habs : v.abs = .ofModel (.pack v.toModel.unpack.abs) := rfl
  have hsign := hasSign v
  -- the sign that is cleared is the one that is put back
  rw [hneg, unpack_abs, habs]
  cases hn : isNegativeDouble v with
  | true =>
    rw [hn] at hsign
    have habs : v.toModel.unpack.abs.neg = v.toModel.unpack := hsign.signed_abs
    rw [if_pos rfl, habs, ofModel_pack_unpack]
  | false =>
    rw [hn] at hsign
    have habs : v.toModel.unpack.abs = v.toModel.unpack := hsign.signed_abs
    rw [if_neg Bool.false_ne_true, habs, ofModel_pack_unpack]

/-! ### Numbers that are not finite -/

/-- There is one NaN. -/
theorem eq_nan {v : Float} (h : v.isNaN = true) : v = 0 / 0 := by
  rw [← unpack_inj]
  change v.toModel.unpack.isNaN = true at h
  cases hu : v.toModel.unpack with
  | notANumber => rfl
  | infinity | zero | finite =>
    rw [hu] at h
    cases h

theorem abs_of_infinite {v : Float} (hnan : v.isNaN = false) (hfinite : v.isFinite = false) :
    v.abs = 1 / 0 := by
  rw [← unpack_inj, unpack_abs]
  change v.toModel.unpack.isNaN = false at hnan
  change v.toModel.unpack.isFinite = false at hfinite
  cases hu : v.toModel.unpack with
  | infinity => rfl
  | notANumber =>
    rw [hu] at hnan
    cases hnan
  | zero | finite =>
    rw [hu] at hfinite
    cases hfinite

theorem not_isInf_of_isFinite {v : Float} (h : v.isFinite = true) : v.isInf = false := by
  change v.toModel.unpack.isFinite = true at h
  change v.toModel.unpack.isInf = false
  cases hu : v.toModel.unpack with
  | infinity =>
    rw [hu] at h
    cases h
  | notANumber | zero | finite => rfl

end Double

end Moorland
