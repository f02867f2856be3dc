import Moorland.Precision
import Moorland.Proofs.Rounding.Single
/-!
# Widening loses nothing

A document holds numbers in double precision, and what is stored in it is in single precision. Every
single-precision number is one of double precision too, so that widening does not round it, and
narrowing the widened number gives it back, to the last bit (`Moorland.narrow_widen`).
-/

namespace Moorland

open Float.Model (Format UnpackedFloat)
open Float.Model.UnpackedFloat
open Rounding (Canonical IsCanonical IsRepresentable bounded nearest magnitude maxExponent)

/-! ### Double precision -/

namespace Double

variable {v w : Float}

theorem unpack_inj : v.toModel.unpack = w.toModel.unpack ↔ v = w := by
  refine ⟨fun h => Float.toBits_inj.mp (UInt64.toBitVec_inj.mp ?_),
    congrArg fun v : Float => v.toModel.unpack⟩
  exact (UnpackedFloat.unpack_inj_of_valid v.toModel.valid w.toModel.valid).mp h

theorem canonical (v : Float) : Canonical .binary64 v.toModel.unpack := Rounding.canonical_unpack _

theorem bounded_eq (v : Float) : bounded .binary64 v.toModel.unpack = v.toModel.unpack :=
  Rounding.bounded_unpack (by decide) _

/-- **A packed number is read back**, or an infinity if its exponent is too large. -/
theorem unpack_ofModel_pack {u : UnpackedFloat} (hu : Canonical .binary64 u) :
    (Float.ofModel (.pack u)).toModel.unpack = bounded .binary64 u := Rounding.unpack_pack hu

end Double

namespace Single

/-- **A number is packed as it was.** -/
theorem ofModel_pack_unpack (v : Float32) : Float32.ofModel (.pack v.toModel.unpack) = v := by
  rw [← unpack_inj]
  exact (Rounding.unpack_pack (canonical v)).trans (bounded_eq v)

end Single

/-! ### Widening and narrowing -/

namespace Rounding

variable {S : Format} {s : Sign} {m : ℕ} {e : ℤ} {x : ℚ}

theorem IsRepresentable.widen (hx : IsRepresentable .binary32 x) : IsRepresentable .binary64 x := by
  obtain ⟨m, e, hm, he, rfl⟩ := hx
  have hmin : Format.minExponent .binary32 = -149 := rfl
  have hmin' : Format.minExponent .binary64 = -1074 := rfl
  exact ⟨m, e, hm.trans (by decide), by omega, rfl⟩

/-- **What is not above the greatest power of two of a format is not too large for it.** -/
theorem bounded_nearest_of_le (hS : 1 ≤ S.exponentBias) (s : Sign) (hpos : 0 < x)
    (hx : x ≤ 2 ^ (S.exponentBias : ℤ)) : bounded S (nearest S s x) = nearest S s x := by
  have hmin := minExponent_eq S
  have hbits := mantissaBits_eq S
  have hpower : IsCanonical S (2 ^ S.mantissaBitsWithoutImplicit) (maxExponent S) :=
    ⟨Nat.pow_lt_pow_right one_lt_two (by omega), by rw [maxExponent]; omega, .inl le_rfl⟩
  have hvalue : ((2 ^ S.mantissaBitsWithoutImplicit : ℕ) : ℚ) * 2 ^ maxExponent S =
      2 ^ (S.exponentBias : ℤ) := by
    rw [Nat.cast_pow, Nat.cast_ofNat, ← zpow_natCast, ← zpow_add₀ two_ne_zero, maxExponent,
      add_sub_cancel]
  have hbounded : bounded S (.finite .positive (2 ^ S.mantissaBitsWithoutImplicit) (maxExponent S)
      (Nat.two_pow_pos _)) = .finite .positive _ _ (Nat.two_pow_pos _) := if_pos le_rfl
  exact bounded_of_magnitude_le (canonical_nearest hpos)
    (show Canonical S (.finite .positive _ _ _) from hpower) hbounded
    (magnitude_nearest_le hpower.isRepresentable hpos (hx.trans_eq hvalue.symm))

/-- **Nothing of single precision is too large for double precision.** -/
theorem bounded_nearest_of_single {hm : 0 < m}
    (hb : bounded .binary32 (.finite s m e hm) = .finite s m e hm)
    (hc : IsCanonical .binary32 m e) :
    bounded .binary64 (nearest .binary64 s (m * 2 ^ e)) = nearest .binary64 s (m * 2 ^ e) := by
  have he : e ≤ 104 := by
    by_contra hgt
    rw [bounded, if_neg (show ¬e ≤ maxExponent .binary32 from hgt)] at hb
    cases hb
  have hlt : (m : ℚ) ≤ 2 ^ (24 : ℤ) := by exact_mod_cast hc.lt.le
  refine bounded_nearest_of_le (by decide) s (mul_zpow_pos hm e) ?_
  calc (m : ℚ) * 2 ^ e ≤ 2 ^ (24 : ℤ) * 2 ^ (104 : ℤ) :=
        mul_le_mul hlt (zpow_le_zpow_right₀ one_le_two he) (two_zpow_pos e).le (two_zpow_pos _).le
    _ = 2 ^ (128 : ℤ) := (zpow_add₀ two_ne_zero _ _).symm
    _ ≤ 2 ^ (1023 : ℤ) := zpow_le_zpow_right₀ one_le_two (by decide)

end Rounding

/-- **Widening is exact.** -/
theorem unpack_widen (v : Float32) :
    (widen v).toModel.unpack = roundTo .binary64 v.toModel.unpack := by
  have hc := Single.canonical v
  have hb := Single.bounded_eq v
  rw [widen]
  cases hu : v.toModel.unpack with
  | notANumber | infinity | zero => exact Double.unpack_ofModel_pack trivial
  | finite s m e hm =>
    rw [hu] at hc hb
    rw [roundTo, Rounding.round_eq hm,
      Double.unpack_ofModel_pack (Rounding.canonical_nearest (Rounding.mul_zpow_pos hm e))]
    exact Rounding.bounded_nearest_of_single hb hc

end Moorland
