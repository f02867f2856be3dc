import Mathlib
import Moorland.Proofs.Rounding.Nearest
/-!
# Packing

A packed number is read back as the number that was packed, unless its exponent is too large for the
format: then it is read back as an infinity (`Moorland.Rounding.unpack_pack`). Every number that is
read is canonical and has an exponent within bounds (`Moorland.Rounding.canonical_unpack`,
`Moorland.Rounding.bounded_unpack`), so that each number of a format has one packed form.

A number with all of its digits is packed without the first of them, and the others with the least
exponent of all. The two cases are taken apart once, here.

The library's own lemmas about the bits of floating-point numbers belong to no part of Mathlib that
could be imported alone, so this file imports it whole, and other files take them from here.
-/

namespace Moorland

open Float.Model (Format UnpackedFloat)
open Float.Model.UnpackedFloat

namespace Rounding

variable {S : Format} {s : Sign} {m : ℕ} {e : ℤ}

/-! ### The bounds of a format -/

theorem minExponent_eq (S : Format) :
    S.minExponent = 1 - S.exponentBias - S.mantissaBitsWithoutImplicit := by
  have hbias : ((2 ^ (S.exponentBits - 1) : ℕ) : ℤ) = S.exponentBias + 1 := by
    have := Nat.one_le_two_pow (n := S.exponentBits - 1)
    rw [Format.exponentBias]
    omega
  rw [Format.minExponent, mantissaBits_eq]
  push_cast at hbias ⊢
  omega

theorem two_pow_exponentBits (S : Format) : 2 ^ S.exponentBits = 2 * S.exponentBias + 2 := by
  have hbits : S.exponentBits = S.exponentBits - 1 + 1 := by
    have := S.he
    omega
  have := Nat.one_le_two_pow (n := S.exponentBits - 1)
  rw [hbits, pow_succ, Format.exponentBias]
  omega

/-- **The greatest exponent of a format.** -/
def maxExponent (S : Format) : ℤ := S.exponentBias - S.mantissaBitsWithoutImplicit

/-- **What becomes of a number in a format**: it is kept if its exponent is not too large, and is
infinite otherwise. -/
def bounded (S : Format) : UnpackedFloat → UnpackedFloat
  | .finite s m e hm => if e ≤ maxExponent S then .finite s m e hm else .infinity s
  | u => u

/-! ### Reading a packed number -/

theorem ofNat_eq_zero_iff {w n : ℕ} (hn : n < 2 ^ w) : BitVec.ofNat w n = 0#_ ↔ n = 0 := by
  rw [← BitVec.toNat_inj, BitVec.toNat_ofNat, BitVec.toNat_ofNat, Nat.zero_mod, Nat.mod_eq_of_lt hn]

theorem ofNat_eq_neg_one_iff {w n : ℕ} (hn : n < 2 ^ w) :
    BitVec.ofNat w n = -1#_ ↔ n + 1 = 2 ^ w := by
  rw [← BitVec.toNat_inj, BitVec.toNat_ofNat, BitVec.neg_one_eq_allOnes, BitVec.toNat_allOnes,
    Nat.mod_eq_of_lt hn]
  omega

/-- The first digit of a significand that has all of them. -/
theorem toNat_one_append {p : ℕ} (v : BitVec p) : (1#1 ++ v).toNat = 2 ^ p + v.toNat := by
  rw [BitVec.toNat_append, ← Nat.shiftLeft_add_eq_or_of_lt v.isLt, Nat.shiftLeft_eq,
    BitVec.toNat_one one_pos, one_mul]

theorem toNat_one_append_ofNat {p : ℕ} (hlow : 2 ^ p ≤ m) (hhigh : m < 2 ^ (p + 1)) :
    (1#1 ++ BitVec.ofNat p m).toNat = m := by
  rw [pow_succ] at hhigh
  rw [toNat_one_append, BitVec.toNat_ofNat, Nat.mod_eq_sub_mod hlow, Nat.mod_eq_of_lt (by omega)]
  omega

/-- A number with all of its digits is read back. -/
theorem unpack_packComponents_normal {b : ℕ} (hpos : b ≠ 0) (hb : b + 1 < 2 ^ S.exponentBits)
    (hlow : 2 ^ S.mantissaBitsWithoutImplicit ≤ m)
    (hhigh : m < 2 ^ (S.mantissaBitsWithoutImplicit + 1)) (hm : 0 < m)
    (he : e = b - (S.exponentBias + S.mantissaBitsWithoutImplicit)) :
    unpack S (packComponents S s (.ofNat _ b) (.ofNat _ m)) = .finite s m e hm := by
  have hb₁ : BitVec.ofNat S.exponentBits b ≠ -1#_ := by
    rw [Ne, ofNat_eq_neg_one_iff (by omega)]
    omega
  have hb₀ : BitVec.ofNat S.exponentBits b ≠ 0#_ := by
    rwa [Ne, ofNat_eq_zero_iff (by omega)]
  rw [unpack]
  simp only [unpackExponent_packComponents, unpackMantissa_packComponents,
    unpackSign_packComponents, Sign.ofBitVec_toBitVec, hb₁, hb₀, if_false,
    toNat_one_append_ofNat hlow hhigh, BitVec.toNat_ofNat,
    Nat.mod_eq_of_lt (Nat.lt_of_succ_lt hb), he]

/-- A number without all of its digits is read back. -/
theorem unpack_packComponents_subnormal (hm : 0 < m)
    (hhigh : m < 2 ^ S.mantissaBitsWithoutImplicit) :
    unpack S (packComponents S s 0#_ (.ofNat _ m)) = .finite s m S.minExponent hm := by
  have hb₁ : 0#S.exponentBits ≠ -1#_ := by
    rw [Ne, ofNat_eq_neg_one_iff (Nat.two_pow_pos _)]
    exact (Nat.one_lt_two_pow S.he.ne').ne
  have hm₀ : BitVec.ofNat S.mantissaBitsWithoutImplicit m ≠ 0#_ := by
    rw [Ne, ofNat_eq_zero_iff hhigh]
    exact hm.ne'
  have he :
      ((0 : ℕ) : ℤ) - (S.exponentBias + S.mantissaBitsWithoutImplicit) + 1 = S.minExponent := by
    rw [minExponent_eq]
    omega
  rw [unpack]
  simp only [unpackExponent_packComponents, unpackMantissa_packComponents,
    unpackSign_packComponents, Sign.ofBitVec_toBitVec, hb₁, hm₀, if_false, if_true, dif_neg,
    not_false_eq_true, BitVec.toNat_ofNat, Nat.mod_eq_of_lt hhigh, Nat.zero_mod, he]

theorem unpack_packedInfinity : unpack S (packedInfinity S s) = .infinity s := by
  rw [unpack, packedInfinity]
  simp

/-- **A packed number is read back**, or an infinity if its exponent is too large. -/
theorem unpack_pack {u : UnpackedFloat} (hu : Canonical S u) :
    unpack S (pack S u) = bounded S u := by
  cases u with
  | notANumber => exact unpack_packedNaN
  | infinity s => exact unpack_packedInfinity
  | zero s => exact unpack_packedZero
  | finite s m e hm =>
    obtain ⟨hlt, hle, hnormal⟩ := hu
    have hcapacity := two_pow_exponentBits S
    have hbits := mantissaBits_eq S
    rw [minExponent_eq] at hle
    rw [pack, bounded, maxExponent]
    by_cases hmax : e ≤ S.exponentBias - S.mantissaBitsWithoutImplicit
    · rw [if_pos hmax, if_neg (by omega)]
      by_cases hfull : 2 ^ S.mantissaBitsWithoutImplicit ≤ m
      · have hlog : m.log2 + 1 = S.mantissaBits := by
          have h₁ := (Nat.le_log2 hm.ne').mpr hfull
          have h₂ := (Nat.log2_lt hm.ne').mpr hlt
          omega
        rw [if_pos hlog]
        exact unpack_packComponents_normal (by omega) (by omega) hfull (hbits ▸ hlt) hm (by omega)
      · have hlog : m.log2 + 1 ≠ S.mantissaBits := by
          have := (Nat.log2_lt hm.ne').mpr (not_le.mp hfull)
          omega
        rw [if_neg hlog, hnormal.resolve_left hfull]
        exact unpack_packComponents_subnormal hm (not_le.mp hfull)
    · rw [if_neg hmax, if_pos (by omega)]
      exact unpack_packedInfinity

/-! ### What can be read -/

theorem one_le_exponentBias (hS : 2 ≤ S.exponentBits) : 1 ≤ S.exponentBias := by
  have := Nat.pow_le_pow_right two_pos hS
  have := two_pow_exponentBits S
  omega

theorem canonical_unpack (b : BitVec S.numBits) : Canonical S (unpack S b) := by
  have hbits := mantissaBits_eq S
  have hmin := minExponent_eq S
  have hmantissa := (unpackMantissa b).isLt
  rw [unpack]
  split_ifs with hones hzero hsmall hnone
  · trivial
  · trivial
  · trivial
  · refine ⟨hmantissa.trans (Nat.pow_lt_pow_right one_lt_two (by omega)), ?_, .inr ?_⟩ <;>
      rw [hsmall, hmin, BitVec.toNat_ofNat, Nat.zero_mod] <;> omega
  · have hexponent : (unpackExponent b).toNat ≠ 0 := fun h => hsmall (BitVec.toNat_inj.mp h)
    have hfull := toNat_one_append (unpackMantissa b)
    refine ⟨?_, by omega, .inl (by omega)⟩
    rw [hbits, pow_succ]
    omega

theorem bounded_unpack (hS : 2 ≤ S.exponentBits) (b : BitVec S.numBits) :
    bounded S (unpack S b) = unpack S b := by
  have hcapacity := two_pow_exponentBits S
  have hbias := one_le_exponentBias hS
  have hexponent := (unpackExponent b).isLt
  rw [unpack]
  split_ifs with hones hzero hsmall hnone
  · rfl
  · rfl
  · rfl
  · rw [bounded, if_pos]
    rw [hsmall, maxExponent, BitVec.toNat_ofNat, Nat.zero_mod]
    omega
  · have hlt : (unpackExponent b).toNat + 1 ≠ 2 ^ S.exponentBits := by
      rw [Ne, ← ofNat_eq_neg_one_iff hexponent, BitVec.ofNat_toNat, BitVec.setWidth_eq]
      exact hones
    rw [bounded, if_pos]
    rw [maxExponent]
    omega

end Rounding

end Moorland
