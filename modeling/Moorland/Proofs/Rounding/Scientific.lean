import Moorland.Proofs.Rounding.Conversion
/-!
# Digits times a power of ten

A decimal is read by one multiplication or division, of its digits by a power of ten, which is
rounded to nearest (`Moorland.Rounding.unpack_ofScientific`). Where the exponent is far out of range
the power is not computed: what would come out is infinite, or zero.

All of this is said of any format whose exponents reach further than its digits, on both sides of
one.
-/

namespace Moorland

open Float.Model (Format UnpackedFloat)
open Float.Model.UnpackedFloat

namespace Rounding

variable {S : Format} {s : Sign} {x y : ℚ} {m k : ℕ} {e : ℤ} {u w : UnpackedFloat}

/-! ### Out of range -/

/-- **What is too large is infinite.** -/
theorem bounded_nearest_of_large (s : Sign) (hx : (2 : ℚ) ^ ((S.exponentBias : ℤ) + 1) ≤ x) :
    bounded S (nearest S s x) = .infinity s := by
  have hmin := minExponent_eq S
  have hbits := mantissaBits_eq S
  have hpos : 0 < x := (two_zpow_pos _).trans_le hx
  have hrepresentable : IsRepresentable S (2 ^ ((S.exponentBias : ℤ) + 1)) :=
    ⟨1, S.exponentBias + 1, Nat.one_lt_two_pow (by omega), by omega, by rw [Nat.cast_one, one_mul]⟩
  have hge := le_magnitude_nearest (s := s) hrepresentable hpos hx
  have hc := canonical_nearest (S := S) (s := s) hpos
  rcases nearest_cases S s x with h | ⟨m, e, hm, h⟩ <;> rw [h] at hge hc ⊢
  · exact absurd hge (not_le.mpr (two_zpow_pos _))
  · refine if_neg fun hle : e ≤ maxExponent S => absurd hge (not_le.mpr ?_)
    have hlt : (m : ℚ) < 2 ^ (S.mantissaBits : ℤ) := by
      exact_mod_cast (hc : IsCanonical S m e).lt
    have hexp : (S.mantissaBits : ℤ) + maxExponent S = S.exponentBias + 1 := by
      rw [maxExponent]
      omega
    calc (m : ℚ) * 2 ^ e < 2 ^ (S.mantissaBits : ℤ) * 2 ^ e :=
          mul_lt_mul_of_pos_right hlt (two_zpow_pos e)
      _ ≤ 2 ^ (S.mantissaBits : ℤ) * 2 ^ maxExponent S :=
          mul_le_mul_of_nonneg_left (zpow_le_zpow_right₀ one_le_two hle) (two_zpow_pos _).le
      _ = 2 ^ ((S.exponentBias : ℤ) + 1) := by rw [← zpow_add₀ two_ne_zero, hexp]

/-- **What is below one half of the least unit is zero.** -/
theorem nearest_of_small (s : Sign) (hx : x < 2 ^ (S.minExponent - 1)) :
    nearest S s x = .zero s := by
  have hunit : (2 : ℚ) ^ S.minExponent ≤ 2 ^ unitExponent S x :=
    zpow_le_zpow_right₀ one_le_two (minExponent_le_unitExponent S x)
  have hhalf : inUnits S x < 1 / 2 := by
    rw [inUnits, div_lt_iff₀ (two_zpow_pos _)]
    calc x < 2 ^ (S.minExponent - 1) := hx
      _ = 1 / 2 * 2 ^ S.minExponent := by
          rw [one_div, ← zpow_neg_one, ← zpow_add₀ two_ne_zero, neg_add_eq_sub]
      _ ≤ 1 / 2 * 2 ^ unitExponent S x := mul_le_mul_of_nonneg_left hunit (by norm_num)
  have hfloor : ⌊inUnits S x⌋₊ = 0 := Nat.floor_eq_zero.mpr (by linarith)
  have hzero : nearestNat (inUnits S x) = 0 := by
    simp only [nearestNat, hfloor]
    rw [if_pos (by simpa using hhalf)]
  simp only [nearest, hzero, dite_true]

/-- A number that is not below a power of two has its last digit not far below that. -/
theorem le_unitExponent (hx : 0 < x) (h : (2 : ℚ) ^ (S.mantissaBitsWithoutImplicit + e) ≤ x) :
    e ≤ unitExponent S x := by
  have hlog := (Int.zpow_le_iff_le_log one_lt_two hx).mp (by exact_mod_cast h)
  have hbits := mantissaBits_eq S
  rw [unitExponent, Format.targetExponent]
  omega

/-! ### Powers of ten -/

/-- A power of ten is not below the power of two with the same exponent. -/
theorem two_pow_le_ten_pow (k : ℕ) : (2 : ℚ) ^ k ≤ 10 ^ k :=
  pow_le_pow_left₀ zero_le_two (by norm_num) k

theorem one_le_ten_pow (k : ℕ) : (1 : ℚ) ≤ 10 ^ k := one_le_pow₀ (by norm_num)

/-- A power of ten may be too large alone. -/
theorem two_zpow_le_mul_ten_pow (hm : 0 < m) (hk : e ≤ k) : (2 : ℚ) ^ e ≤ m * 10 ^ k :=
  calc (2 : ℚ) ^ e ≤ 2 ^ (k : ℤ) := zpow_le_zpow_right₀ one_le_two hk
    _ ≤ 10 ^ k := by
        rw [zpow_natCast]
        exact two_pow_le_ten_pow k
    _ ≤ m * 10 ^ k := le_mul_of_one_le_left (by positivity) (by exact_mod_cast hm)

/-- A power of ten may be too small, whatever the digits are, if there are not many of them. -/
theorem div_ten_pow_lt (hk : m.log2 + 1 - e ≤ k) : (m : ℚ) / 10 ^ k < 2 ^ e := by
  have hdigits : (m : ℚ) < 2 ^ ((m.log2 : ℤ) + 1) := by
    exact_mod_cast Nat.lt_log2_self (n := m)
  calc (m : ℚ) / 10 ^ k ≤ m / 2 ^ k :=
        div_le_div_of_nonneg_left (by positivity) (by positivity) (two_pow_le_ten_pow k)
    _ = m * 2 ^ (-(k : ℤ)) := by rw [zpow_neg, zpow_natCast, div_eq_mul_inv]
    _ < 2 ^ ((m.log2 : ℤ) + 1) * 2 ^ (-(k : ℤ)) := mul_lt_mul_of_pos_right hdigits (two_zpow_pos _)
    _ = 2 ^ ((m.log2 : ℤ) + 1 + -(k : ℤ)) := (zpow_add₀ two_ne_zero _ _).symm
    _ ≤ 2 ^ e := zpow_le_zpow_right₀ one_le_two (by omega)

/-- **Digits times a power of ten** are rounded to nearest. The digits are moved up first, so that
the product has all the digits of a number. -/
theorem mul_ten_pow_eq (hm : 0 < m) (hshift : 0 < m <<< S.mantissaBits) (hten : 0 < 10 ^ k) :
    UnpackedFloat.mul S (.finite .positive (m <<< S.mantissaBits) (-S.mantissaBits) hshift)
        (.finite .positive (10 ^ k) 0 hten) =
      nearest S .positive (m * 10 ^ k) := by
  have hvalue : ((m <<< S.mantissaBits : ℕ) : ℚ) * 2 ^ (-(S.mantissaBits : ℤ)) *
      ((10 ^ k : ℕ) * 2 ^ (0 : ℤ)) = m * 10 ^ k := by
    have hshift := shiftLeft_mul_zpow m S.mantissaBits 0
    rw [zero_sub, zpow_zero, mul_one] at hshift
    rw [hshift, zpow_zero, mul_one, Nat.cast_pow, Nat.cast_ofNat]
  have hbits := mantissaBits_eq S
  have hone : (1 : ℚ) ≤ m := by exact_mod_cast hm
  rw [← hvalue]
  refine mul_finite_eq _ _ (le_unitExponent ?_ ?_) <;> rw [hvalue]
  · have := one_le_ten_pow k
    positivity
  · calc (2 : ℚ) ^ (_ : ℤ) ≤ 2 ^ (0 : ℤ) := zpow_le_zpow_right₀ one_le_two (by omega)
      _ ≤ m := by rwa [zpow_zero]
      _ ≤ m * 10 ^ k := le_mul_of_one_le_right (by linarith) (one_le_ten_pow k)

/-- **Digits divided by a power of ten** are rounded to nearest. -/
theorem div_ten_pow_eq (hm : 0 < m) (hten : 0 < 10 ^ k) :
    UnpackedFloat.div S (.finite .positive m 0 hm) (.finite .positive (10 ^ k) 0 hten) =
      nearest S .positive (m / 10 ^ k) := by
  have hvalue : (m : ℚ) * 2 ^ (0 : ℤ) / ((10 ^ k : ℕ) * 2 ^ (0 : ℤ)) = m / 10 ^ k := by
    rw [zpow_zero, mul_one, mul_one, Nat.cast_pow, Nat.cast_ofNat]
  rw [← hvalue]
  exact div_finite_eq hm hten

/-- **A quotient of numbers of a format** is rounded once. -/
theorem unpack_quotient (hx : IsRepresentable S x) (hy : IsRepresentable S y) (hxpos : 0 < x)
    (hypos : 0 < y) (hu : u = nearest S .positive x) (hw : w = nearest S .positive y) :
    unpack S (pack S (.div S u w)) = bounded S (nearest S .positive (x / y)) := by
  obtain ⟨n, f, hn, hnf, rfl⟩ := exists_nearest_eq S .positive hx hxpos
  obtain ⟨l, g, hl, hlg, rfl⟩ := exists_nearest_eq S .positive hy hypos
  rw [hu, hw, hnf, hlg, div_finite_eq hn hl]
  exact unpack_pack (canonical_nearest (div_pos hxpos hypos))

section Range

variable (hS : S.mantissaBitsWithoutImplicit < S.exponentBias)
include hS

/-- **A natural number times a power of ten is rounded to nearest**, also where its size is found to
be far out of range without computing it. -/
theorem unpack_ofScientific (hm : 0 < m) (e : ℤ) :
    unpack S (pack S (.ofScientific S m e)) = bounded S (nearest S .positive (m * 10 ^ e)) := by
  have hmpos : (0 : ℚ) < m := by exact_mod_cast hm
  have hmin := minExponent_eq S
  have hrange : (2 : ℤ) ^ S.exponentBits = 2 * S.exponentBias + 2 := by
    exact_mod_cast two_pow_exponentBits S
  rw [UnpackedFloat.ofScientific, dif_neg hm.ne', hrange]
  rcases Int.lt_or_le e 0 with hneg | hwhole
  · obtain ⟨k, hk⟩ := Int.eq_ofNat_of_zero_le (show 0 ≤ -e by omega)
    obtain rfl : e = -(k : ℤ) := by omega
    have hquot : (m : ℚ) * 10 ^ (-(k : ℤ)) = m / 10 ^ k := by
      rw [zpow_neg, zpow_natCast, div_eq_mul_inv]
    rw [if_neg (by omega), if_neg hneg.not_ge, hquot]
    split_ifs with hsmall
    · rw [nearest_of_small .positive (div_ten_pow_lt (by omega))]
      exact unpack_pack trivial
    · simp only [neg_neg, Int.toNat_natCast]
      rw [div_ten_pow_eq hm]
      exact unpack_pack (canonical_nearest (by positivity))
  · obtain ⟨k, rfl⟩ := Int.eq_ofNat_of_zero_le hwhole
    rw [zpow_natCast, if_pos hwhole]
    split_ifs with hlarge hsmall
    · rw [bounded_nearest_of_large .positive (two_zpow_le_mul_ten_pow hm (by omega))]
      exact unpack_pack trivial
    · omega
    · simp only [Int.toNat_natCast]
      rw [mul_ten_pow_eq hm]
      exact unpack_pack (canonical_nearest (by positivity))

/-! ### Numbers of the format -/

/-- A natural number without too many digits is one of the format. -/
theorem isRepresentable_natCast (hlt : m < 2 ^ S.mantissaBits) : IsRepresentable S m := by
  have hmin := minExponent_eq S
  exact ⟨m, 0, hlt, by omega, by rw [zpow_zero, mul_one]⟩

/-- A power of ten is one of the format if the odd part of it does not have too many digits. -/
theorem isRepresentable_ten_pow (hlt : 5 ^ k < 2 ^ S.mantissaBits) :
    IsRepresentable S (10 ^ k) := by
  have hmin := minExponent_eq S
  refine ⟨5 ^ k, k, hlt, by omega, ?_⟩
  rw [Nat.cast_pow, Nat.cast_ofNat, zpow_natCast, ← mul_pow]
  norm_num

/-- A number of the format that is not below one has all of its digits. -/
theorem full_of_one_le (hc : IsCanonical S m e) (h : (1 : ℚ) ≤ m * 2 ^ e) :
    2 ^ S.mantissaBitsWithoutImplicit ≤ m := by
  refine hc.normal.resolve_right fun he => absurd h (not_le.mpr ?_)
  have hmin := minExponent_eq S
  have hbits := mantissaBits_eq S
  have hdigit := S.hm
  have hlt : (m : ℚ) < 2 ^ (S.mantissaBits : ℤ) := by exact_mod_cast hc.lt
  rw [he]
  calc (m : ℚ) * 2 ^ S.minExponent < 2 ^ (S.mantissaBits : ℤ) * 2 ^ S.minExponent :=
        mul_lt_mul_of_pos_right hlt (two_zpow_pos _)
    _ = 2 ^ ((S.mantissaBits : ℤ) + S.minExponent) := (zpow_add₀ two_ne_zero _ _).symm
    _ ≤ 2 ^ (0 : ℤ) := zpow_le_zpow_right₀ one_le_two (by omega)
    _ = 1 := zpow_zero 2

/-- **A natural number is exact** if it is one of the format. -/
theorem unpack_pack_round (hm : 0 < m) (hlt : (m : ℚ) ≤ 2 ^ (S.exponentBias : ℤ)) :
    unpack S (pack S (.round S .positive m 0)) = nearest S .positive m := by
  have hpos : (0 : ℚ) < m := by exact_mod_cast hm
  rw [round_eq hm, zpow_zero, mul_one, unpack_pack (canonical_nearest hpos)]
  exact bounded_nearest_of_le (Nat.one_le_of_lt hS) .positive hpos hlt

/-- **A product of numbers of a format** is rounded once, here if the first number is not below one
and thus has all of its digits. -/
theorem unpack_product (hx : IsRepresentable S x) (hy : IsRepresentable S y) (hone : 1 ≤ x)
    (hypos : 0 < y) (hu : u = nearest S .positive x) (hw : w = nearest S .positive y) :
    unpack S (pack S (.mul S u w)) = bounded S (nearest S .positive (x * y)) := by
  have hxpos : 0 < x := zero_lt_one.trans_le hone
  have hcanonical := canonical_nearest (S := S) (s := .positive) hxpos
  obtain ⟨n, f, hn, hnf, rfl⟩ := exists_nearest_eq S .positive hx hxpos
  obtain ⟨l, g, hl, hlg, rfl⟩ := exists_nearest_eq S .positive hy hypos
  have hpos : (0 : ℚ) < n * 2 ^ f * (l * 2 ^ g) := mul_pos hxpos hypos
  rw [hnf] at hcanonical
  have hfull : 2 ^ S.mantissaBitsWithoutImplicit ≤ n := full_of_one_le hS hcanonical hone
  have hdigits : f + g ≤ unitExponent S (n * 2 ^ f * (l * 2 ^ g)) := by
    refine le_unitExponent hpos ?_
    calc (2 : ℚ) ^ ((S.mantissaBitsWithoutImplicit : ℤ) + (f + g))
          = 2 ^ (S.mantissaBitsWithoutImplicit : ℤ) * 2 ^ f * 2 ^ g := by
          rw [zpow_add₀ two_ne_zero, zpow_add₀ two_ne_zero, mul_assoc]
      _ ≤ n * 2 ^ f * (l * 2 ^ g) := by
          refine mul_le_mul ?_ ?_ (two_zpow_pos g).le hxpos.le
          · exact mul_le_mul_of_nonneg_right (by exact_mod_cast hfull) (two_zpow_pos f).le
          · exact le_mul_of_one_le_left (two_zpow_pos g).le (by exact_mod_cast hl)
  rw [hu, hw, hnf, hlg, mul_finite_eq hn hl hdigits]
  exact unpack_pack (canonical_nearest hpos)

end Range

end Rounding

end Moorland
