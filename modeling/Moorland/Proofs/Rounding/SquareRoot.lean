import Mathlib.Analysis.Real.Sqrt
import Moorland.Proofs.Rounding.Arithmetic
/-!
# Square roots round to nearest

The root of a number need not be rational, and rounding to nearest is defined for rationals only.
What is true of a root all the same is that it is rounded like the rationals next to it: there is
one that is not above the root and one that is not below it, and both are rounded to what is
computed for the root (`Moorland.Rounding.exists_sqrt_finite`). That is enough to compare roots
with each other and with numbers of the format, since rounding is monotone.

A natural number has its whole root, and whether the rest of it is above the root says on which side
of the middle between two natural numbers the exact root lies. It is never the middle itself.
-/

namespace Moorland

open Float.Model (Format UnpackedFloat totalExponent)
open Float.Model.UnpackedFloat

namespace Rounding

variable {S : Format} {x : ℚ} {m n : ℕ} {e f : ℤ}

/-! ### Roots of natural numbers -/

/-- **There are rationals as close to a root as one likes**, on both sides of it. -/
theorem exists_around_sqrt {a b : ℚ} (ha : 0 ≤ a) (hb : 0 < b) (hlow : a ^ 2 < x)
    (hhigh : x < b ^ 2) :
    ∃ p q : ℚ, (a < p ∧ p < b ∧ p ^ 2 ≤ x) ∧ a < q ∧ q < b ∧ x ≤ q ^ 2 := by
  have hlow' : (a : ℝ) < √(x : ℝ) := by
    rw [Real.lt_sqrt (by exact_mod_cast ha)]
    exact_mod_cast hlow
  have hhigh' : √(x : ℝ) < (b : ℝ) := by
    rw [Real.sqrt_lt' (by exact_mod_cast hb)]
    exact_mod_cast hhigh
  obtain ⟨p, hap, hp⟩ := exists_rat_btwn hlow'
  obtain ⟨q, hq, hqb⟩ := exists_rat_btwn hhigh'
  refine ⟨p, q, ⟨by exact_mod_cast hap, by exact_mod_cast hp.trans hhigh', ?_⟩,
    by exact_mod_cast hlow'.trans hq, by exact_mod_cast hqb, ?_⟩
  · have hpos : (0 : ℝ) ≤ p := le_trans (by exact_mod_cast ha) hap.le
    exact_mod_cast ((Real.lt_sqrt hpos).mp hp).le
  · have hpos : (0 : ℝ) < q := lt_of_le_of_lt (Real.sqrt_nonneg _) hq
    exact_mod_cast ((Real.sqrt_lt' hpos).mp hq).le

/-- What is known of a root besides its whole part: whether it is whole, and on which side of the
middle it lies otherwise. -/
def rootAccuracy (n : ℕ) : Accuracy :=
  if n - n.sqrt * n.sqrt = 0 then .exact
  else .inexact (if n - n.sqrt * n.sqrt ≤ n.sqrt then .lt else .gt)

/-- **The whole root of a natural number, with what is left over**, stands for rationals on both
sides of the root. -/
theorem exists_standsFor_sqrt (n : ℕ) : ∃ p q : ℚ, p ^ 2 ≤ n ∧ n ≤ q ^ 2 ∧
    StandsFor (.ofMantissaAndAccuracy n.sqrt (rootAccuracy n)) p ∧
    StandsFor (.ofMantissaAndAccuracy n.sqrt (rootAccuracy n)) q := by
  have hle : n.sqrt * n.sqrt ≤ n := Nat.sqrt_le n
  have hlt : n < (n.sqrt + 1) * (n.sqrt + 1) := Nat.lt_succ_sqrt n
  have hroot : (0 : ℚ) ≤ n.sqrt := Nat.cast_nonneg _
  rw [rootAccuracy]
  split_ifs with hexact hside
  · have hn : n = n.sqrt * n.sqrt := by omega
    have hsq : (n.sqrt : ℚ) ^ 2 = n := by
      rw [sq]
      exact_mod_cast hn.symm
    exact ⟨n.sqrt, n.sqrt, hsq.le, hsq.ge, rfl, rfl⟩
  · -- the root is below the middle
    have hn : n < n.sqrt * n.sqrt + n.sqrt + 1 := by omega
    have hlow : (n.sqrt : ℚ) ^ 2 < n := by
      rw [sq]
      exact_mod_cast (show n.sqrt * n.sqrt < n by omega)
    have hhigh : (n : ℚ) < (n.sqrt + 1 / 2) ^ 2 := by
      have hn' : (n : ℚ) + 1 ≤ n.sqrt * n.sqrt + n.sqrt + 1 := by exact_mod_cast hn
      linarith [show ((n.sqrt : ℚ) + 1 / 2) ^ 2 = n.sqrt * n.sqrt + n.sqrt + 1 / 4 by ring]
    obtain ⟨p, q, ⟨hp, hp', hpn⟩, hq, hq', hqn⟩ :=
      exists_around_sqrt hroot (by linarith) hlow hhigh
    exact ⟨p, q, hpn, hqn, ⟨hp, hp'⟩, hq, hq'⟩
  · have hn : n.sqrt * n.sqrt + n.sqrt + 1 ≤ n := by omega
    have hlow : ((n.sqrt : ℚ) + 1 / 2) ^ 2 < n := by
      have hn' : (n.sqrt : ℚ) * n.sqrt + n.sqrt + 1 ≤ n := by exact_mod_cast hn
      linarith [show ((n.sqrt : ℚ) + 1 / 2) ^ 2 = n.sqrt * n.sqrt + n.sqrt + 1 / 4 by ring]
    have hhigh : (n : ℚ) < (n.sqrt + 1) ^ 2 := by
      rw [sq]
      exact_mod_cast hlt
    obtain ⟨p, q, ⟨hp, hp', hpn⟩, hq, hq', hqn⟩ :=
      exists_around_sqrt (by linarith) (by linarith) hlow hhigh
    exact ⟨p, q, hpn, hqn, ⟨hp, hp'⟩, hq, hq'⟩

/-! ### Roots of numbers -/

theorem StandsFor.le {a : Accuracy} (h : StandsFor (.ofMantissaAndAccuracy m a) x) :
    (m : ℚ) ≤ x := by
  rcases a with _ | _ | _ | _
  · exact h.ge
  · exact h.1.le
  · change x = m + 1 / 2 at h
    linarith
  · change (m : ℚ) + 1 / 2 < x ∧ x < m + 1 at h
    linarith [h.1]

/-- **The whole root has enough digits**: a power of two that is not above the root is not above its
whole part. -/
theorem two_zpow_le_sqrt (hm : 0 < m) (hf : 2 * f ≤ e) :
    (2 : ℚ) ^ ((m.log2 + e) / 2) ≤ (m <<< (e - 2 * f).toNat).sqrt * 2 ^ f := by
  obtain ⟨k, hk⟩ := Int.eq_ofNat_of_zero_le (show 0 ≤ (m.log2 + e) / 2 - f by omega)
  have hexp : (m.log2 + e) / 2 = k + f := by omega
  rw [hexp, zpow_add₀ two_ne_zero, zpow_natCast]
  refine mul_le_mul_of_nonneg_right ?_ (two_zpow_pos f).le
  have hsq : 2 ^ k * 2 ^ k ≤ m <<< (e - 2 * f).toNat :=
    calc 2 ^ k * 2 ^ k = 2 ^ (k + k) := (pow_add 2 k k).symm
      _ ≤ 2 ^ (m.log2 + (e - 2 * f).toNat) := Nat.pow_le_pow_right two_pos (by omega)
      _ = 2 ^ m.log2 * 2 ^ (e - 2 * f).toNat := pow_add _ _ _
      _ ≤ m * 2 ^ (e - 2 * f).toNat := Nat.mul_le_mul_right _ (Nat.log2_self_le hm.ne')
      _ = m <<< (e - 2 * f).toNat := (Nat.shiftLeft_eq _ _).symm
  exact_mod_cast Nat.le_sqrt.mpr hsq

/-- **Rounding the root of a number rounds rationals on both sides of the root**, and there is
nothing else that it could be rounded to. -/
theorem exists_sqrt_finite (S : Format) (hm : 0 < m) (e : ℤ) : ∃ p q : ℚ,
    (0 < p ∧ p ^ 2 ≤ m * 2 ^ e ∧
      UnpackedFloat.sqrt S (.finite .positive m e hm) = nearest S .positive p) ∧
    0 < q ∧ m * 2 ^ e ≤ q ^ 2 ∧
      UnpackedFloat.sqrt S (.finite .positive m e hm) = nearest S .positive q := by
  obtain ⟨t, ht⟩ : ∃ t, t = min (e / 2) (S.targetExponent ((totalExponent m e + 1) / 2)) :=
    ⟨_, rfl⟩
  obtain ⟨n, hn⟩ : ∃ n, n = m <<< (e - 2 * t).toNat := ⟨_, rfl⟩
  have hsqrt : UnpackedFloat.sqrt S (.finite .positive m e hm) =
      roundWithAccuracy S .positive n.sqrt t (rootAccuracy n) := by
    rw [hn, ht]
    rfl
  have hpower : (2 : ℚ) ^ ((m.log2 + e) / 2) ≤ n.sqrt * 2 ^ t := by
    rw [hn]
    exact two_zpow_le_sqrt hm (by omega)
  -- whatever has the same digits as the root is rounded like it
  have hround : ∀ r : ℚ, StandsFor (.ofMantissaAndAccuracy n.sqrt (rootAccuracy n)) r →
      0 < r * 2 ^ t ∧ UnpackedFloat.sqrt S (.finite .positive m e hm) =
        nearest S .positive (r * 2 ^ t) := by
    intro r hr
    have hle : (2 : ℚ) ^ ((m.log2 + e) / 2) ≤ r * 2 ^ t :=
      hpower.trans (mul_le_mul_of_nonneg_right hr.le (two_zpow_pos t).le)
    have hpos : 0 < r * 2 ^ t := (two_zpow_pos _).trans_le hle
    refine ⟨hpos, hsqrt.trans (roundWithAccuracy_eq hpos ?_ ?_)⟩
    · have hlog := (Int.zpow_le_iff_le_log one_lt_two hpos).mp hle
      rw [totalExponent, Format.targetExponent] at ht
      rw [unitExponent, Format.targetExponent]
      omega
    · rwa [mul_div_cancel_right₀ _ (two_zpow_pos t).ne']
  have hvalue : (n : ℚ) * (2 ^ t) ^ 2 = m * 2 ^ e := by
    have hshift := shiftLeft_toNat_mul_zpow m (show 2 * t ≤ e by omega)
    rw [← hn, mul_comm 2 t, zpow_mul] at hshift
    exact_mod_cast hshift
  obtain ⟨p, q, hpn, hqn, hp, hq⟩ := exists_standsFor_sqrt n
  obtain ⟨hppos, hpround⟩ := hround p hp
  obtain ⟨hqpos, hqround⟩ := hround q hq
  refine ⟨p * 2 ^ t, q * 2 ^ t, ⟨hppos, ?_, hpround⟩, hqpos, ?_, hqround⟩
  · rw [mul_pow, ← hvalue]
    exact mul_le_mul_of_nonneg_right hpn (sq_nonneg _)
  · rw [mul_pow, ← hvalue]
    exact mul_le_mul_of_nonneg_right hqn (sq_nonneg _)

end Rounding

end Moorland
