import Moorland.Proofs.Rounding.Nearest
/-!
# Arithmetic rounds to nearest

Sums and quotients of unpacked numbers are computed digit by digit: a significand is shifted to the
right, two bits remember what has been dropped, and the significand is rounded by these bits. This
file shows that the outcome is the nearest number of the format to the exact sum or quotient
(`Moorland.Rounding.add_finite_eq`, `Moorland.Rounding.div_finite_eq`), so that nothing about digits
has to be said again.

A significand with its two bits **stands for** a rational (`Moorland.Rounding.StandsFor`), and a
shift by one digit halves what it stands for (`Moorland.Rounding.StandsFor.shiftRightOne`).
-/

namespace Moorland

open Float.Model (Format UnpackedFloat totalExponent)
open Float.Model.UnpackedFloat

namespace Rounding

variable {S : Format} {s : Sign} {x y : ℚ} {m n : ℕ} {e f : ℤ}

/-! ### Residues -/

/-- **An extended significand stands for a rational**: it is the whole part, and its two further
bits say whether the rest is nothing, below one half, one half, or above. -/
def StandsFor : ExtendedMantissa → ℚ → Prop
  | ⟨m, false, false⟩, x => x = m
  | ⟨m, false, true⟩, x => (m : ℚ) < x ∧ x < m + 1 / 2
  | ⟨m, true, false⟩, x => x = m + 1 / 2
  | ⟨m, true, true⟩, x => (m : ℚ) + 1 / 2 < x ∧ x < m + 1

theorem StandsFor.floor_eq {em : ExtendedMantissa} (h : StandsFor em x) : ⌊x⌋₊ = em.mantissa := by
  obtain ⟨m, round, sticky⟩ := em
  have hm : (0 : ℚ) ≤ m := Nat.cast_nonneg m
  have hx : (m : ℚ) ≤ x ∧ x < m + 1 := by
    rcases round with _ | _ <;> rcases sticky with _ | _ <;> simp only [StandsFor] at h <;>
      constructor <;> linarith
  exact (Nat.floor_eq_iff (hm.trans hx.1)).mpr hx

/-- **The rounded significand is the nearest natural number.** -/
theorem StandsFor.roundedMantissa_eq {em : ExtendedMantissa} (h : StandsFor em x) :
    em.roundedMantissa = nearestNat x := by
  have hfloor := h.floor_eq
  obtain ⟨m, round, sticky⟩ := em
  simp only [nearestNat, hfloor]
  rcases round with _ | _ <;> rcases sticky with _ | _ <;> simp only [StandsFor] at h
  · rw [if_pos (by linarith)]
    rfl
  · rw [if_pos (by linarith)]
    rfl
  · rw [if_neg (by linarith), if_neg (by linarith)]
    rfl
  · rw [if_neg (by linarith), if_pos (by linarith)]
    rfl

/-- **Dropping a digit halves what is stood for.** -/
theorem StandsFor.shiftRightOne {em : ExtendedMantissa} (h : StandsFor em x) :
    StandsFor em.shiftRightOne (x / 2) := by
  obtain ⟨m, round, sticky⟩ := em
  have hm : (m : ℚ) = 2 * (m / 2 : ℕ) + (m % 2 : ℕ) := by exact_mod_cast (Nat.div_add_mod m 2).symm
  -- the digit that is dropped becomes the first of the two bits
  rcases Nat.mod_two_eq_zero_or_one m with hbit | hbit <;> rw [hbit] at hm <;>
    rcases round with _ | _ <;> rcases sticky with _ | _ <;>
    simp only [StandsFor, ExtendedMantissa.shiftRightOne, hbit, hm] at h ⊢ <;> push_cast at h ⊢ <;>
    norm_num at h ⊢ <;> first | linarith | constructor <;> linarith

theorem StandsFor.shiftRight {em : ExtendedMantissa} (h : StandsFor em x) (k : ℕ) :
    StandsFor (em >>> k) (x / 2 ^ k) := by
  change StandsFor (k.repeat ExtendedMantissa.shiftRightOne em) (x / 2 ^ k)
  induction k with
  | zero => simpa [Nat.repeat] using h
  | succ k ih =>
    rw [Nat.repeat, pow_succ, ← div_div]
    exact ih.shiftRightOne

theorem standsFor_exact (m : ℕ) : StandsFor (.ofMantissaAndAccuracy m .exact) m := rfl

/-! ### Rounding with a residue -/

/-- **The exponent that is aimed at is that of the last digit kept**, if no more digits have been
dropped already. -/
theorem targetExponent_eq (hx : 0 < x) (he : e ≤ unitExponent S x) (hm : ⌊x / 2 ^ e⌋₊ = m) :
    S.targetExponent (totalExponent m e) = unitExponent S x := by
  have hbits := mantissaBits_eq S
  rcases Nat.eq_zero_or_pos m with rfl | hpos
  · -- nothing is left of the number, so that its unit is the least one
    have hlt : x < 2 ^ e := by
      have h := Nat.floor_eq_zero.mp hm
      rwa [div_lt_one (two_zpow_pos e)] at h
    have hlog : Int.log 2 x < e := (Int.lt_zpow_iff_log_lt one_lt_two hx).mp hlt
    rw [unitExponent, Format.targetExponent] at he ⊢
    rw [totalExponent, Format.targetExponent, Nat.log2_zero]
    omega
  · have hfloor := (Nat.floor_eq_iff (div_pos hx (two_zpow_pos e)).le).mp hm
    have hlow : (m : ℚ) * 2 ^ e ≤ x := (le_div_iff₀ (two_zpow_pos e)).mp hfloor.1
    have hhigh : x < 2 ^ (m.log2 + e + 1) := by
      have hlt : x < (m + 1) * 2 ^ e := (div_lt_iff₀ (two_zpow_pos e)).mp hfloor.2
      refine hlt.trans_le ?_
      rw [add_right_comm, zpow_add₀ two_ne_zero]
      refine mul_le_mul_of_nonneg_right ?_ (two_zpow_pos e).le
      exact_mod_cast Nat.lt_log2_self (n := m)
    have h₁ : m.log2 + e ≤ Int.log 2 x := by
      rw [← log_mul_zpow hpos]
      exact Int.log_mono_right (mul_pos (by exact_mod_cast hpos) (two_zpow_pos e)) hlow
    have h₂ := (Int.lt_zpow_iff_log_lt one_lt_two hx).mp hhigh
    have hlog : Int.log 2 x = m.log2 + e := by omega
    rw [unitExponent, hlog, totalExponent, add_right_comm]

theorem shiftToExponent_snd (m : ℕ) (a : Accuracy) (h : e ≤ f) :
    (shiftToExponent m e a f).2 = f := by
  change e + ((f - e).toNat : ℤ) = f
  omega

theorem StandsFor.shiftToExponent {a : Accuracy} (h : StandsFor (.ofMantissaAndAccuracy m a) x)
    (hef : e ≤ f) : StandsFor (shiftToExponent m e a f).1 (x * 2 ^ e / 2 ^ f) := by
  have hexp : x * 2 ^ e / 2 ^ f = x / 2 ^ (f - e).toNat := by
    have hsub : ((f - e).toNat : ℤ) = f - e := by omega
    rw [← zpow_natCast, hsub, zpow_sub₀ two_ne_zero, div_div_eq_mul_div]
  rw [hexp]
  exact h.shiftRight _

/-- A significand within the digits of the format is not shifted again. -/
theorem shiftToTargetExponent_of_lt (hm : m < 2 ^ S.mantissaBits) (he : S.minExponent ≤ e) :
    shiftToTargetExponent S m e .exact = (⟨m, false, false⟩, e) := by
  have hle : S.targetExponent (totalExponent m e) ≤ e := by
    rw [Format.targetExponent, totalExponent]
    rcases Nat.eq_zero_or_pos m with rfl | hpos
    · have := mantissaBits_eq S
      rw [Nat.log2_zero]
      omega
    · have := (Nat.log2_lt hpos.ne').mpr hm
      omega
  have hshift : (S.targetExponent (totalExponent m e) - e).toNat = 0 := by omega
  rw [shiftToTargetExponent]
  simp only [Float.Model.UnpackedFloat.shiftToExponent, hshift]
  exact congrArg (Prod.mk _) (Int.add_zero e)

/-- A significand that has rounded up to one digit more loses its last digit. -/
theorem shiftToTargetExponent_carry (he : S.minExponent ≤ e) :
    shiftToTargetExponent S (2 ^ S.mantissaBits) e .exact =
      (⟨2 ^ S.mantissaBitsWithoutImplicit, false, false⟩, e + 1) := by
  have htarget : S.targetExponent (totalExponent (2 ^ S.mantissaBits) e) = e + 1 := by
    rw [Format.targetExponent, totalExponent, Nat.log2_two_pow]
    omega
  have hshift : (e + 1 - e).toNat = 1 := by omega
  rw [shiftToTargetExponent, htarget]
  simp only [Float.Model.UnpackedFloat.shiftToExponent, hshift]
  refine congrArg (·, _) ?_
  change ExtendedMantissa.shiftRightOne ⟨2 ^ S.mantissaBits, false, false⟩ = _
  rw [ExtendedMantissa.shiftRightOne, mantissaBits_eq, pow_succ]
  simp

/-- The number with a significand and an exponent, or the zero. -/
def finiteOrZero (s : Sign) (r : ExtendedMantissa × ℤ) : UnpackedFloat :=
  if h : r.1.mantissa = 0 then .zero s else .finite s r.1.mantissa r.2 (Nat.pos_of_ne_zero h)

theorem roundWithAccuracy_eq_finiteOrZero (S : Format) (s : Sign) (m : ℕ) (e : ℤ) (a : Accuracy) :
    roundWithAccuracy S s m e a =
      let r := shiftToTargetExponent S m e a
      finiteOrZero s (shiftToTargetExponent S r.1.roundedMantissa r.2 .exact) := rfl

/-- **Rounding a significand with a residue rounds to nearest.** -/
theorem roundWithAccuracy_eq {a : Accuracy} (hx : 0 < x) (he : e ≤ unitExponent S x)
    (ha : StandsFor (.ofMantissaAndAccuracy m a) (x / 2 ^ e)) :
    roundWithAccuracy S s m e a = nearest S s x := by
  have hmin := minExponent_le_unitExponent S x
  have hm : ⌊x / 2 ^ e⌋₊ = m := by
    rw [ha.floor_eq]
    rcases a with _ | _ | _ | _ <;> rfl
  have hshifted := ha.shiftToExponent he
  rw [div_mul_cancel₀ x (two_zpow_pos e).ne'] at hshifted
  -- the significand after the shift is that of the nearest number, perhaps with a digit too many
  have hrounded : (shiftToExponent m e a (unitExponent S x)).1.roundedMantissa =
      nearestNat (inUnits S x) := hshifted.roundedMantissa_eq
  have hfirst : shiftToTargetExponent S m e a = shiftToExponent m e a (unitExponent S x) := by
    rw [shiftToTargetExponent, targetExponent_eq hx he hm]
  rw [roundWithAccuracy_eq_finiteOrZero, hfirst]
  simp only [hrounded, shiftToExponent_snd m a he]
  have hle : nearestNat (inUnits S x) ≤ 2 ^ S.mantissaBits :=
    nearestNat_le (inUnits_nonneg hx) (by exact_mod_cast (inUnits_lt S x).le)
  by_cases hcarry : nearestNat (inUnits S x) = 2 ^ S.mantissaBits
  · rw [nearest_of_eq_two_pow s hcarry, hcarry, shiftToTargetExponent_carry hmin]
    exact dif_neg (Nat.two_pow_pos _).ne'
  rw [shiftToTargetExponent_of_lt (lt_of_le_of_ne hle hcarry) hmin]
  by_cases hzero : nearestNat (inUnits S x) = 0
  · rw [nearest_of_eq_zero s hzero]
    exact dif_pos hzero
  · rw [nearest_of_ne s hzero hcarry]
    exact dif_neg hzero

/-! ### Operations -/

theorem mul_zpow_pos (hm : 0 < m) (e : ℤ) : (0 : ℚ) < m * 2 ^ e :=
  mul_pos (by exact_mod_cast hm) (two_zpow_pos e)

/-- More digits at a lower exponent do not change a number. -/
theorem shiftLeft_mul_zpow (m k : ℕ) (e : ℤ) :
    ((m <<< k : ℕ) : ℚ) * 2 ^ (e - k) = m * 2 ^ e := by
  rw [Nat.shiftLeft_eq, zpow_sub₀ two_ne_zero, zpow_natCast, Nat.cast_mul, Nat.cast_pow,
    Nat.cast_ofNat, mul_assoc, mul_div_cancel₀ _ (pow_ne_zero k two_ne_zero)]

/-- **A number can be written at any lower exponent.** -/
theorem shiftLeft_toNat_mul_zpow (m : ℕ) {e g : ℤ} (hg : g ≤ e) :
    ((m <<< (e - g).toNat : ℕ) : ℚ) * 2 ^ g = m * 2 ^ e := by
  have hshift := shiftLeft_mul_zpow m (e - g).toNat e
  rwa [Int.toNat_of_nonneg (Int.sub_nonneg_of_le hg), sub_sub_cancel] at hshift

/-- **Rounding a significand and an exponent rounds to nearest.** -/
theorem round_eq (hm : 0 < m) (e : ℤ) :
    UnpackedFloat.round S s m e = nearest S s (m * 2 ^ e) := by
  have htarget : S.targetExponent (totalExponent m e) = unitExponent S (m * 2 ^ e) := by
    rw [unitExponent, log_mul_zpow hm, totalExponent, add_right_comm]
  rw [UnpackedFloat.round, htarget]
  simp only [decreaseExponent]
  refine roundWithAccuracy_eq (mul_zpow_pos hm e) (by omega) ?_
  generalize (e - unitExponent S (m * 2 ^ e)).toNat = k
  rw [← shiftLeft_mul_zpow m k e, mul_div_cancel_right₀ _ (two_zpow_pos _).ne']
  exact standsFor_exact _

/-- **A quotient of natural numbers, with what is left over**, stands for the quotient. -/
theorem standsFor_div (k : ℕ) {d : ℕ} (hd : 0 < d) :
    StandsFor (.ofMantissaAndAccuracy (k / d) (accuracyOfFraction (k % d) d)) (k / d : ℚ) := by
  have hd' : (0 : ℚ) < d := by exact_mod_cast hd
  have hk : (k : ℚ) / d = (k / d : ℕ) + (k % d : ℕ) / d := by
    rw [eq_comm, add_div' _ _ _ hd'.ne', div_left_inj' hd'.ne']
    exact_mod_cast Nat.div_add_mod' k d
  have hlt : ((k % d : ℕ) : ℚ) / d < 1 := by
    rw [div_lt_one hd']
    exact_mod_cast Nat.mod_lt k hd
  rw [hk, accuracyOfFraction]
  split_ifs with h₀
  · rw [h₀, Nat.cast_zero, zero_div, add_zero]
    exact standsFor_exact _
  · have hpos : (0 : ℚ) < (k % d : ℕ) / d := div_pos (by exact_mod_cast Nat.pos_of_ne_zero h₀) hd'
    -- twice what is left over is below the divisor, equal to it, or above it
    rcases hcompare : compare (2 * (k % d)) d with _ | _ | _
    · have hhalf : ((k % d : ℕ) : ℚ) / d < 1 / 2 := by
        rw [div_lt_div_iff₀ hd' two_pos, one_mul, mul_comm]
        exact_mod_cast Nat.compare_eq_lt.mp hcompare
      exact ⟨by linarith, by linarith⟩
    · have hhalf : ((k % d : ℕ) : ℚ) / d = 1 / 2 := by
        rw [div_eq_div_iff hd'.ne' two_ne_zero, one_mul, mul_comm]
        exact_mod_cast Nat.compare_eq_eq.mp hcompare
      exact congrArg _ hhalf
    · have hhalf : (1 : ℚ) / 2 < (k % d : ℕ) / d := by
        rw [div_lt_div_iff₀ two_pos hd', one_mul, mul_comm _ (2 : ℚ)]
        exact_mod_cast Nat.compare_eq_gt.mp hcompare
      exact ⟨by linarith, by linarith⟩

/-- The logarithm of a quotient is that of the dividend less that of the divisor, or one less. -/
theorem le_log_div (hx : 0 < x) (hy : 0 < y) :
    Int.log 2 x - Int.log 2 y - 1 ≤ Int.log 2 (x / y) := by
  have hlow : (2 : ℚ) ^ Int.log 2 x ≤ x := Int.zpow_log_le_self one_lt_two hx
  have hhigh : y < (2 : ℚ) ^ (Int.log 2 y + 1) := Int.lt_zpow_succ_log_self one_lt_two y
  refine (Int.zpow_le_iff_le_log one_lt_two (div_pos hx hy)).mp ?_
  rw [Nat.cast_ofNat, le_div_iff₀ hy, sub_sub, zpow_sub₀ two_ne_zero]
  calc (2 : ℚ) ^ Int.log 2 x / 2 ^ (Int.log 2 y + 1) * y
      ≤ 2 ^ Int.log 2 x / 2 ^ (Int.log 2 y + 1) * 2 ^ (Int.log 2 y + 1) :=
        mul_le_mul_of_nonneg_left hhigh.le (div_pos (two_zpow_pos _) (two_zpow_pos _)).le
    _ = 2 ^ Int.log 2 x := div_mul_cancel₀ _ (two_zpow_pos _).ne'
    _ ≤ x := hlow

/-- **A quotient is rounded to nearest.** -/
theorem div_finite_eq {t : Sign} (hm : 0 < m) (hn : 0 < n) :
    UnpackedFloat.div S (.finite s m e hm) (.finite t n f hn) =
      nearest S (s / t) (m * 2 ^ e / (n * 2 ^ f)) := by
  have hx := mul_zpow_pos hm e
  have hy := mul_zpow_pos hn f
  obtain ⟨g, hg⟩ : ∃ g,
      g = min (e - f) (S.targetExponent (totalExponent m e - totalExponent n f)) := ⟨_, rfl⟩
  have hdiv : UnpackedFloat.div S (.finite s m e hm) (.finite t n f hn) =
      roundWithAccuracy S (s / t) (m <<< (e - f - g).toNat / n) g
        (accuracyOfFraction (m <<< (e - f - g).toNat % n) n) := by
    rw [hg]
    rfl
  have hge : g ≤ e - f := hg.trans_le (min_le_left _ _)
  rw [hdiv]
  refine roundWithAccuracy_eq (div_pos hx hy) ?_ ?_
  · -- enough digits of the quotient are computed
    have hlog := le_log_div hx hy
    have hgt : g ≤ S.targetExponent (totalExponent m e - totalExponent n f) :=
      hg.trans_le (min_le_right _ _)
    rw [log_mul_zpow hm, log_mul_zpow hn] at hlog
    rw [unitExponent]
    simp only [Format.targetExponent, totalExponent] at hgt ⊢
    omega
  · have hquot : (m : ℚ) * 2 ^ e / (n * 2 ^ f) / 2 ^ g =
        ((m <<< (e - f - g).toNat : ℕ) : ℚ) / n := by
      have hexp : ((e - f - g).toNat : ℤ) = e - f - g := by omega
      have hn' : (n : ℚ) ≠ 0 := by exact_mod_cast hn.ne'
      rw [Nat.shiftLeft_eq, Nat.cast_mul, Nat.cast_pow, Nat.cast_ofNat, ← zpow_natCast, hexp,
        zpow_sub₀ two_ne_zero, zpow_sub₀ two_ne_zero]
      field_simp
    rw [hquot]
    exact standsFor_div _ hn

/-- **A product is rounded to nearest** if its significands have enough digits. -/
theorem mul_finite_eq {t : Sign} (hm : 0 < m) (hn : 0 < n)
    (he : e + f ≤ unitExponent S (m * 2 ^ e * (n * 2 ^ f))) :
    UnpackedFloat.mul S (.finite s m e hm) (.finite t n f hn) =
      nearest S (s * t) (m * 2 ^ e * (n * 2 ^ f)) := by
  have hproduct : (m : ℚ) * 2 ^ e * (n * 2 ^ f) = (m * n : ℕ) * 2 ^ (e + f) := by
    rw [zpow_add₀ two_ne_zero]
    push_cast
    ring
  rw [hproduct] at he ⊢
  refine roundWithAccuracy_eq (mul_zpow_pos (Nat.mul_pos hm hn) _) he ?_
  rw [mul_div_cancel_right₀ _ (two_zpow_pos _).ne']
  exact standsFor_exact _

/-- **A sum of numbers above zero is rounded to nearest.** -/
theorem add_finite_eq (hm : 0 < m) (hn : 0 < n) :
    UnpackedFloat.add S (.finite .positive m e hm) (.finite .positive n f hn) =
      nearest S .positive (m * 2 ^ e + n * 2 ^ f) := by
  have hleft := shiftLeft_toNat_mul_zpow m (min_le_left e f)
  have hright := shiftLeft_toNat_mul_zpow n (min_le_right e f)
  have hpos : 0 < m <<< (e - min e f).toNat + n <<< (f - min e f).toNat :=
    Nat.add_pos_left (by rw [Nat.shiftLeft_eq]; positivity) _
  have hadd : UnpackedFloat.add S (.finite .positive m e hm) (.finite .positive n f hn) =
      UnpackedFloat.normalize S
        ((m <<< (e - min e f).toNat : ℕ) + (n <<< (f - min e f).toNat : ℕ)) (min e f) .positive :=
    rfl
  rw [hadd, ← Nat.cast_add, UnpackedFloat.normalize, Int.compare_eq_gt.mpr (by exact_mod_cast hpos)]
  change UnpackedFloat.round S .positive (m <<< _ + n <<< _) _ = _
  rw [round_eq hpos, Nat.cast_add, add_mul, hleft, hright]

end Rounding

end Moorland
