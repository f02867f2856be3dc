import Mathlib.Data.Int.Log
import Mathlib.Data.Rat.Floor
/-!
# Rounding to nearest

The numbers of a floating-point format are the **dyadic** numbers `m * 2 ^ e` whose significand `m`
has no more binary digits than the format and whose exponent `e` is not below its least one. This
file rounds a positive rational to the nearest of them (`Moorland.Rounding.nearest`): it is counted
in units of the last digit that the format keeps of it (`Moorland.Rounding.inUnits`), and the count
is rounded to a natural number, a tie going to the even one.

Three facts are all that the rest of the theory needs to know about this. A number of the format is
rounded to itself (`Moorland.Rounding.IsCanonical.nearest_eq`), rounding never passes a number of
the format (`Moorland.Rounding.le_magnitude_nearest`, `Moorland.Rounding.magnitude_nearest_le`), and
it never exchanges two numbers (`Moorland.Rounding.magnitude_nearest_mono`).
No bound from above on exponents is looked at here, so that nothing is infinite.
-/

namespace Moorland

open Float.Model (Format UnpackedFloat totalExponent)
open Float.Model.UnpackedFloat (Sign)

namespace Rounding

/-! ### The nearest natural number -/

/-- **The natural number nearest to a rational** that is not below zero. Of two that are equally
near, it is the even one. -/
def nearestNat (x : ℚ) : ℕ :=
  let k := ⌊x⌋₊
  if x - k < 1 / 2 then k else if 1 / 2 < x - k then k + 1 else k + k % 2

theorem nearestNat_cases (x : ℚ) : nearestNat x = ⌊x⌋₊ ∨ nearestNat x = ⌊x⌋₊ + 1 := by
  simp only [nearestNat]
  split_ifs <;> omega

/-- **Rounding does not pass a natural number from above.** -/
theorem le_nearestNat {n : ℕ} {x : ℚ} (h : (n : ℚ) ≤ x) : n ≤ nearestNat x := by
  have hfloor : n ≤ ⌊x⌋₊ := Nat.le_floor h
  rcases nearestNat_cases x with hx | hx <;> omega

@[simp] theorem nearestNat_natCast (n : ℕ) : nearestNat n = n := by
  simp [nearestNat]

/-- **Rounding does not pass a natural number from below.** -/
theorem nearestNat_le {n : ℕ} {x : ℚ} (hx : 0 ≤ x) (h : x ≤ n) : nearestNat x ≤ n := by
  rcases h.eq_or_lt with rfl | hlt
  · rw [nearestNat_natCast]
  · have hfloor : ⌊x⌋₊ < n := (Nat.floor_lt hx).mpr hlt
    rcases nearestNat_cases x with hx | hx <;> omega

/-- **Rounding to a natural number is monotone.** -/
theorem nearestNat_mono {x y : ℚ} (h : x ≤ y) : nearestNat x ≤ nearestNat y := by
  rcases (Nat.floor_mono h).eq_or_lt with hfloor | hfloor
  · -- between the same two natural numbers it is the rest that decides
    simp only [nearestNat, hfloor]
    split_ifs <;> first | omega | linarith
  · have hx := nearestNat_cases x
    have hy := nearestNat_cases y
    omega

/-- **The nearest natural number is at most one half away.** -/
theorem abs_nearestNat_sub_le {x : ℚ} (hx : 0 ≤ x) : |(nearestNat x : ℚ) - x| ≤ 1 / 2 := by
  have hlow : (⌊x⌋₊ : ℚ) ≤ x := Nat.floor_le hx
  have hhigh : x < ⌊x⌋₊ + 1 := Nat.lt_floor_add_one x
  simp only [nearestNat]
  split_ifs with h₀ h₁
  · rw [abs_le]
    constructor <;> linarith
  · rw [abs_le, Nat.cast_succ]
    constructor <;> linarith
  · -- a tie, where both neighbours are one half away
    rcases Nat.mod_two_eq_zero_or_one ⌊x⌋₊ with h | h <;> rw [h, abs_le] <;> push_cast <;>
      constructor <;> linarith

/-! ### The unit of a format -/

variable {S : Format} {s : Sign} {x r : ℚ} {m : ℕ} {e : ℤ}

/-- **The exponent of the last binary digit** that a format keeps of a number. -/
def unitExponent (S : Format) (x : ℚ) : ℤ := S.targetExponent (Int.log 2 x + 1)

/-- A number counted in units of its last digit. -/
def inUnits (S : Format) (x : ℚ) : ℚ := x / 2 ^ unitExponent S x

theorem two_zpow_pos (e : ℤ) : (0 : ℚ) < 2 ^ e := zpow_pos two_pos e

theorem minExponent_le_unitExponent (S : Format) (x : ℚ) : S.minExponent ≤ unitExponent S x :=
  le_max_right _ _

theorem mantissaBits_eq (S : Format) : S.mantissaBits = S.mantissaBitsWithoutImplicit + 1 :=
  Nat.add_comm _ _

theorem inUnits_nonneg (hx : 0 < x) : 0 ≤ inUnits S x := (div_pos hx (two_zpow_pos _)).le

theorem inUnits_mul (S : Format) (x : ℚ) : inUnits S x * 2 ^ unitExponent S x = x :=
  div_mul_cancel₀ x (two_zpow_pos _).ne'

/-- **A number has no more units than digits allow.** -/
theorem inUnits_lt (S : Format) (x : ℚ) : inUnits S x < 2 ^ S.mantissaBits := by
  have hlog : x < 2 ^ (Int.log 2 x + 1) := Int.lt_zpow_succ_log_self one_lt_two x
  have hunit : Int.log 2 x + 1 ≤ S.mantissaBits + unitExponent S x := by
    have := le_max_left (Int.log 2 x + 1 - S.mantissaBits) S.minExponent
    rw [unitExponent, Format.targetExponent]
    omega
  rw [inUnits, div_lt_iff₀ (two_zpow_pos _), ← zpow_natCast, ← zpow_add₀ two_ne_zero]
  exact hlog.trans_le (zpow_le_zpow_right₀ one_le_two hunit)

/-- **A number has all of its digits, or the least unit.** -/
theorem unitExponent_eq_or (hx : 0 < x) : unitExponent S x = S.minExponent ∨
    2 ^ S.mantissaBitsWithoutImplicit ≤ inUnits S x := by
  rcases max_choice (Int.log 2 x + 1 - S.mantissaBits) S.minExponent with h | h
  · right
    have hunit : (S.mantissaBitsWithoutImplicit : ℤ) + unitExponent S x = Int.log 2 x := by
      rw [unitExponent, Format.targetExponent, h, mantissaBits_eq]
      omega
    rw [inUnits, le_div_iff₀ (two_zpow_pos _), ← zpow_natCast, ← zpow_add₀ two_ne_zero, hunit]
    exact Int.zpow_log_le_self one_lt_two hx
  · exact .inl h

/-! ### Canonical numbers -/

/-- **A significand and an exponent in canonical form**: the exponent is the least one that leaves
no more digits than the format has. -/
structure IsCanonical (S : Format) (m : ℕ) (e : ℤ) : Prop where
  /-- The significand has no more digits than the format. -/
  lt : m < 2 ^ S.mantissaBits
  /-- The exponent is not below the least one. -/
  le : S.minExponent ≤ e
  /-- The significand has all digits, or the exponent is the least one. -/
  normal : 2 ^ S.mantissaBitsWithoutImplicit ≤ m ∨ e = S.minExponent

/-- **The binary logarithm of a significand and an exponent.** -/
theorem log_mul_zpow (hm : 0 < m) (e : ℤ) : Int.log 2 ((m : ℚ) * 2 ^ e) = m.log2 + e := by
  have hlow : (2 : ℚ) ^ (m.log2 + e) ≤ m * 2 ^ e := by
    rw [zpow_add₀ two_ne_zero, zpow_natCast]
    exact mul_le_mul_of_nonneg_right (by exact_mod_cast Nat.log2_self_le hm.ne')
      (two_zpow_pos e).le
  have hhigh : (m : ℚ) * 2 ^ e < 2 ^ (m.log2 + e + 1) := by
    rw [add_right_comm, zpow_add₀ two_ne_zero]
    refine mul_lt_mul_of_pos_right ?_ (two_zpow_pos e)
    exact_mod_cast Nat.lt_log2_self (n := m)
  have hpos : (0 : ℚ) < m * 2 ^ e := mul_pos (by exact_mod_cast hm) (two_zpow_pos e)
  have h₁ := (Int.zpow_le_iff_le_log one_lt_two hpos).mp hlow
  have h₂ := (Int.lt_zpow_iff_log_lt one_lt_two hpos).mp hhigh
  omega

theorem IsCanonical.unitExponent_eq (hc : IsCanonical S m e) (hm : 0 < m) :
    unitExponent S (m * 2 ^ e) = e := by
  have hdigits := hc.lt
  have hle := hc.le
  rw [unitExponent, log_mul_zpow hm, Format.targetExponent]
  have hlog : m.log2 < S.mantissaBits := (Nat.log2_lt hm.ne').mpr hdigits
  rcases hc.normal with h | h
  · have := (Nat.le_log2 hm.ne').mpr h
    have := mantissaBits_eq S
    omega
  · omega

theorem IsCanonical.inUnits_eq (hc : IsCanonical S m e) (hm : 0 < m) :
    inUnits S (m * 2 ^ e) = m := by
  rw [inUnits, hc.unitExponent_eq hm, mul_div_cancel_right₀ _ (two_zpow_pos e).ne']

/-! ### The nearest number of a format -/

/-- **The number of a format nearest to a positive rational**, with a sign. The significand may
round up to one with a digit too many, of which the last is then dropped; no exponent is too
large. -/
def nearest (S : Format) (s : Sign) (x : ℚ) : UnpackedFloat :=
  let k := nearestNat (inUnits S x)
  if h : k = 0 then .zero s
  else if k = 2 ^ S.mantissaBits then
    .finite s (2 ^ S.mantissaBitsWithoutImplicit) (unitExponent S x + 1) (Nat.two_pow_pos _)
  else .finite s k (unitExponent S x) (Nat.pos_of_ne_zero h)

theorem nearest_of_eq_zero (s : Sign) (h : nearestNat (inUnits S x) = 0) :
    nearest S s x = .zero s := dif_pos h

theorem nearest_of_eq_two_pow (s : Sign) (h : nearestNat (inUnits S x) = 2 ^ S.mantissaBits) :
    nearest S s x = .finite s (2 ^ S.mantissaBitsWithoutImplicit) (unitExponent S x + 1)
      (Nat.two_pow_pos _) :=
  (dif_neg (h ▸ (Nat.two_pow_pos _).ne')).trans (if_pos h)

theorem nearest_of_ne (s : Sign) (h₀ : nearestNat (inUnits S x) ≠ 0)
    (h₁ : nearestNat (inUnits S x) ≠ 2 ^ S.mantissaBits) : nearest S s x =
      .finite s (nearestNat (inUnits S x)) (unitExponent S x) (Nat.pos_of_ne_zero h₀) :=
  (dif_neg h₀).trans (if_neg h₁)

/-- The size of an unpacked number, without its sign; zero for what is not finite. -/
def magnitude : UnpackedFloat → ℚ
  | .finite _ m e _ => m * 2 ^ e
  | _ => 0

@[simp] theorem magnitude_zero (s : Sign) : magnitude (.zero s) = 0 := rfl

@[simp] theorem magnitude_finite (s : Sign) (m : ℕ) (e : ℤ) (hm : 0 < m) :
    magnitude (.finite s m e hm) = m * 2 ^ e := rfl

theorem magnitude_nearest (S : Format) (s : Sign) (x : ℚ) :
    magnitude (nearest S s x) = nearestNat (inUnits S x) * 2 ^ unitExponent S x := by
  by_cases h₀ : nearestNat (inUnits S x) = 0
  · rw [nearest_of_eq_zero s h₀, h₀, Nat.cast_zero, zero_mul, magnitude_zero]
  by_cases h₁ : nearestNat (inUnits S x) = 2 ^ S.mantissaBits
  · rw [nearest_of_eq_two_pow s h₁, h₁, magnitude_finite, zpow_add₀ two_ne_zero, mantissaBits_eq]
    push_cast
    ring
  · rw [nearest_of_ne s h₀ h₁, magnitude_finite]

/-- **A canonical number is nearest to itself.** -/
theorem IsCanonical.nearest_eq (hc : IsCanonical S m e) (hm : 0 < m) :
    nearest S s (m * 2 ^ e) = .finite s m e hm := by
  have hk : nearestNat (inUnits S (m * 2 ^ e)) = m := by rw [hc.inUnits_eq hm, nearestNat_natCast]
  have he : unitExponent S (m * 2 ^ e) = e := hc.unitExponent_eq hm
  -- the significand and the exponent are named by what is computed
  generalize (m : ℚ) * 2 ^ e = x at hk he ⊢
  subst hk he
  exact nearest_of_ne s hm.ne' hc.lt.ne

/-- An unpacked number is in canonical form, unless it is not finite or zero. -/
def Canonical (S : Format) : UnpackedFloat → Prop
  | .finite _ m e _ => IsCanonical S m e
  | _ => True

/-- **What is rounded to is canonical.** -/
theorem canonical_nearest (hx : 0 < x) : Canonical S (nearest S s x) := by
  have hmin := minExponent_le_unitExponent S x
  by_cases h₀ : nearestNat (inUnits S x) = 0
  · rw [nearest_of_eq_zero s h₀]
    trivial
  by_cases h₁ : nearestNat (inUnits S x) = 2 ^ S.mantissaBits
  · rw [nearest_of_eq_two_pow s h₁]
    refine ⟨Nat.pow_lt_pow_right one_lt_two ?_, by omega, .inl le_rfl⟩
    have := mantissaBits_eq S
    omega
  · rw [nearest_of_ne s h₀ h₁]
    refine ⟨lt_of_le_of_ne (nearestNat_le (inUnits_nonneg hx) ?_) h₁, hmin, ?_⟩
    · exact_mod_cast (inUnits_lt S x).le
    · rcases unitExponent_eq_or (S := S) hx with h | h
      · exact .inr h
      · exact .inl (le_nearestNat (by exact_mod_cast h))

/-- **A number that a format could hold** if no exponent were too large for it. -/
def IsRepresentable (S : Format) (r : ℚ) : Prop :=
  ∃ (m : ℕ) (e : ℤ), m < 2 ^ S.mantissaBits ∧ S.minExponent ≤ e ∧ r = m * 2 ^ e

/-- A representable number below the unit of another one is below all numbers with that unit and all
digits. -/
theorem IsRepresentable.cases (hr : IsRepresentable S r) (hx : 0 < x) :
    (∃ n : ℕ, r = n * 2 ^ unitExponent S x) ∨
      r < 2 ^ S.mantissaBitsWithoutImplicit * 2 ^ unitExponent S x ∧
        2 ^ S.mantissaBitsWithoutImplicit ≤ inUnits S x := by
  obtain ⟨m, e, hm, he, rfl⟩ := hr
  by_cases hle : unitExponent S x ≤ e
  · refine .inl ⟨m * 2 ^ (e - unitExponent S x).toNat, ?_⟩
    have hexp : ((e - unitExponent S x).toNat : ℤ) + unitExponent S x = e := by omega
    rw [Nat.cast_mul, Nat.cast_pow, Nat.cast_ofNat, mul_assoc, ← zpow_natCast,
      ← zpow_add₀ two_ne_zero, hexp]
  · right
    have hfull := (unitExponent_eq_or (S := S) hx).resolve_left (by omega)
    refine ⟨?_, hfull⟩
    have hstep : (2 : ℚ) ^ (S.mantissaBits : ℤ) * 2 ^ e ≤
        2 ^ (S.mantissaBitsWithoutImplicit : ℤ) * 2 ^ unitExponent S x := by
      rw [← zpow_add₀ two_ne_zero, ← zpow_add₀ two_ne_zero]
      refine zpow_le_zpow_right₀ one_le_two ?_
      have := mantissaBits_eq S
      omega
    rw [← zpow_natCast]
    refine lt_of_lt_of_le (mul_lt_mul_of_pos_right ?_ (two_zpow_pos e)) hstep
    exact_mod_cast hm

/-- **Rounding does not pass a representable number from above.** -/
theorem le_magnitude_nearest (hr : IsRepresentable S r) (hx : 0 < x) (h : r ≤ x) :
    r ≤ magnitude (nearest S s x) := by
  rw [magnitude_nearest]
  rcases hr.cases hx with ⟨n, rfl⟩ | ⟨hlt, hfull⟩
  · have hn : (n : ℚ) ≤ inUnits S x := (le_div_iff₀ (two_zpow_pos _)).mpr h
    refine mul_le_mul_of_nonneg_right ?_ (two_zpow_pos _).le
    exact_mod_cast le_nearestNat hn
  · refine hlt.le.trans (mul_le_mul_of_nonneg_right ?_ (two_zpow_pos _).le)
    exact_mod_cast le_nearestNat (n := 2 ^ S.mantissaBitsWithoutImplicit) (by exact_mod_cast hfull)

/-- **Rounding does not pass a representable number from below.** -/
theorem magnitude_nearest_le (hr : IsRepresentable S r) (hx : 0 < x) (h : x ≤ r) :
    magnitude (nearest S s x) ≤ r := by
  rw [magnitude_nearest]
  rcases hr.cases hx with ⟨n, rfl⟩ | ⟨hlt, hfull⟩
  · have hn : inUnits S x ≤ n := (div_le_iff₀ (two_zpow_pos _)).mpr h
    refine mul_le_mul_of_nonneg_right ?_ (two_zpow_pos _).le
    exact_mod_cast nearestNat_le (inUnits_nonneg hx) hn
  · -- the number would have fewer digits than its unit says
    refine absurd (hlt.trans_le ?_) (not_lt.mpr h)
    exact (mul_le_mul_of_nonneg_right hfull (two_zpow_pos _).le).trans_eq (inUnits_mul S x)

theorem unitExponent_mono {y : ℚ} (S : Format) (hx : 0 < x) (h : x ≤ y) :
    unitExponent S x ≤ unitExponent S y := by
  have hlog : Int.log 2 x ≤ Int.log 2 y := Int.log_mono_right hx h
  rw [unitExponent, unitExponent, Format.targetExponent, Format.targetExponent]
  omega

/-- **Rounding to a format is monotone.** -/
theorem magnitude_nearest_mono {y : ℚ} (hx : 0 < x) (h : x ≤ y) :
    magnitude (nearest S s x) ≤ magnitude (nearest S s y) := by
  have hy : 0 < y := hx.trans_le h
  rcases (unitExponent_mono S hx h).eq_or_lt with hunit | hunit
  · have hunits : inUnits S x ≤ inUnits S y := by
      rw [inUnits, inUnits, hunit]
      exact div_le_div_of_nonneg_right h (two_zpow_pos _).le
    rw [magnitude_nearest, magnitude_nearest, hunit]
    refine mul_le_mul_of_nonneg_right ?_ (two_zpow_pos _).le
    exact_mod_cast nearestNat_mono hunits
  · -- the least number with the unit of `y` and all digits is between the two
    have hmin := minExponent_le_unitExponent S x
    have hbits := mantissaBits_eq S
    have hbetween : IsRepresentable S
        (2 ^ S.mantissaBitsWithoutImplicit * 2 ^ unitExponent S y) :=
      ⟨2 ^ S.mantissaBitsWithoutImplicit, unitExponent S y,
        Nat.pow_lt_pow_right one_lt_two (by omega), minExponent_le_unitExponent S y, by norm_cast⟩
    have hlow : x ≤ 2 ^ S.mantissaBitsWithoutImplicit * 2 ^ unitExponent S y := by
      have hlt := (div_lt_iff₀ (two_zpow_pos _)).mp (inUnits_lt S x)
      refine hlt.le.trans ?_
      rw [← zpow_natCast, ← zpow_natCast, ← zpow_add₀ two_ne_zero, ← zpow_add₀ two_ne_zero]
      exact zpow_le_zpow_right₀ one_le_two (by omega)
    have hhigh : 2 ^ S.mantissaBitsWithoutImplicit * 2 ^ unitExponent S y ≤ y := by
      have hfull := (unitExponent_eq_or (S := S) hy).resolve_left (by omega)
      exact (le_div_iff₀ (two_zpow_pos _)).mp hfull
    exact (magnitude_nearest_le hbetween hx hlow).trans (le_magnitude_nearest hbetween hy hhigh)

theorem nearest_zero (S : Format) (s : Sign) : nearest S s 0 = .zero s := by
  refine nearest_of_eq_zero s ?_
  rw [inUnits, zero_div]
  exact_mod_cast nearestNat_natCast 0

theorem canonical_nearest_of_nonneg (hx : 0 ≤ x) : Canonical S (nearest S s x) := by
  rcases hx.eq_or_lt with rfl | hpos
  · rw [nearest_zero]
    trivial
  · exact canonical_nearest hpos

theorem nearest_cases (S : Format) (s : Sign) (x : ℚ) :
    nearest S s x = .zero s ∨ ∃ m e hm, nearest S s x = .finite s m e hm := by
  by_cases h₀ : nearestNat (inUnits S x) = 0
  · exact .inl (nearest_of_eq_zero s h₀)
  by_cases h₁ : nearestNat (inUnits S x) = 2 ^ S.mantissaBits
  · exact .inr ⟨_, _, _, nearest_of_eq_two_pow s h₁⟩
  · exact .inr ⟨_, _, _, nearest_of_ne s h₀ h₁⟩

/-- **A representable number is rounded to itself.** -/
theorem exists_nearest_eq (S : Format) (s : Sign) (hr : IsRepresentable S x) (hx : 0 < x) :
    ∃ m e hm, nearest S s x = .finite s m e hm ∧ (m : ℚ) * 2 ^ e = x := by
  have hmagnitude : magnitude (nearest S s x) = x :=
    le_antisymm (magnitude_nearest_le hr hx le_rfl) (le_magnitude_nearest hr hx le_rfl)
  rcases nearest_cases S s x with h | ⟨m, e, hm, h⟩ <;> rw [h] at hmagnitude
  · exact absurd hmagnitude hx.ne
  · exact ⟨m, e, hm, h, hmagnitude⟩

end Rounding

end Moorland
