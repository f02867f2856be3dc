import Moorland.Proofs.Rounding.Whole
/-!
# Sums of levels in double precision

The mean of a channel is a sum of levels in double precision, divided by their number. Every partial
sum is rounded, and so it is not plain that the mean is a level. It is one because the number of
levels that have been added up is a bound which rounding does not pass, as long as it is a number of
the format. From the first number on that has a digit too many, which is one above `2 ^ 53`, the sum
does not grow any more: one more is a tie, and goes to the even neighbour
(`Moorland.Double.magnitude_nearest_le_cap`). So the bound is the smaller of the two numbers
(`Moorland.Double.cap`), and it is not above the divisor, rounded, for any number of levels.

All of this is about numbers that are finite and not below zero (`Moorland.Rounding.IsNonneg`), and
what an operation makes of them (`Moorland.Rounding.Rounds`).
-/

namespace Moorland

open Float.Model (Format UnpackedFloat)
open Float.Model.UnpackedFloat

/-! ### Operations on numbers that are not below zero -/

namespace Rounding

variable {S : Format} {x : ℚ} {u w : UnpackedFloat}

/-- **Finite, and not below zero.** -/
def IsNonneg : UnpackedFloat → Prop
  | .zero _ => True
  | .finite s _ _ _ => s = .positive
  | _ => False

/-- **The number is a rational, rounded to nearest**, but for the sign of a zero. -/
structure Rounds (S : Format) (u : UnpackedFloat) (x : ℚ) : Prop where
  /-- The number is finite and not below zero. -/
  isNonneg : IsNonneg u
  /-- The number is one of the format, if its exponent is not too large. -/
  canonical : Canonical S u
  /-- The number has the size of the rounded rational. -/
  magnitude_eq : magnitude u = magnitude (nearest S .positive x)

theorem rounds_zero (S : Format) (s : Sign) : Rounds S (.zero s) 0 :=
  ⟨trivial, trivial, by rw [nearest_zero, magnitude_zero, magnitude_zero]⟩

theorem rounds_nearest (S : Format) (hx : 0 ≤ x) : Rounds S (nearest S .positive x) x := by
  refine ⟨?_, canonical_nearest_of_nonneg hx, rfl⟩
  rcases nearest_cases S .positive x with h | ⟨m, e, hm, h⟩ <;> rw [h]
  · trivial
  · rfl

/-- **A number of the format is itself, rounded.** -/
theorem IsNonneg.rounds (hu : IsNonneg u) (hc : Canonical S u) : Rounds S u (magnitude u) := by
  refine ⟨hu, hc, ?_⟩
  cases u with
  | notANumber | infinity => exact hu.elim
  | zero s => exact (rounds_zero S s).magnitude_eq
  | finite s m e hm => rw [magnitude_finite, IsCanonical.nearest_eq hc hm, magnitude_finite]

/-- **A sum is the exact sum, rounded.** -/
theorem IsNonneg.rounds_add (hu : IsNonneg u) (hw : IsNonneg w) (hcu : Canonical S u)
    (hcw : Canonical S w) : Rounds S (UnpackedFloat.add S u w) (magnitude u + magnitude w) := by
  cases u with
  | notANumber | infinity => exact hu.elim
  | zero s =>
    rw [magnitude_zero, zero_add]
    cases w with
    | notANumber | infinity => exact hw.elim
    | zero t =>
      rw [magnitude_zero, UnpackedFloat.add]
      split <;> exact rounds_zero S _
    | finite t n f hn => exact hw.rounds hcw
  | finite s m e hm =>
    cases w with
    | notANumber | infinity => exact hw.elim
    | zero t =>
      rw [magnitude_zero, add_zero]
      exact hu.rounds hcu
    | finite t n f hn =>
      obtain rfl : s = .positive := hu
      obtain rfl : t = .positive := hw
      rw [add_finite_eq hm hn, magnitude_finite, magnitude_finite]
      exact rounds_nearest S (add_pos (mul_zpow_pos hm e) (mul_zpow_pos hn f)).le

/-- **A quotient is the exact quotient, rounded.** -/
theorem IsNonneg.rounds_div (S : Format) (hu : IsNonneg u) (hw : IsNonneg w)
    (hpos : 0 < magnitude w) : Rounds S (UnpackedFloat.div S u w) (magnitude u / magnitude w) := by
  cases w with
  | notANumber | infinity => exact hw.elim
  | zero t => exact absurd hpos (lt_irrefl _)
  | finite t n f hn =>
    cases u with
    | notANumber | infinity => exact hu.elim
    | zero s =>
      rw [magnitude_zero, zero_div]
      exact rounds_zero S _
    | finite s m e hm =>
      obtain rfl : s = .positive := hu
      obtain rfl : t = .positive := hw
      rw [div_finite_eq hm hn, magnitude_finite, magnitude_finite]
      exact rounds_nearest S (div_pos (mul_zpow_pos hm e) (mul_zpow_pos hn f)).le

end Rounding

open Rounding (bounded nearest magnitude magnitude_zero magnitude_finite IsRepresentable Rounds
  IsNonneg mul_zpow_pos)

namespace Double

variable {v w : Float} {b x : ℚ} {n : ℕ} {u : UnpackedFloat}

/-! ### Numbers up to a bound -/

/-- **A number up to a bound**, finite and not below zero. -/
structure AtMost (v : Float) (b : ℚ) : Prop where
  /-- The number is finite and not below zero. -/
  isNonneg : IsNonneg v.toModel.unpack
  /-- The number is not above the bound. -/
  magnitude_le : magnitude v.toModel.unpack ≤ b

theorem unpack_two_pow : (9007199254740992 : Float).toModel.unpack =
    .finite .positive (2 ^ 52) 1 (by decide) := rfl

/-- **A rounded result is up to a bound** if rounding does not pass the bound. -/
theorem atMost_of_rounds (hu : Rounds .binary64 u x)
    (hv : v.toModel.unpack = unpack .binary64 (pack .binary64 u))
    (hle : magnitude (nearest .binary64 .positive x) ≤ b) (hb : b ≤ 2 ^ 53) : AtMost v b := by
  have hsize : magnitude u ≤ magnitude (9007199254740992 : Float).toModel.unpack := by
    rw [hu.magnitude_eq, unpack_two_pow, magnitude_finite]
    refine (hle.trans hb).trans_eq ?_
    norm_num
  have hbounded : bounded .binary64 u = u :=
    Rounding.bounded_of_magnitude_le hu.canonical (canonical _) (bounded_eq _) hsize
  rw [Rounding.unpack_pack hu.canonical, hbounded] at hv
  refine ⟨hv ▸ hu.isNonneg, ?_⟩
  rw [hv, hu.magnitude_eq]
  exact hle

/-! ### Sums of levels -/

/-- **What a sum of so many levels is at most**: their number, or the greatest number up to which
all natural numbers are of the format. -/
def cap (n : ℕ) : ℕ := min n (2 ^ 53)

theorem cap_le (n : ℕ) : cap n ≤ 2 ^ 53 := min_le_right _ _

theorem isRepresentable_cap (n : ℕ) : IsRepresentable .binary64 (cap n) := by
  rcases (cap_le n).eq_or_lt with h | h
  · rw [h]
    exact ⟨1, 53, by decide, by decide, by norm_num⟩
  · exact Rounding.isRepresentable_natCast (by decide) h

/-- The first natural number that is not of the format is a tie, which goes to the even one. -/
theorem magnitude_nearest_tie :
    magnitude (nearest .binary64 .positive ((2 ^ 53 + 1 : ℕ) : ℚ)) = 2 ^ 53 := by
  have hround : UnpackedFloat.round .binary64 .positive (2 ^ 53 + 1) 0 =
      .finite .positive (2 ^ 52) 1 (by decide) := rfl
  rw [← mul_one ((2 ^ 53 + 1 : ℕ) : ℚ), ← zpow_zero (2 : ℚ), ← Rounding.round_eq (by decide),
    hround, magnitude_finite]
  norm_num

/-- **One level more raises the bound by one at most**, rounded or not. -/
theorem magnitude_nearest_le_cap (hx : 0 ≤ x) (h : x ≤ cap n + 1) :
    magnitude (nearest .binary64 .positive x) ≤ cap (n + 1) := by
  rcases hx.eq_or_lt with rfl | hpos
  · rw [Rounding.nearest_zero, magnitude_zero]
    exact Nat.cast_nonneg _
  · by_cases hn : n < 2 ^ 53
    · have hcap : cap (n + 1) = cap n + 1 := by
        rw [cap, cap]
        omega
      refine Rounding.magnitude_nearest_le (isRepresentable_cap _) hpos ?_
      rw [hcap]
      exact_mod_cast h
    · have hcap : cap (n + 1) = 2 ^ 53 ∧ cap n = 2 ^ 53 := by
        rw [cap, cap]
        omega
      rw [hcap.2] at h
      rw [hcap.1]
      refine (Rounding.magnitude_nearest_mono hpos ?_).trans_eq
        (magnitude_nearest_tie.trans (by norm_num))
      exact_mod_cast h

theorem magnitude_nearest_le_one (hx : 0 ≤ x) (h : x ≤ 1) :
    magnitude (nearest .binary64 .positive x) ≤ 1 := by
  have hone : x ≤ cap 0 + 1 := h.trans (le_add_of_nonneg_left (Nat.cast_nonneg _))
  exact (magnitude_nearest_le_cap hx hone).trans_eq Nat.cast_one

/-- **Adding a level** to a sum of levels. -/
theorem AtMost.add (hv : AtMost v (cap n)) (hw : AtMost w 1) : AtMost (v + w) (cap (n + 1)) := by
  have hsum := hv.isNonneg.rounds_add hw.isNonneg (canonical v) (canonical w)
  refine atMost_of_rounds hsum rfl (magnitude_nearest_le_cap ?_ ?_) (by exact_mod_cast cap_le _)
  · exact add_nonneg (Rounding.magnitude_nonneg _) (Rounding.magnitude_nonneg _)
  · exact add_le_add hv.magnitude_le hw.magnitude_le

/-- **Adding up levels.** -/
theorem AtMost.foldl_add {ws : List Float} (hv : AtMost v (cap n)) (hws : ∀ w ∈ ws, AtMost w 1) :
    AtMost (ws.foldl (· + ·) v) (cap (n + ws.length)) := by
  induction ws generalizing v n with
  | nil => exact hv
  | cons w ws ih =>
    rw [List.length_cons, Nat.add_comm ws.length, ← Nat.add_assoc]
    exact ih (hv.add (hws w List.mem_cons_self)) fun u hu => hws u (List.mem_cons_of_mem w hu)

/-! ### Means -/

/-- **A natural number is rounded to nearest**, and infinite if it is too large. -/
theorem unpack_ofNat (hn : 0 < n) : (Float.ofNat n).toModel.unpack =
    bounded .binary64 (nearest .binary64 .positive n) := by
  have hread : (Float.ofNat n).toModel.unpack =
      bounded .binary64 (nearest .binary64 .positive (Decimal.value ⟨n, 0⟩)) :=
    Decimal.isReader_toDouble.eq_nearest ⟨n, 0⟩ hn
  rwa [Decimal.value, zpow_zero, mul_one] at hread

theorem cap_pos (hn : 0 < n) : (0 : ℚ) < cap n := Nat.cast_pos.mpr (lt_min hn (by decide))

/-- The number of levels, rounded, is not below what their sum is at most. -/
theorem cap_le_magnitude (hn : 0 < n) :
    (cap n : ℚ) ≤ magnitude (nearest .binary64 .positive (n : ℚ)) :=
  Rounding.le_magnitude_nearest (isRepresentable_cap n) (Nat.cast_pos.mpr hn)
    (Nat.cast_le.mpr (min_le_left _ _))

/-- **A sum of levels over their number is not above one.** -/
theorem AtMost.div_ofNat (hv : AtMost v (cap n)) (hn : 0 < n) : AtMost (v / Float.ofNat n) 1 := by
  have hdiv : (v / Float.ofNat n).toModel.unpack = unpack .binary64 (pack .binary64
      (UnpackedFloat.div .binary64 v.toModel.unpack (Float.ofNat n).toModel.unpack)) := rfl
  rw [unpack_ofNat hn] at hdiv
  rcases Rounding.bounded_nearest_cases .binary64 .positive n with ⟨-, h⟩ | h <;> rw [h] at hdiv
  · have hcap := cap_le_magnitude hn
    have hpos := (cap_pos hn).trans_le hcap
    have hquot := hv.isNonneg.rounds_div .binary64
      (Rounding.rounds_nearest .binary64 (Nat.cast_nonneg n)).isNonneg hpos
    refine atMost_of_rounds hquot hdiv (magnitude_nearest_le_one ?_ ?_) (by norm_num)
    · exact div_nonneg (Rounding.magnitude_nonneg _) (Rounding.magnitude_nonneg _)
    · exact (div_le_one hpos).mpr (hv.magnitude_le.trans hcap)
  · -- a number over an infinite one is a zero
    obtain ⟨s, hs⟩ : ∃ s, UnpackedFloat.div .binary64 v.toModel.unpack (.infinity .positive) =
        .zero s := by
      have hnonneg := hv.isNonneg
      cases hu : v.toModel.unpack with
      | notANumber | infinity =>
        rw [hu] at hnonneg
        exact hnonneg.elim
      | zero s | finite s => exact ⟨_, rfl⟩
    rw [hs] at hdiv
    refine atMost_of_rounds (Rounding.rounds_zero .binary64 s) hdiv ?_ (by norm_num)
    rw [Rounding.nearest_zero, magnitude_zero]
    exact zero_le_one

/-! ### Levels in double precision -/

/-- **A level is widened to a number up to one.** -/
theorem atMost_widen {v : Float32} (hv : Single.Nonneg v) (hle : Single.size v ≤ 1) :
    AtMost (widen v) 1 := by
  have hwiden := unpack_widen v
  rw [Single.size] at hle
  rcases hv.cases with ⟨s, hs⟩ | ⟨m, e, hm, hs⟩ <;> rw [hs] at hwiden hle
  · change (widen v).toModel.unpack = zero s at hwiden
    exact ⟨hwiden ▸ trivial, by rw [hwiden, magnitude_zero]; exact zero_le_one⟩
  · rw [magnitude_finite] at hle
    rw [roundTo, Rounding.round_eq hm] at hwiden
    have hrounds := Rounding.rounds_nearest .binary64 (mul_zpow_pos hm e).le
    refine ⟨hwiden ▸ hrounds.isNonneg, ?_⟩
    rw [hwiden]
    exact magnitude_nearest_le_one (mul_zpow_pos hm e).le hle

/-- **A number up to one is narrowed to a level.** -/
theorem AtMost.narrow (hv : AtMost v 1) :
    Single.Nonneg (narrow v) ∧ Single.size (narrow v) ≤ 1 := by
  obtain ⟨hnonneg, hle⟩ := hv
  have hnarrow : (Moorland.narrow v).toModel.unpack =
    unpack .binary32 (pack .binary32 (roundTo .binary32 v.toModel.unpack)) := rfl
  cases hu : v.toModel.unpack with
  | notANumber | infinity =>
    rw [hu] at hnonneg
    exact hnonneg.elim
  | zero s =>
    rw [hu] at hnarrow
    have hzero : Single.IsZero (Moorland.narrow v) :=
      ⟨s, hnarrow.trans UnpackedFloat.unpack_packedZero⟩
    exact ⟨hzero.nonneg, hzero.size_eq.trans_le zero_le_one⟩
  | finite s m e hm =>
    rw [hu] at hnonneg hle hnarrow
    obtain rfl : s = .positive := hnonneg
    rw [magnitude_finite] at hle
    rw [roundTo, Rounding.round_eq hm] at hnarrow
    have hunpack := Single.unpack_of_pack (mul_zpow_pos hm e).le
      (hle.trans Single.one_le_ceiling) hnarrow
    refine ⟨Single.nonneg_of_nearest hunpack, ?_⟩
    rw [Single.size_of_nearest hunpack]
    exact Single.rounded_le Single.isRepresentable_one (mul_zpow_pos hm e).le hle

/-! ### Zeros -/

/-- **Adding a widened zero to nothing leaves nothing.** -/
theorem zero_add_widen {v : Float32} (hv : Single.IsZero v) : 0 + widen v = 0 := by
  obtain ⟨s, hs⟩ := hv
  have hwiden := unpack_widen v
  rw [hs] at hwiden
  have hadd : 0 + widen v = .ofModel (.pack (UnpackedFloat.add .binary64 (.zero .positive)
      (widen v).toModel.unpack)) := rfl
  rw [hadd, hwiden]
  cases s <;> rfl

/-- **Nothing over a number is nothing.** -/
theorem zero_div_ofNat (hn : 0 < n) : (0 : Float) / Float.ofNat n = 0 := by
  have hdiv : (0 : Float) / Float.ofNat n = .ofModel (.pack (UnpackedFloat.div .binary64
      (.zero .positive) (Float.ofNat n).toModel.unpack)) := rfl
  rw [hdiv, unpack_ofNat hn]
  rcases Rounding.bounded_nearest_cases .binary64 .positive n with ⟨-, h⟩ | h <;> rw [h]
  · have hpos := (cap_pos hn).trans_le (cap_le_magnitude hn)
    rcases Rounding.nearest_cases .binary64 .positive (n : ℚ) with hzero | ⟨m, e, hm, hfinite⟩
    · rw [hzero] at hpos
      exact absurd hpos (lt_irrefl _)
    · rw [hfinite]
      rfl
  · rfl

theorem narrow_zero : Moorland.narrow 0 = 0 := by decide

end Double

end Moorland
