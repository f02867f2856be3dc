import Moorland.Proofs.Rounding.Single
/-!
# The divisor

A sum in the band is divided by the midpoint of the thresholds, and so the midpoint should be a
number above zero between them (`Moorland.Thresholds.SoundDivisor`). The check looks at the
thresholds and not at the midpoint, which is computed in single precision. This file says for which
of the accepted pairs the midpoint is sound (`Moorland.Thresholds.Sound.soundDivisor_iff`):

* the sum of the thresholds must not be too large for the format, for otherwise the midpoint is
  infinite, and every sum in the band is taken to zero;
* the thresholds must not be zero and the least number above zero, for otherwise the midpoint is
  zero, and a sum of zero is taken to a NaN.

Only these two things can go wrong. The sum of the thresholds is rounded, but it is not below twice
the lower one and not above twice the upper one, since rounding never passes a number of the format;
and so one half of it lies between the thresholds, rounded or not.
-/

namespace Moorland

open Float.Model (UnpackedFloat)
open Float.Model.UnpackedFloat (Sign)
open Single (Nonneg size)
open Rounding (bounded nearest magnitude)

/-! ### Quotients -/

namespace Single

variable {v w x : Float32}

/-- What is not below a number that is not below zero is such a number too, or infinite. -/
theorem Nonneg.or_infinite_of_le (hv : Nonneg v) (hvx : v ≤ x) :
    Nonneg x ∨ x.toModel.unpack = .infinity .positive := by
  rw [le_iff_compare] at hvx
  have hfinite : x.isFinite = x.toModel.unpack.isFinite := rfl
  have hle : 0 ≤ x ↔ _ := le_iff_compare
  rw [unpack_zero] at hle
  cases hx : x.toModel.unpack with
  | notANumber =>
    rcases hv.cases with ⟨s, hs⟩ | ⟨m, e, hm, hs⟩ <;> rw [hs, hx] at hvx <;> cases hvx
  | infinity s =>
    cases s with
    | negative =>
      rcases hv.cases with ⟨s, hs⟩ | ⟨m, e, hm, hs⟩ <;> rw [hs, hx] at hvx <;> cases hvx
    | positive => exact .inr rfl
  | zero s =>
    rw [hx] at hfinite hle
    exact .inl ⟨hfinite, hle.mpr rfl⟩
  | finite s m e hm =>
    rw [hx] at hfinite hle
    cases s with
    | negative =>
      rcases hv.cases with ⟨s, hs⟩ | ⟨m, e, hm, hs⟩ <;> rw [hs, hx] at hvx <;> cases hvx
    | positive => exact .inl ⟨hfinite, hle.mpr rfl⟩

/-- No finite number is above what is infinite. -/
theorem Nonneg.not_le_of_infinite (hw : Nonneg w) (hx : x.toModel.unpack = .infinity .positive) :
    ¬x ≤ w := by
  rw [le_iff_compare, hx]
  rcases hw.cases with ⟨s, hs⟩ | ⟨m, e, hm, hs⟩ <;> rw [hs] <;> exact nofun

/-- Only what is infinite is not below what is infinite. -/
theorem infinite_of_le (hx : x.toModel.unpack = .infinity .positive) {y : Float32} (hxy : x ≤ y) :
    y.toModel.unpack = .infinity .positive := by
  rw [le_iff_compare, hx] at hxy
  cases hy : y.toModel.unpack with
  | notANumber | zero | finite =>
    rw [hy] at hxy
    cases hxy
  | infinity s =>
    rw [hy] at hxy
    cases s with
    | negative => cases hxy
    | positive => rfl

/-- What lies between two numbers that are not below zero is such a number. -/
theorem Nonneg.of_between (hv : Nonneg v) (hw : Nonneg w) (hvx : v ≤ x) (hxw : x ≤ w) :
    Nonneg x :=
  (hv.or_infinite_of_le hvx).resolve_right fun hx => hw.not_le_of_infinite hx hxw

/-- **Numbers of one size above zero are equal.** -/
theorem Nonneg.eq_of_size_eq (hv : Nonneg v) (hw : Nonneg w) (hpos : 0 < size v)
    (h : size v = size w) : v = w := by
  have hbeq : UnpackedFloat.beq v.toModel.unpack w.toModel.unpack = true := by
    rw [UnpackedFloat.beq, hv.compare_eq hw, compare_eq_iff_eq.mpr h]
    rfl
  rcases (UnpackedFloat.beq_iff_ne_notANumber_and_eq _ _).mp hbeq with
    ⟨-, -, heq | ⟨hzero, -⟩ | ⟨hzero, -⟩⟩
  · exact unpack_inj.mp heq
  all_goals
    rw [size, hzero] at hpos
    exact absurd hpos (lt_irrefl _)

theorem nonneg_least : Nonneg (.ofBits 1) := ⟨by decide, by decide⟩

theorem size_least : size (.ofBits 1) = 2 ^ (-149 : ℤ) := by
  have hunpack : (Float32.ofBits 1).toModel.unpack = .finite .positive 1 (-149) one_pos := rfl
  rw [size, hunpack, Rounding.magnitude_finite, Nat.cast_one, one_mul]

/-- **A number above zero is the least one, or at least twice as large.** -/
theorem Nonneg.eq_least_or (hv : Nonneg v) (hpos : 0 < size v) :
    v = .ofBits 1 ∨ 2 * size (.ofBits 1) ≤ size v := by
  obtain ⟨k, hk⟩ := (canonical v).isRepresentable.exists_nat_mul
  change size v = k * 2 ^ (-149 : ℤ) at hk
  rw [← size_least] at hk
  rcases k with _ | _ | k
  · rw [hk, Nat.cast_zero, zero_mul] at hpos
    exact absurd hpos (lt_irrefl _)
  · left
    refine hv.eq_of_size_eq nonneg_least hpos ?_
    rw [hk, zero_add, Nat.cast_one, one_mul]
  · right
    rw [hk]
    refine mul_le_mul_of_nonneg_right ?_ (Rounding.magnitude_nonneg _)
    exact_mod_cast Nat.le_add_left 2 k

/-- What is infinite is clamped to one. -/
theorem unitClamp_of_infinite (h : v.toModel.unpack = .infinity .positive) : unitClamp v = 1 := by
  have hneg : ¬v < 0 := by
    rw [lt_iff_compare, h]
    exact nofun
  have hgt : 1 < v := by
    rw [lt_iff_compare, h]
    rfl
  rw [unitClamp, if_neg hneg, if_pos hgt]

/-- **What is not below one is clamped to one.** -/
theorem Nonneg.unitClamp_eq_one (hv : Nonneg v) (h : 1 ≤ size v) : unitClamp v = 1 := by
  rw [unitClamp, if_neg (not_lt_of_le hv.le)]
  split
  · rfl
  next hgt =>
  rw [nonneg_one.lt_iff hv, size_one] at hgt
  refine hv.eq_of_size_eq nonneg_one (by linarith) ?_
  rw [size_one]
  linarith

/-- **A number over an infinite one is a zero.** -/
theorem Nonneg.isZero_div_of_infinite (hv : Nonneg v)
    (hw : w.toModel.unpack = .infinity .positive) : IsZero (v / w) := by
  have hdiv := unpack_div_eq v w
  rcases hv.cases with ⟨s, hs⟩ | ⟨m, e, hm, hs⟩ <;> rw [hs, hw] at hdiv
  · exact ⟨s / .positive, hdiv.trans UnpackedFloat.unpack_packedZero⟩
  · exact ⟨.positive / .positive, hdiv.trans UnpackedFloat.unpack_packedZero⟩

/-- **Zero over a number above zero is a zero.** -/
theorem IsZero.div (hv : IsZero v) (hw : Nonneg w) (hpos : 0 < size w) : IsZero (v / w) := by
  have hdiv := unpack_div_eq v w
  obtain ⟨s, hs⟩ := hv
  rcases hw.cases with ⟨t, ht⟩ | ⟨n, f, hn, ht⟩
  · rw [size, ht] at hpos
    exact absurd hpos (lt_irrefl _)
  · rw [hs, ht] at hdiv
    exact ⟨s / .positive, hdiv.trans UnpackedFloat.unpack_packedZero⟩

theorem IsZero.isNaN (hv : IsZero v) : v.isNaN = false := by
  obtain ⟨s, hs⟩ := hv
  change v.toModel.unpack.isNaN = false
  rw [hs]
  rfl

theorem unitClamp_of_isZero (hv : IsZero v) : unitClamp v = v := by
  obtain ⟨s, hs⟩ := hv
  have hneg : ¬v < 0 := by
    rw [lt_iff_compare, hs]
    exact nofun
  have hgt : ¬1 < v := by
    rw [lt_iff_compare, hs]
    exact nofun
  rw [unitClamp, if_neg hneg, if_neg hgt]

/-- **A finite number over a finite one above zero is not a NaN.** -/
theorem Nonneg.isNaN_div (hv : Nonneg v) (hw : Nonneg w) (hpos : 0 < size w) :
    (v / w).isNaN = false := by
  rcases hv.isZero_or_pos with hzero | hvpos
  · exact (hzero.div hw hpos).isNaN
  · have hquot := unpack_div hv hw hvpos hpos
    rcases Rounding.bounded_nearest_cases .binary32 .positive (size v / size w) with
      ⟨hfinite, -⟩ | hinf
    · rw [← hquot] at hfinite
      exact isNaN_of_isFinite hfinite
    · rw [hinf] at hquot
      change (v / w).toModel.unpack.isNaN = false
      rw [hquot]
      rfl

/-- **A quotient that is not below one is clamped to one**, also where it is too large for the
format. Rounding does not take it below one. -/
theorem Nonneg.unitClamp_div_eq_one (hv : Nonneg v) (hw : Nonneg w) (hpos : 0 < size w)
    (hle : size w ≤ size v) : unitClamp (v / w) = 1 := by
  have hvpos : 0 < size v := hpos.trans_le hle
  have hquot := unpack_div hv hw hvpos hpos
  rcases Rounding.bounded_nearest_cases .binary32 .positive (size v / size w) with
    ⟨hfinite, heq⟩ | hinf
  · have hge : 1 ≤ size (v / w) := by
      rw [size, hquot, heq]
      refine Rounding.le_magnitude_nearest ?_ (div_pos hvpos hpos) ((one_le_div hpos).mpr hle)
      exact size_one ▸ (canonical 1).isRepresentable
    rw [← hquot] at hfinite
    refine (nonneg_of_isUnsigned hfinite ?_).unitClamp_eq_one hge
    exact ((isUnsigned_of_pos (hv.pos_iff.mpr hvpos)).div
      (isUnsigned_of_pos (hw.pos_iff.mpr hpos))).unpack_pack
  · exact unitClamp_of_infinite (hquot.trans hinf)

end Single

namespace Thresholds

variable {t : Thresholds}

/-! ### The midpoint -/

/-- **A sound divisor**: a number above zero between the thresholds. -/
structure SoundDivisor (t : Thresholds) : Prop where
  /-- The midpoint is finite. -/
  finite : t.midpoint.isFinite = true
  /-- The midpoint is above zero. -/
  pos : 0 < t.midpoint
  /-- The midpoint is not below the lower threshold. -/
  lower_le : t.lower ≤ t.midpoint
  /-- The midpoint is not above the upper threshold. -/
  le_upper : t.midpoint ≤ t.upper

/-- **The least band**: from zero to the least number above zero. -/
def IsLeastBand (t : Thresholds) : Prop := (t.lower == 0) = true ∧ t.upper = .ofBits 1

theorem Sound.nonneg_lower (ht : t.Sound) : Nonneg t.lower := ⟨ht.lower_finite, ht.lower_nonneg⟩

theorem Sound.nonneg_upper (ht : t.Sound) : Nonneg t.upper :=
  Single.nonneg_of_isUnsigned ht.upper_finite (Single.isUnsigned_of_pos ht.upper_pos)

theorem Sound.size_upper_pos (ht : t.Sound) : 0 < size t.upper :=
  ht.nonneg_upper.pos_iff.mp ht.upper_pos

theorem Sound.size_le (ht : t.Sound) : size t.lower ≤ size t.upper :=
  (ht.nonneg_lower.le_iff ht.nonneg_upper).mp ht.lower_le

/-- **The sum of sound thresholds** is rounded to nearest, and infinite if it is too large. -/
theorem Sound.unpack_sum (ht : t.Sound) :
    (t.lower + t.upper).toModel.unpack =
      bounded .binary32 (nearest .binary32 .positive (size t.lower + size t.upper)) :=
  Single.unpack_add ht.nonneg_lower ht.nonneg_upper
    (add_pos_of_nonneg_of_pos (Rounding.magnitude_nonneg _) ht.size_upper_pos)

/-- **A sum that is not finite makes the midpoint infinite.** -/
theorem Sound.unpack_midpoint_of_overflow (ht : t.Sound)
    (hsum : (t.lower + t.upper).isFinite = false) :
    t.midpoint.toModel.unpack = .infinity .positive := by
  have hinf : (t.lower + t.upper).toModel.unpack = .infinity .positive := by
    have hunpack := ht.unpack_sum
    rcases Rounding.bounded_nearest_cases .binary32 .positive (size t.lower + size t.upper) with
      ⟨hfinite, -⟩ | hinf
    · rw [← hunpack] at hfinite
      exact absurd hfinite (Bool.eq_false_iff.mp hsum)
    · rw [hunpack, hinf]
  have hdiv := Single.unpack_div_eq (t.lower + t.upper) 2
  rw [hinf, Single.unpack_two] at hdiv
  exact hdiv

/-- **The rounded sum is between twice the lower threshold and twice the upper one**, and not below
the upper one. -/
theorem Sound.size_sum (ht : t.Sound) (hsum : (t.lower + t.upper).isFinite = true) :
    Nonneg (t.lower + t.upper) ∧ 2 * size t.lower ≤ size (t.lower + t.upper) ∧
      size (t.lower + t.upper) ≤ 2 * size t.upper ∧ size t.upper ≤ size (t.lower + t.upper) := by
  have hlower := (Single.canonical t.lower).isRepresentable
  have hupper := (Single.canonical t.upper).isRepresentable
  have hpos : 0 < size t.lower + size t.upper :=
    add_pos_of_nonneg_of_pos (Rounding.magnitude_nonneg _) ht.size_upper_pos
  have hle := ht.size_le
  have hnonneg : 0 ≤ size t.lower := Rounding.magnitude_nonneg _
  have hsize : size (t.lower + t.upper) =
      magnitude (nearest .binary32 .positive (size t.lower + size t.upper)) := by
    have hunpack := ht.unpack_sum
    rcases Rounding.bounded_nearest_cases .binary32 .positive (size t.lower + size t.upper) with
      ⟨-, heq⟩ | hinf
    · rw [size, hunpack, heq]
    · change (t.lower + t.upper).toModel.unpack.isFinite = true at hsum
      rw [hunpack, hinf] at hsum
      cases hsum
  refine ⟨Single.nonneg_of_isUnsigned hsum (Single.isUnsigned_add ht.lower_nonneg ht.upper_pos),
    ?_, ?_, ?_⟩ <;> rw [hsize]
  · exact Rounding.le_magnitude_nearest hlower.two_mul hpos (by linarith)
  · exact Rounding.magnitude_nearest_le hupper.two_mul hpos (by linarith)
  · exact Rounding.le_magnitude_nearest hupper hpos (by linarith)

/-- **The midpoint is one half of the sum, rounded to nearest**, if the sum is finite. -/
theorem Sound.size_midpoint (ht : t.Sound) (hsum : (t.lower + t.upper).isFinite = true) :
    Nonneg t.midpoint ∧
      size t.midpoint = magnitude (nearest .binary32 .positive (size (t.lower + t.upper) / 2)) := by
  obtain ⟨hnonneg, -, hhigh, hge⟩ := ht.size_sum hsum
  have hpos : 0 < size (t.lower + t.upper) := ht.size_upper_pos.trans_le hge
  have hle : magnitude (nearest .binary32 .positive (size (t.lower + t.upper) / 2)) ≤
      size t.upper :=
    Rounding.magnitude_nearest_le (Single.canonical t.upper).isRepresentable (half_pos hpos)
      (by linarith)
  have hunpack : t.midpoint.toModel.unpack = bounded .binary32 _ :=
    Single.unpack_div hnonneg Single.nonneg_two hpos (Single.size_two ▸ two_pos)
  rw [Single.size_two, Single.bounded_nearest_eq (half_pos hpos) hle] at hunpack
  refine ⟨Single.nonneg_of_isUnsigned ?_ ht.isUnsigned_midpoint, congrArg magnitude hunpack⟩
  change t.midpoint.toModel.unpack.isFinite = true
  rw [hunpack]
  exact Rounding.isFinite_nearest _ _ _

/-- **The midpoint lies between the thresholds** if their sum is finite. -/
theorem Sound.size_midpoint_mem (ht : t.Sound) (hsum : (t.lower + t.upper).isFinite = true) :
    size t.lower ≤ size t.midpoint ∧ size t.midpoint ≤ size t.upper := by
  obtain ⟨-, hlow, hhigh, hge⟩ := ht.size_sum hsum
  have hpos := half_pos (ht.size_upper_pos.trans_le hge)
  rw [(ht.size_midpoint hsum).2]
  exact ⟨Rounding.le_magnitude_nearest (Single.canonical t.lower).isRepresentable hpos
      (by linarith),
    Rounding.magnitude_nearest_le (Single.canonical t.upper).isRepresentable hpos (by linarith)⟩

/-- **The midpoint of a finite sum is above zero**, except in the least band. -/
theorem Sound.size_midpoint_pos (ht : t.Sound) (hsum : (t.lower + t.upper).isFinite = true)
    (hband : ¬t.IsLeastBand) : 0 < size t.midpoint := by
  obtain ⟨-, -, -, hge⟩ := ht.size_sum hsum
  have hleast : (0 : ℚ) < size (.ofBits 1) := Single.size_least ▸ Rounding.two_zpow_pos _
  rcases ht.nonneg_upper.eq_least_or ht.size_upper_pos with hupper | hupper
  · -- the lower threshold is not a zero then, and not above the midpoint
    have hlower : ¬(t.lower == 0) = true := fun h => hband ⟨h, hupper⟩
    refine lt_of_lt_of_le ?_ (ht.size_midpoint_mem hsum).1
    exact ht.nonneg_lower.isZero_or_pos.resolve_left
      fun hzero => hlower (Single.beq_zero_of_isZero hzero)
  · rw [(ht.size_midpoint hsum).2]
    exact hleast.trans_le (Rounding.le_magnitude_nearest
      (Single.canonical (.ofBits 1)).isRepresentable (half_pos (ht.size_upper_pos.trans_le hge))
      ((le_div_iff₀' two_pos).mpr (hupper.trans hge)))

theorem IsLeastBand.eq_or (h : t.IsLeastBand) : t = ⟨0, .ofBits 1⟩ ∨ t = ⟨-0, .ofBits 1⟩ := by
  obtain ⟨lower, upper⟩ := t
  obtain ⟨hlower, rfl⟩ : (lower == 0) = true ∧ upper = .ofBits 1 := h
  rcases Float32.beq_iff_ne_nan_and_eq.mp hlower with ⟨-, -, rfl | ⟨rfl, -⟩ | ⟨rfl, -⟩⟩
  · exact .inl rfl
  · exact .inl rfl
  · exact .inr rfl

/-! ### What the divisor does -/

/-- **A midpoint that is finite and above zero** comes from a finite sum, and not from the least
band. -/
theorem Sound.sum_of_midpoint (ht : t.Sound) (hfinite : t.midpoint.isFinite = true)
    (hpos : 0 < t.midpoint) : (t.lower + t.upper).isFinite = true ∧ ¬t.IsLeastBand := by
  constructor
  · by_contra hsum
    have hinf := ht.unpack_midpoint_of_overflow (Bool.eq_false_iff.mpr hsum)
    change t.midpoint.toModel.unpack.isFinite = true at hfinite
    rw [hinf] at hfinite
    cases hfinite
  · intro hband
    rcases hband.eq_or with rfl | rfl <;> exact absurd hpos (by decide)

theorem Sound.soundDivisor_iff (ht : t.Sound) :
    t.SoundDivisor ↔ (t.lower + t.upper).isFinite = true ∧ ¬t.IsLeastBand := by
  constructor
  · intro hdivisor
    exact ht.sum_of_midpoint hdivisor.finite hdivisor.pos
  · rintro ⟨hsum, hband⟩
    have hmid := (ht.size_midpoint hsum).1
    obtain ⟨hlow, hhigh⟩ := ht.size_midpoint_mem hsum
    exact ⟨hmid.isFinite, hmid.pos_iff.mpr (ht.size_midpoint_pos hsum hband),
      (ht.nonneg_lower.le_iff hmid).mpr hlow, (hmid.le_iff ht.nonneg_upper).mpr hhigh⟩

theorem Sound.isNaN_div_midpoint (ht : t.Sound) (hband : ¬t.IsLeastBand) {sum : Float32}
    (hsum : Nonneg sum) : (sum / t.midpoint).isNaN = false := by
  by_cases hfinite : (t.lower + t.upper).isFinite = true
  · exact hsum.isNaN_div (ht.size_midpoint hfinite).1 (ht.size_midpoint_pos hfinite hband)
  · exact (hsum.isZero_div_of_infinite
      (ht.unpack_midpoint_of_overflow (Bool.eq_false_iff.mpr hfinite))).isNaN

/-- **In the least band**, a sum of zero is taken to a NaN. -/
theorem IsLeastBand.isNaN_channel {sum : Float32} (h : t.IsLeastBand) (hsum : (sum == 0) = true) :
    (t.channel sum).isNaN = true := by
  rcases Float32.beq_iff_ne_nan_and_eq.mp hsum with ⟨-, -, rfl | ⟨rfl, -⟩ | ⟨rfl, -⟩⟩ <;>
    rcases h.eq_or with rfl | rfl <;> decide

/-- In the least band, a sum above zero is taken to one. -/
theorem IsLeastBand.unitClamp_div {sum : Float32} (h : t.IsLeastBand) (hsum : Nonneg sum)
    (hne : ¬(sum == 0) = true) : unitClamp (sum / t.midpoint) = 1 := by
  have hmid : t.midpoint.toModel.unpack = .zero .positive := by
    rcases h.eq_or with rfl | rfl <;> rfl
  refine Single.unitClamp_of_infinite ?_
  rw [Single.unpack_div_eq, hmid]
  rcases hsum.cases with hzero | ⟨m, e, hm, hs⟩
  · exact absurd (Single.beq_zero_of_isZero hzero) hne
  · rw [hs]
    exact Rounding.unpack_packedInfinity

/-- **Which sums are taken to a level**: all of them, except zero in the least band. -/
theorem Sound.isLevel_channel_iff (ht : t.Sound) (sum : Float32) :
    IsLevel (t.channel sum) ↔ ¬(t.IsLeastBand ∧ (sum == 0) = true) := by
  constructor
  · rintro hlevel ⟨hband, hsum⟩
    exact Bool.eq_false_iff.mp hlevel.1 (hband.isNaN_channel hsum)
  · intro hsum
    rw [channel]
    split
    · exact isLevel_unitClamp isLevel_zero.1
    split
    next hin =>
      obtain ⟨hlow, hhigh⟩ : t.lower ≤ sum ∧ sum ≤ t.upper := by simpa using hin
      have hnonneg := ht.nonneg_lower.of_between ht.nonneg_upper hlow hhigh
      by_cases hband : t.IsLeastBand
      · rw [hband.unitClamp_div hnonneg fun h => hsum ⟨hband, h⟩]
        exact isLevel_one
      · exact isLevel_unitClamp (ht.isNaN_div_midpoint hband hnonneg)
    · exact isLevel_unitClamp isLevel_zero.1

/-- **A sum outside of the band** is taken to zero. -/
theorem channel_of_out {sum : Float32} (h : sum < t.lower ∨ t.upper < sum) :
    t.channel sum = 0 := by
  rw [channel, if_pos (by simpa using h)]
  decide

/-- **A sum in the band** is divided by the midpoint. -/
theorem channel_of_mem {sum : Float32} (hlow : t.lower ≤ sum) (hhigh : sum ≤ t.upper) :
    t.channel sum = unitClamp (sum / t.midpoint) := by
  have hout : ¬(sum < t.lower || t.upper < sum) = true := by
    simp [Single.not_lt_of_le hlow, Single.not_lt_of_le hhigh]
  rw [channel, if_neg hout, if_pos (by simp [hlow, hhigh])]

theorem Sound.upper_le_self (ht : t.Sound) : t.upper ≤ t.upper :=
  (ht.nonneg_upper.le_iff ht.nonneg_upper).mpr le_rfl

theorem Sound.channel_upper_eq_one_iff (ht : t.Sound) :
    t.channel t.upper = 1 ↔ (t.lower + t.upper).isFinite = true := by
  have hchannel := channel_of_mem ht.lower_le ht.upper_le_self
  constructor
  · intro hone
    by_contra hsum
    have hzero := ht.nonneg_upper.isZero_div_of_infinite
      (ht.unpack_midpoint_of_overflow (Bool.eq_false_iff.mpr hsum))
    rw [hchannel, Single.unitClamp_of_isZero hzero] at hone
    rw [hone] at hzero
    exact hzero.not_pos (by decide)
  · intro hsum
    by_cases hband : t.IsLeastBand
    · rcases hband.eq_or with rfl | rfl <;> decide
    rw [hchannel]
    exact ht.nonneg_upper.unitClamp_div_eq_one (ht.size_midpoint hsum).1
      (ht.size_midpoint_pos hsum hband) (ht.size_midpoint_mem hsum).2

/-- **The divisor of an accepted pair** is sound unless the sum of the thresholds is too large or
they are the least band. Every sum is taken to a level, except zero in the least band, and the upper
threshold is taken to one unless the sum of the thresholds is too large. -/
theorem divisor_of_check {lower upper : Float32} (h : check lower upper = .ok t) :
    (t.SoundDivisor ↔ (lower + upper).isFinite = true ∧ ¬t.IsLeastBand) ∧
      (∀ sum, IsLevel (t.channel sum) ↔ ¬(t.IsLeastBand ∧ (sum == 0) = true)) ∧
      (t.channel upper = 1 ↔ (lower + upper).isFinite = true) := by
  have ht := sound_of_check h
  obtain ⟨-, rfl⟩ := check_eq_ok_iff.mp h
  exact ⟨ht.soundDivisor_iff, ht.isLevel_channel_iff, ht.channel_upper_eq_one_iff⟩

theorem divisor_of_check_unit : check 0 1 = .ok ⟨0, 1⟩ ∧
    (SoundDivisor ⟨0, 1⟩ ↔ ((0 : Float32) + 1).isFinite = true ∧ ¬IsLeastBand ⟨0, 1⟩) :=
  ⟨rfl, (divisor_of_check (rfl : check 0 1 = .ok ⟨0, 1⟩)).1⟩

/-- **A divisor of zero, and an infinite one**: the least band takes a sum of zero to a NaN, and two
thresholds at the greatest number take themselves to zero. -/
theorem accepted_without_divisor :
    (check 0 (.ofBits 1) = .ok ⟨0, .ofBits 1⟩ ∧ midpoint ⟨0, .ofBits 1⟩ = 0 ∧
      (channel ⟨0, .ofBits 1⟩ 0).isNaN = true) ∧
    (check (.ofBits 0x7f7fffff) (.ofBits 0x7f7fffff) =
        .ok ⟨.ofBits 0x7f7fffff, .ofBits 0x7f7fffff⟩ ∧
      (midpoint ⟨.ofBits 0x7f7fffff, .ofBits 0x7f7fffff⟩).isFinite = false ∧
      channel ⟨.ofBits 0x7f7fffff, .ofBits 0x7f7fffff⟩ (.ofBits 0x7f7fffff) = 0) := by
  refine ⟨⟨rfl, ?_, ?_⟩, rfl, ?_, ?_⟩ <;> decide

end Thresholds

end Moorland
