import Moorland.Proofs.Divisor
import Moorland.Proofs.Rounding.SquareRoot
import Moorland.Proofs.Rounding.Whole
/-!
# Distances in single precision

The distance of a point is the hypotenuse of a triangle, and is computed from its two legs by
squares, a sum and a root, each of them rounded. A leg is a difference in its turn. This file says
what these operations do to sizes. Signs do not matter, since a difference is squared. A root is
compared with other roots and with numbers of the format without being named
(`Moorland.Single.Nonneg.size_sqrt_mono`,
`Moorland.Single.Nonneg.size_sqrt_le`, `Moorland.Single.Nonneg.le_size_sqrt`), and the same is then
true of hypotenuses (`Moorland.Single.Leg.size_hypotenuse_mono`,
`Moorland.Single.Leg.size_hypotenuse_le`, `Moorland.Single.Leg.le_size_hypotenuse`).

Nothing here is too large for the format. Each statement asks for this where it is not plain.
-/

namespace Moorland

open Float.Model (Format UnpackedFloat)
open Float.Model.UnpackedFloat
open Rounding (nearest magnitude_zero magnitude_finite IsRepresentable mul_zpow_pos)

/-! ### Squares and differences of numbers above zero -/

namespace Rounding

variable {S : Format} {s : Sign} {m n : ℕ} {e f : ℤ} {x y : ℚ}

/-- **The square of a canonical number has enough digits** to be rounded. -/
theorem IsCanonical.add_self_le (hc : IsCanonical S m e) (hm : 0 < m) :
    e + e ≤ unitExponent S (m * 2 ^ e * (m * 2 ^ e)) := by
  have hpos := mul_zpow_pos hm e
  rcases hc.normal with hfull | hmin
  · refine le_unitExponent (mul_pos hpos hpos) ?_
    calc (2 : ℚ) ^ ((S.mantissaBitsWithoutImplicit : ℤ) + (e + e))
        = 2 ^ (S.mantissaBitsWithoutImplicit : ℤ) * 2 ^ e * 2 ^ e := by
          rw [zpow_add₀ two_ne_zero, zpow_add₀ two_ne_zero, mul_assoc]
      _ ≤ m * 2 ^ e * (m * 2 ^ e) := by
          refine mul_le_mul ?_ ?_ (two_zpow_pos e).le hpos.le
          · exact mul_le_mul_of_nonneg_right (by exact_mod_cast hfull) (two_zpow_pos e).le
          · exact le_mul_of_one_le_left (two_zpow_pos e).le (by exact_mod_cast hm)
  · -- no unit is below the least exponent, and the sum is
    have hneg : S.minExponent ≤ 0 := by
      have := minExponent_eq S
      have := S.hm
      omega
    have := minExponent_le_unitExponent S (m * 2 ^ e * (m * 2 ^ e))
    omega

/-- **A difference of numbers above zero is rounded to nearest**, with its sign. -/
theorem exists_sub_finite_eq (S : Format) (hm : 0 < m) (hn : 0 < n) (e f : ℤ) :
    ∃ s, UnpackedFloat.sub S (.finite .positive m e hm) (.finite .positive n f hn) =
      nearest S s |m * 2 ^ e - n * 2 ^ f| := by
  have hleft := shiftLeft_toNat_mul_zpow m (min_le_left e f)
  have hright := shiftLeft_toNat_mul_zpow n (min_le_right e f)
  rw [UnpackedFloat.sub]
  simp only [decreaseExponent, Sign.apply]
  rw [← hleft, ← hright, ← sub_mul, abs_mul, abs_of_pos (two_zpow_pos (min e f))]
  generalize m <<< (e - min e f).toNat = a
  generalize n <<< (f - min e f).toNat = b
  rw [UnpackedFloat.normalize]
  rcases lt_trichotomy a b with h | rfl | h
  · refine ⟨.negative, ?_⟩
    have hab : (a : ℚ) < b := by exact_mod_cast h
    have hvalue : |(a : ℚ) - b| = ((-((a : ℤ) - b)).toNat : ℕ) := by
      have hnat : (-((a : ℤ) - b)).toNat = b - a := by omega
      rw [hnat, Nat.cast_sub h.le, abs_of_neg (by linarith), neg_sub]
    rw [Int.compare_eq_lt.mpr (by omega), hvalue]
    exact round_eq (by omega) _
  · refine ⟨.positive, ?_⟩
    rw [Int.compare_eq_eq.mpr (sub_self _), sub_self (a : ℚ), abs_zero, zero_mul, nearest_zero]
  · refine ⟨.positive, ?_⟩
    have hab : (b : ℚ) < a := by exact_mod_cast h
    have hvalue : |(a : ℚ) - b| = (((a : ℤ) - b).toNat : ℕ) := by
      have hnat : ((a : ℤ) - b).toNat = a - b := by omega
      rw [hnat, Nat.cast_sub h.le, abs_of_pos (by linarith)]
    rw [Int.compare_eq_gt.mpr (by omega), hvalue]
    exact round_eq (by omega) _

end Rounding

namespace Single

variable {v w : Float32} {a b c d r : ℚ}

/-! ### Squares and differences in single precision -/

theorem unpack_sub_eq (v w : Float32) : (v - w).toModel.unpack = .unpack .binary32
    (UnpackedFloat.pack .binary32 (.sub .binary32 v.toModel.unpack w.toModel.unpack)) := rfl

theorem unpack_mul_eq (v w : Float32) : (v * w).toModel.unpack = .unpack .binary32
    (UnpackedFloat.pack .binary32 (.mul .binary32 v.toModel.unpack w.toModel.unpack)) := rfl

theorem unpack_sqrt_eq (v : Float32) : v.sqrt.toModel.unpack = .unpack .binary32
    (UnpackedFloat.pack .binary32 (.sqrt .binary32 v.toModel.unpack)) := rfl

/-- **A difference is rounded to nearest**, with its sign. -/
theorem Nonneg.exists_sub_eq (hv : Nonneg v) (hw : Nonneg w) :
    ∃ s, UnpackedFloat.sub .binary32 v.toModel.unpack w.toModel.unpack =
      nearest .binary32 s |size v - size w| := by
  have hcv := canonical v
  have hcw := canonical w
  rw [size, size]
  rcases hv.cases with ⟨s, hs⟩ | ⟨m, e, hm, hs⟩ <;>
    rcases hw.cases with ⟨t, ht⟩ | ⟨n, f, hn, ht⟩ <;>
    rw [hs] at hcv ⊢ <;> rw [ht] at hcw ⊢
  · rw [magnitude_zero, magnitude_zero, sub_zero, abs_zero, UnpackedFloat.sub]
    split
    · exact ⟨s, (Rounding.nearest_zero _ _).symm⟩
    · exact ⟨.positive, (Rounding.nearest_zero _ _).symm⟩
  · refine ⟨.negative, ?_⟩
    rw [magnitude_zero, magnitude_finite, zero_sub, abs_neg, abs_of_pos (mul_zpow_pos hn f),
      Rounding.IsCanonical.nearest_eq hcw hn]
    rfl
  · refine ⟨.positive, ?_⟩
    rw [magnitude_zero, magnitude_finite, sub_zero, abs_of_pos (mul_zpow_pos hm e),
      Rounding.IsCanonical.nearest_eq hcv hm]
    rfl
  · exact Rounding.exists_sub_finite_eq _ hm hn e f

/-- **The size of a difference** is the exact difference without its sign, rounded. -/
theorem Nonneg.sub (hv : Nonneg v) (hw : Nonneg w) (hle : |size v - size w| ≤ ceiling) :
    (v - w).isFinite = true ∧ size (v - w) = rounded |size v - size w| := by
  obtain ⟨s, hs⟩ := hv.exists_sub_eq hw
  have hunpack := unpack_of_pack (abs_nonneg _) hle ((unpack_sub_eq v w).trans (by rw [hs]))
  exact ⟨isFinite_of_nearest hunpack, size_of_nearest hunpack⟩

/-- **A square is rounded to nearest.** The sign does not matter. -/
theorem mul_self_eq (hv : v.isFinite = true) :
    UnpackedFloat.mul .binary32 v.toModel.unpack v.toModel.unpack =
      nearest .binary32 .positive (size v * size v) := by
  have hcv := canonical v
  change v.toModel.unpack.isFinite = true at hv
  rw [size]
  cases hs : v.toModel.unpack with
  | notANumber | infinity =>
    rw [hs] at hv
    cases hv
  | zero s =>
    rw [magnitude_zero, mul_zero, Rounding.nearest_zero]
    cases s <;> rfl
  | finite s m e hm =>
    rw [hs] at hcv
    have hsign : s * s = .positive := by cases s <;> rfl
    rw [magnitude_finite, Rounding.mul_finite_eq hm hm (Rounding.IsCanonical.add_self_le hcv hm),
      hsign]

/-- **The size of a square** is the exact square, rounded. -/
theorem mul_self (hv : v.isFinite = true) (hle : size v * size v ≤ ceiling) :
    Nonneg (v * v) ∧ size (v * v) = rounded (size v * size v) := by
  have hunpack := unpack_of_pack (mul_self_nonneg _) hle
    ((unpack_mul_eq v v).trans (by rw [mul_self_eq hv]))
  exact ⟨nonneg_of_nearest hunpack, size_of_nearest hunpack⟩

/-! ### Roots -/

/-- **A root is rounded like rationals on both sides of it.** -/
theorem Nonneg.exists_sqrt (hv : Nonneg v) (hle : size v ≤ ceiling) :
    Nonneg v.sqrt ∧ ∃ p q : ℚ, (0 ≤ p ∧ p * p ≤ size v ∧ size v.sqrt = rounded p) ∧
      0 ≤ q ∧ size v ≤ q * q ∧ size v.sqrt = rounded q := by
  have hsqrt := unpack_sqrt_eq v
  rw [size] at hle ⊢
  rcases hv.cases with ⟨s, hs⟩ | ⟨m, e, hm, hs⟩ <;> rw [hs] at hsqrt hle ⊢
  · have hzero : IsZero v.sqrt := ⟨s, hsqrt.trans UnpackedFloat.unpack_packedZero⟩
    have hsize : size v.sqrt = rounded 0 := hzero.size_eq.trans rounded_zero.symm
    rw [magnitude_zero]
    exact ⟨hzero.nonneg, 0, 0, ⟨le_rfl, (mul_zero 0).le, hsize⟩, le_rfl, (mul_zero 0).ge, hsize⟩
  · rw [magnitude_finite] at hle ⊢
    obtain ⟨p, q, ⟨hp, hpv, hpround⟩, hq, hqv, hqround⟩ :=
      Rounding.exists_sqrt_finite .binary32 hm e
    rw [sq] at hpv hqv
    -- a number above one is below its square
    have hple : p ≤ ceiling := by
      rcases le_total p 1 with h | h
      · exact h.trans one_le_ceiling
      · exact (le_mul_of_one_le_left hp.le h).trans (hpv.trans hle)
    rw [hpround] at hsqrt hqround
    have hunpack := unpack_of_pack hp.le hple hsqrt
    have hsize := size_of_nearest hunpack
    refine ⟨nonneg_of_nearest hunpack, p, q, ⟨hp.le, hpv, hsize⟩, hq.le, hqv, hsize.trans ?_⟩
    rw [← magnitude_nearest_eq .positive p, hqround, magnitude_nearest_eq]

theorem Nonneg.sqrt (hv : Nonneg v) (hle : size v ≤ ceiling) : Nonneg v.sqrt :=
  (hv.exists_sqrt hle).1

/-- **Of two numbers the greater one has the greater root.** -/
theorem Nonneg.size_sqrt_mono (hv : Nonneg v) (hw : Nonneg w) (hvw : size v ≤ size w)
    (hle : size w ≤ ceiling) : size v.sqrt ≤ size w.sqrt := by
  obtain ⟨-, p, -, ⟨hp, hpv, hround⟩, -⟩ := hv.exists_sqrt (hvw.trans hle)
  obtain ⟨-, -, q, -, hq, hqw, hround'⟩ := hw.exists_sqrt hle
  rw [hround, hround']
  exact rounded_mono hp ((mul_self_le_mul_self_iff hp hq).mpr (hpv.trans (hvw.trans hqw)))

/-- **A root does not pass a number of the format** from below. -/
theorem Nonneg.size_sqrt_le (hv : Nonneg v) (hle : size v ≤ ceiling)
    (hr : IsRepresentable .binary32 r) (hr' : 0 ≤ r) (h : size v ≤ r * r) : size v.sqrt ≤ r := by
  obtain ⟨-, p, -, ⟨hp, hpv, hround⟩, -⟩ := hv.exists_sqrt hle
  rw [hround]
  exact rounded_le hr hp ((mul_self_le_mul_self_iff hp hr').mpr (hpv.trans h))

/-- **A root does not pass a number of the format** from above. -/
theorem Nonneg.le_size_sqrt (hv : Nonneg v) (hle : size v ≤ ceiling)
    (hr : IsRepresentable .binary32 r) (hr' : 0 ≤ r) (h : r * r ≤ size v) : r ≤ size v.sqrt := by
  obtain ⟨-, -, q, -, hq, hqv, hround⟩ := hv.exists_sqrt hle
  rw [hround]
  exact le_rounded hr hr' ((mul_self_le_mul_self_iff hr' hq).mpr (h.trans hqv))

/-! ### Hypotenuses -/

/-- **The hypotenuse** over two legs. -/
def hypotenuse (v w : Float32) : Float32 := (v * v + w * w).sqrt

/-- The number under the root of a hypotenuse, in terms of sizes. -/
def squares (a b : ℚ) : ℚ := rounded (rounded (a * a) + rounded (b * b))

theorem squares_mono (ha : 0 ≤ a) (hb : 0 ≤ b) (hac : a ≤ c) (hbd : b ≤ d) :
    squares a b ≤ squares c d := by
  refine rounded_mono (add_nonneg (rounded_nonneg _) (rounded_nonneg _)) (add_le_add ?_ ?_)
  · exact rounded_mono (mul_self_nonneg a) (mul_self_le_mul_self ha hac)
  · exact rounded_mono (mul_self_nonneg b) (mul_self_le_mul_self hb hbd)

/-- **A leg**: a finite number that is not too large to be squared. -/
structure Leg (v : Float32) : Prop where
  /-- The number is finite. -/
  isFinite : v.isFinite = true
  /-- The square is far from the greatest number of the format. -/
  size_le : size v ≤ 2 ^ 63

theorem isRepresentable_two_pow (n : ℕ) : IsRepresentable .binary32 (2 ^ n) :=
  ⟨1, n, by decide, (show (-149 : ℤ) ≤ n by omega), by rw [Nat.cast_one, one_mul, zpow_natCast]⟩

/-- **The square of a leg** is there, and is far from the greatest number of the format. -/
theorem Leg.mul_self (hv : Leg v) :
    Nonneg (v * v) ∧ size (v * v) = rounded (size v * size v) ∧ size (v * v) ≤ 2 ^ 126 := by
  have hle : size v * size v ≤ 2 ^ 126 :=
    (mul_self_le_mul_self (size_nonneg v) hv.size_le).trans_eq (pow_add 2 63 63).symm
  obtain ⟨hnonneg, hsize⟩ :=
    Single.mul_self hv.isFinite (le_ceiling (show 126 ≤ 127 by decide) hle)
  refine ⟨hnonneg, hsize, ?_⟩
  rw [hsize]
  exact rounded_le (isRepresentable_two_pow 126) (mul_self_nonneg _) hle

/-- **The number under the root** is there, and is not too large. -/
theorem Leg.squares (hv : Leg v) (hw : Leg w) : Nonneg (v * v + w * w) ∧
    size (v * v + w * w) = squares (size v) (size w) ∧ size (v * v + w * w) ≤ ceiling := by
  obtain ⟨hvv, hvsize, hvle⟩ := hv.mul_self
  obtain ⟨hww, hwsize, hwle⟩ := hw.mul_self
  have hsum : size (v * v) + size (w * w) ≤ 2 ^ 127 :=
    (add_le_add hvle hwle).trans_eq (by norm_num)
  obtain ⟨hnonneg, hsize⟩ := hvv.add hww (le_ceiling le_rfl hsum)
  refine ⟨hnonneg, ?_, ?_⟩
  · rw [hsize, hvsize, hwsize, Single.squares]
  · rw [hsize]
    refine le_ceiling le_rfl (rounded_le (isRepresentable_two_pow 127) ?_ hsum)
    exact add_nonneg (size_nonneg _) (size_nonneg _)

theorem Leg.nonneg_hypotenuse (hv : Leg v) (hw : Leg w) : Nonneg (hypotenuse v w) := by
  obtain ⟨hnonneg, -, hle⟩ := hv.squares hw
  exact hnonneg.sqrt hle

/-- **Over longer legs** the hypotenuse is no smaller. -/
theorem Leg.size_hypotenuse_mono {v' w' : Float32} (hv : Leg v) (hw : Leg w) (hv' : Leg v')
    (hw' : Leg w') (hvle : size v ≤ size v') (hwle : size w ≤ size w') :
    size (hypotenuse v w) ≤ size (hypotenuse v' w') := by
  obtain ⟨hnonneg, hsize, -⟩ := hv.squares hw
  obtain ⟨hnonneg', hsize', hle'⟩ := hv'.squares hw'
  refine hnonneg.size_sqrt_mono hnonneg' ?_ hle'
  rw [hsize, hsize']
  exact squares_mono (size_nonneg v) (size_nonneg w) hvle hwle

/-- **A hypotenuse is bounded** by a number of the format that is not below the diagonal of a square
whose side neither leg exceeds. -/
theorem Leg.size_hypotenuse_le (hv : Leg v) (hw : Leg w) (hvle : size v ≤ c) (hwle : size w ≤ c)
    (hc : IsRepresentable .binary32 (c * c)) (hr : IsRepresentable .binary32 r) (hr' : 0 ≤ r)
    (h : 2 * (c * c) ≤ r * r) : size (hypotenuse v w) ≤ r := by
  obtain ⟨hnonneg, hsize, hle⟩ := hv.squares hw
  refine hnonneg.size_sqrt_le hle hr hr' ?_
  have hcc := mul_self_nonneg c
  calc size (v * v + w * w) = Single.squares (size v) (size w) := hsize
    _ ≤ Single.squares c c := squares_mono (size_nonneg v) (size_nonneg w) hvle hwle
    _ = 2 * (c * c) := by
      rw [Single.squares, rounded_eq hc hcc, ← two_mul]
      exact rounded_eq hc.two_mul (mul_nonneg zero_le_two hcc)
    _ ≤ r * r := h

/-- **A hypotenuse is not below its first leg.** -/
theorem Leg.le_size_hypotenuse (hv : Leg v) (hw : Leg w) (hr : IsRepresentable .binary32 r)
    (hrr : IsRepresentable .binary32 (r * r)) (hr' : 0 ≤ r) (h : r ≤ size v) :
    r ≤ size (hypotenuse v w) := by
  obtain ⟨hnonneg, hsize, hle⟩ := hv.squares hw
  refine hnonneg.le_size_sqrt hle hr hr' ?_
  have hrr' := mul_self_nonneg r
  calc r * r = Single.squares r 0 := by
        rw [Single.squares, rounded_eq hrr hrr', mul_zero, rounded_zero, add_zero,
          rounded_eq hrr hrr']
    _ ≤ Single.squares (size v) (size w) := squares_mono hr' le_rfl h (size_nonneg w)
    _ = size (v * v + w * w) := hsize.symm

end Single

end Moorland
