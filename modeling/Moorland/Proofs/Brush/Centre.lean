import Moorland.Proofs.Brush.Disc
import Moorland.Proofs.Stamp.Agreement
import Moorland.Proofs.Stamp.Void
/-!
# The middle of a round brush

A round brush should paint something: at least the pixel in its middle. The distance of a pixel from
the middle is that of its lowest corner, and so the pixel in the middle may be half a pixel away in
both directions, and farther if the height is rounded. A brush of two columns or more has a radius
of nearly one pixel, and keeps the pixel in its middle all the same
(`Moorland.Brush.inDisc_middle`), unless it is both very high and narrow. It then paints that pixel
(`Moorland.Grid.stamp_roundMask_middle`). A brush of one column has a radius below half a pixel.
Every pixel is farther away than that, so that masking the brush leaves nothing of it
(`Moorland.Brush.eq_transparent_of_column`) and nothing is painted
(`Moorland.Grid.stamp_roundMask_of_column`).

Everything is compared with a power of two that is not above the width and more than half of it. In
units of it the radius is at least fifteen parts of thirty-two, and each of the two distances is at
most five parts of sixteen. Rounding does not pass these numbers.
-/

namespace Moorland

open Single (Nonneg Leg rounded hypotenuse)
open Rounding (IsRepresentable)

namespace Brush

variable {b : Brush} {n k width height x y : Nat}

/-! ### The pixel in the middle -/

/-- The middle of a side, rounded down, is one half below it or exact. -/
theorem abs_half_sub_le (n : ℕ) : |((n / 2 : ℕ) : ℚ) - n / 2| ≤ 1 / 2 := by
  have hn : (n : ℚ) = 2 * (n / 2 : ℕ) + (n % 2 : ℕ) := by exact_mod_cast (Nat.div_add_mod n 2).symm
  have hlow : (0 : ℚ) ≤ (n % 2 : ℕ) := Nat.cast_nonneg _
  have hhigh : ((n % 2 : ℕ) : ℚ) ≤ 1 := by exact_mod_cast Nat.lt_succ_iff.mp (Nat.mod_lt n two_pos)
  rw [abs_le]
  constructor <;> linarith

/-- **The middle of a side, rounded**, is not far from half of the rounded side. -/
theorem abs_rounded_half_sub_le (hn : 2 ≤ n) :
    |rounded (n / 2 : ℕ) - rounded n / 2| ≤ 1 / 2 + n / 2 ^ 24 := by
  have hhalf := abs_half_sub_le n
  have hmiddle : (1 : ℚ) ≤ (n / 2 : ℕ) := by exact_mod_cast (show 1 ≤ n / 2 by omega)
  have hle : ((n / 2 : ℕ) : ℚ) ≤ n / 2 := Nat.cast_div_le
  have h₁ := Single.abs_rounded_sub_le hmiddle
  have h₂ := Single.abs_rounded_sub_le (show (1 : ℚ) ≤ n by exact_mod_cast (by omega : 1 ≤ n))
  rw [abs_le] at *
  constructor <;> linarith

/-- **The middle of a side is close to the middle in single precision**, compared with a power of
two: if the side is even there is no difference, if it has few digits the difference is one half at
most, and otherwise it is a small part of the side. -/
theorem abs_rounded_half_sub_le_mul (hk : 1 ≤ k) (hwidth : width < 2 ^ (k + 1))
    (hn : Even n ∨ n < 2 ^ 24 ∨ n ≤ 2 ^ 21 * width) :
    |rounded (n / 2 : ℕ) - rounded n / 2| ≤ 5 * 2 ^ ((k : ℤ) - 4) := by
  have hpower : (5 : ℚ) * 2 ^ ((k : ℤ) - 4) = 5 / 16 * 2 ^ k := by
    rw [zpow_sub₀ two_ne_zero, zpow_natCast]
    ring
  have htwo : (2 : ℚ) ≤ 2 ^ k := le_self_pow₀ one_le_two (by omega)
  rw [hpower]
  by_cases hsmall : n < 2 ^ 24
  · rw [Single.rounded_natCast hsmall, Single.rounded_natCast (by omega)]
    exact (abs_half_sub_le n).trans (by linarith)
  · rcases hn with heven | hlt | hle
    · obtain ⟨m, rfl⟩ := heven.two_dvd
      have hdouble : rounded ((2 * m : ℕ) : ℚ) = 2 * rounded m := by
        rw [Nat.cast_mul, Nat.cast_ofNat, Single.rounded_two_mul (by omega)]
      rw [hdouble, Nat.mul_div_cancel_left m two_pos, mul_div_cancel_left₀ _ two_ne_zero, sub_self,
        abs_zero]
      positivity
    · exact absurd hlt hsmall
    · -- such a side is long, and so the brush has at least eight columns
      have hthree : 3 ≤ k := by
        by_contra hlt
        have hsmall' : (2 : ℕ) ^ (k + 1) ≤ 2 ^ 3 := Nat.pow_le_pow_right two_pos (by omega)
        omega
      have hpow : (2 : ℚ) ^ 3 ≤ 2 ^ k := pow_le_pow_right₀ one_le_two hthree
      have hn' : (n : ℚ) ≤ 2 ^ 21 * width := by exact_mod_cast hle
      have hwidth' : (width : ℚ) ≤ 2 ^ k * 2 := by exact_mod_cast hwidth.le.trans_eq (pow_succ 2 k)
      refine (abs_rounded_half_sub_le (by omega)).trans ?_
      linarith

/-- **The radius, compared with a power of two.** -/
theorem le_size_radius (hk : 1 ≤ k) (hlow : 2 ^ k ≤ width) (hword : width ≤ 2 ^ 64) :
    15 * 2 ^ ((k : ℤ) - 5) ≤ Single.size (radius width) := by
  have hpower : (15 : ℚ) * 2 ^ ((k : ℤ) - 5) = 15 / 32 * 2 ^ k := by
    rw [zpow_sub₀ two_ne_zero, zpow_natCast]
    ring
  have hwidth : (2 : ℚ) ^ k ≤ rounded width := by
    refine Single.le_rounded (Single.isRepresentable_two_pow k) (by positivity) ?_
    exact_mod_cast hlow
  rw [(size_radius hword).2]
  refine Single.le_rounded ⟨15, (k : ℤ) - 5, by decide, ?_, rfl⟩ (by positivity) ?_
  · change (-149 : ℤ) ≤ k - 5
    omega
  · rw [hpower, size_divisor, le_div_iff₀ (by norm_num)]
    have hpos : (0 : ℚ) < 2 ^ k := by positivity
    linarith

/-- **The pixel in the middle is kept**, if there are two columns or more. -/
theorem inDisc_middle (hwidth : 2 ≤ width) (hwidth' : width ≤ 2 ^ 64) (hheight : height ≤ 2 ^ 64)
    (hshape : Even height ∨ height < 2 ^ 24 ∨ height ≤ 2 ^ 21 * width) :
    inDisc width height (width / 2) (height / 2) = true := by
  obtain ⟨hlx, hsx⟩ := leg_offCentre hwidth' (Nat.div_le_self width 2)
  obtain ⟨hly, hsy⟩ := leg_offCentre hheight (Nat.div_le_self height 2)
  obtain ⟨k, hk⟩ : ∃ k, k = width.log2 := ⟨_, rfl⟩
  have hk₁ : 1 ≤ k := hk ▸ (Nat.le_log2 (by omega)).mpr (by omega)
  have hlow : 2 ^ k ≤ width := hk ▸ Nat.log2_self_le (by omega)
  have hhigh : width < 2 ^ (k + 1) := hk ▸ Nat.lt_log2_self
  -- both legs are within a square, and its diagonal is below the radius
  have hside : IsRepresentable .binary32 (5 * 2 ^ ((k : ℤ) - 4)) :=
    ⟨5, (k : ℤ) - 4, by decide, by change (-149 : ℤ) ≤ k - 4; omega, rfl⟩
  have hsquare : IsRepresentable .binary32 (5 * 2 ^ ((k : ℤ) - 4) * (5 * 2 ^ ((k : ℤ) - 4))) := by
    refine ⟨25, (k : ℤ) - 4 + (k - 4), by decide, ?_, ?_⟩
    · change (-149 : ℤ) ≤ k - 4 + (k - 4)
      omega
    · rw [zpow_add₀ two_ne_zero]
      push_cast
      ring
  have hx : Single.size (offCentre width (width / 2)) ≤ 5 * 2 ^ ((k : ℤ) - 4) := by
    rw [hsx]
    exact Single.rounded_le hside (abs_nonneg _)
      (abs_rounded_half_sub_le_mul hk₁ hhigh (.inr (.inr (Nat.le_mul_of_pos_left _ (by norm_num)))))
  have hy : Single.size (offCentre height (height / 2)) ≤ 5 * 2 ^ ((k : ℤ) - 4) := by
    rw [hsy]
    exact Single.rounded_le hside (abs_nonneg _) (abs_rounded_half_sub_le_mul hk₁ hhigh hshape)
  rw [inDisc_iff hwidth' hlx hly]
  refine (hlx.size_hypotenuse_le hly hx hy hsquare ?_ ?_ ?_).trans (le_size_radius hk₁ hlow hwidth')
  · exact ⟨15, (k : ℤ) - 5, by decide, by change (-149 : ℤ) ≤ k - 5; omega, rfl⟩
  · positivity
  · have hstep : (2 : ℚ) ^ ((k : ℤ) - 4) = 2 ^ ((k : ℤ) - 5) * 2 := by
      rw [← zpow_add_one₀ two_ne_zero]
      congr 1
      omega
    rw [hstep]
    have hpos := mul_self_nonneg ((2 : ℚ) ^ ((k : ℤ) - 5))
    linarith

/-- Of a brush of two columns that is this high not even the middle is kept: half of the rounded
height is one row above it. -/
example : inDisc 2 16777219 (2 / 2) (16777219 / 2) = false := by decide +kernel

/-! ### Brushes of one column -/

/-- **In a brush of one column no pixel is kept.** The lowest corner of each pixel is half a pixel
to the left of the middle, and the radius is smaller than that. -/
theorem inDisc_column (hheight : height ≤ 2 ^ 64) (hy : y ≤ height) :
    inDisc 1 height 0 y = false := by
  have hlx := (leg_offCentre (n := 1) (by norm_num) (Nat.zero_le 1)).1
  have hsx : Single.size (offCentre 1 0) = 1 / 2 := by
    rw [size_offCentre (by norm_num) (Nat.zero_le 1)]
    norm_num
  have hly := (leg_offCentre hheight hy).1
  have hhalf : (1 : ℚ) / 2 ≤ Single.size (hypotenuse (offCentre 1 0) (offCentre height y)) := by
    refine hlx.le_size_hypotenuse hly ?_ ?_ (by norm_num) hsx.ge
    · exact ⟨1, -1, by decide, by decide, by norm_num⟩
    · exact ⟨1, -2, by decide, by decide, by norm_num⟩
  have hradius : Single.size (radius 1) ≤ 31 / 64 := by
    rw [(size_radius (by norm_num)).2, Single.rounded_natCast (by norm_num), size_divisor]
    refine Single.rounded_le ⟨31, -6, by decide, by decide, ?_⟩ ?_ ?_ <;> norm_num
  rw [← Bool.not_eq_true, inDisc_iff (by norm_num) hlx hly, not_le]
  linarith

/-- **Masking a brush of one column leaves nothing of it.** -/
theorem eq_transparent_of_column (hb : b.IsFull) (hwidth : b.width = 1)
    (hheight : b.height ≤ 2 ^ 64) : ∀ p ∈ b.roundMask.pixels, p = .transparent := by
  intro p hp
  obtain ⟨x, y, hread⟩ := (isFull_roundMask hb).exists_place hp
  obtain ⟨hx, hy, -⟩ := get?_eq_some_iff.mp hread
  change x < b.width at hx
  change y < b.height at hy
  obtain rfl : x = 0 := by omega
  rw [get?_roundMask, Option.map_eq_some_iff] at hread
  obtain ⟨q, -, rfl⟩ := hread
  rw [hwidth, inDisc_column hheight hy.le]
  rfl

end Brush

namespace Grid

variable {g : Grid} {b : Brush} {width height : Nat}

/-! ### Painting with a round brush -/

/-- **A brush of one column paints nothing once it is masked**, whatever its pixels are. -/
theorem stamp_roundMask_of_column (hg : g.HasSize width height)
    (hgrid : IsCoordinate width ∧ IsCoordinate height) (hb : b.IsFull)
    (hbrush : IsCoordinate b.width ∧ IsCoordinate b.height) (hwidth : b.width = 1)
    (hheight : 0 < b.height) (cx cy : Int) :
    g.stamp b.roundMask cx cy .alphaOnly = .ok (g, ⟨0, 0, b.height⟩) := by
  have hword : b.height ≤ 2 ^ 64 := by
    have := (isCoordinate_iff.mp hbrush.2).2
    omega
  have hskipped : ∀ p ∈ b.roundMask.pixels, StampMode.alphaOnly.skips p = true := by
    intro p hp
    rw [Brush.eq_transparent_of_column hb hwidth hword p hp]
    decide
  have hstamp := stamp_of_all_skipped hg hgrid (Brush.isFull_roundMask hb)
    (hwidth.symm ▸ one_pos) hheight hbrush hskipped cx cy
  rwa [show b.roundMask.width * b.roundMask.height = b.height from
    (congrArg (· * b.height) hwidth).trans (one_mul _)] at hstamp

/-- **An opaque round brush paints its middle**, if it has two columns or more and is not both very
high and narrow. Masking leaves the pixel in the middle alone, and wherever the whole brush is on
the grid, painting with the masked brush writes that pixel to the place where it lands. -/
theorem stamp_roundMask_middle (hg : g.HasSize width height)
    (hgrid : IsCoordinate width ∧ IsCoordinate height) (hb : b.IsFull)
    (hbrush : IsCoordinate b.width ∧ IsCoordinate b.height)
    (hvisible : ∀ p ∈ b.pixels, p.isTransparent = false) (hwidth : 2 ≤ b.width)
    (hheight : 1 ≤ b.height)
    (hshape : Even b.height ∨ b.height < 2 ^ 24 ∨ b.height ≤ 2 ^ 21 * b.width) :
    ∃ p, b.get? (b.width / 2) (b.height / 2) = some p ∧
      b.roundMask.get? (b.width / 2) (b.height / 2) = some p ∧
      ∀ cx cy, (∀ x y, x < b.width → y < b.height → g.IsPlace (b.landing cx cy x y)) →
        ∃ k report u v, g.stamp b.roundMask cx cy .alphaOnly = .ok (k, report) ∧
          1 ≤ report.written ∧ u < width ∧ v < height ∧
          b.landing cx cy (b.width / 2) (b.height / 2) = (↑u, ↑v) ∧
          k.cell u v = p.cell.clamped := by
  have hx : b.width / 2 < b.width := by omega
  have hy : b.height / 2 < b.height := by omega
  have hwidth' := (isCoordinate_iff.mp hbrush.1).2
  have hheight' := (isCoordinate_iff.mp hbrush.2).2
  obtain ⟨p, hp⟩ := hb.exists_get? hx hy
  have hmasked : b.roundMask.get? (b.width / 2) (b.height / 2) = some p := by
    rw [Brush.get?_roundMask, hp, Option.map_some,
      Brush.inDisc_middle hwidth (by omega) (by omega) hshape]
    rfl
  refine ⟨p, hp, hmasked, fun cx cy hinside => ?_⟩
  have hskip : StampMode.alphaOnly.skips p = false := hvisible p (Brush.mem_pixels_of_get? hp)
  have hplace := hinside _ _ hx hy
  obtain ⟨⟨hu₀, hu⟩, hv₀, hv⟩ := hplace
  rw [hg.width_eq] at hu
  rw [hg.height_eq] at hv
  obtain ⟨u, hu'⟩ := Int.eq_ofNat_of_zero_le hu₀
  obtain ⟨v, hv'⟩ := Int.eq_ofNat_of_zero_le hv₀
  have hland : b.landing cx cy (b.width / 2) (b.height / 2) = (↑u, ↑v) := Prod.ext hu' hv'
  have hfull := Brush.isFull_roundMask hb
  obtain ⟨k, report, hk, -, hpainted, -⟩ := exists_stamp_landing hg hfull
    (by change 0 < b.width; omega) hheight hbrush hgrid cx cy .alphaOnly
  refine ⟨k, report, u, v, hk, ?_, by omega, by omega, hland, ?_⟩
  · -- otherwise no pixel would have been written, and this one has been
    by_contra hzero
    have hnone : report.tally .written = 0 := Nat.lt_one_iff.mp (not_le.mp hzero)
    rw [tally_stamp hg hgrid hfull hbrush hk, Brush.count_eq_zero_iff] at hnone
    exact hnone _ _ p hmasked ⟨hskip, hinside _ _ hx hy⟩
  · exact hpainted _ _ p u v hmasked hskip (by omega) (by omega) hland

/-- A brush of two columns and one row, of which the second pixel is in the middle. -/
theorem stamp_roundMask_middle_two :
    let b : Brush := ⟨2, 1, #[.opaquely .black, .opaquely ⟨2, 0.5, -1⟩]⟩
    let g : Grid := ⟨3, 1, #[.black, .black, .black]⟩
    (g.HasSize 3 1 ∧ (IsCoordinate (3 : Nat) ∧ IsCoordinate (1 : Nat)) ∧ b.IsFull ∧
        (IsCoordinate b.width ∧ IsCoordinate b.height) ∧
        (∀ p ∈ b.pixels, p.isTransparent = false) ∧ 2 ≤ b.width ∧ 1 ≤ b.height ∧
        b.height < 2 ^ 24) ∧
      ∃ k report, g.stamp b.roundMask 1 0 .alphaOnly = .ok (k, report) ∧ 1 ≤ report.written ∧
        k.cell 1 0 = ⟨1, 0.5, 0⟩ := by
  intro b g
  have hg : g.HasSize 3 1 := ⟨rfl, rfl, rfl⟩
  have hgrid : IsCoordinate (3 : Nat) ∧ IsCoordinate (1 : Nat) := by decide
  have hbrush : IsCoordinate b.width ∧ IsCoordinate b.height := by decide
  have hvisible : ∀ p ∈ b.pixels, p.isTransparent = false := by decide
  have hshape : b.height < 2 ^ 24 := by decide
  obtain ⟨p, hp, -, hpainted⟩ := stamp_roundMask_middle hg hgrid (b := b) rfl hbrush hvisible
    (by decide) (by decide) (.inr (.inl hshape))
  refine ⟨⟨hg, hgrid, rfl, hbrush, hvisible, by decide, by decide, hshape⟩, ?_⟩
  obtain ⟨k, report, u, v, hk, hwritten, hu, hv, hland, hcell⟩ := hpainted 1 0 (by
    intro x y hx hy
    change x < 2 at hx
    change y < 1 at hy
    interval_cases x <;> interval_cases y <;> decide)
  obtain ⟨rfl, rfl⟩ : u = 1 ∧ v = 0 := by
    have hplace : b.landing 1 0 (b.width / 2) (b.height / 2) = (↑(1 : Nat), ↑(0 : Nat)) := by decide
    obtain ⟨hu', hv'⟩ := Prod.mk.inj (hland.symm.trans hplace)
    exact ⟨Int.ofNat_inj.mp hu', Int.ofNat_inj.mp hv'⟩
  have hmiddle : b.get? (b.width / 2) (b.height / 2) = some (.opaquely ⟨2, 0.5, -1⟩) := by decide
  obtain rfl := Option.some.inj (hp.symm.trans hmiddle)
  exact ⟨k, report, hk, hwritten, hcell.trans (by decide)⟩

/-- **An opaque brush of one pixel** is erased by masking it, and then paints nothing on a grid that
its pixel lands on. -/
theorem stamp_roundMask_single :
    let b := Brush.solid 1 .white
    let g : Grid := ⟨1, 1, #[.black]⟩
    b.IsFull ∧ (∀ p ∈ b.pixels, p.isTransparent = false) ∧
      b.get? (b.width / 2) (b.height / 2) = some (.opaquely .white) ∧
      b.roundMask.get? (b.width / 2) (b.height / 2) = some .transparent ∧
      g.IsPlace (b.landing 0 0 0 0) ∧
      g.stamp b.roundMask 0 0 .alphaOnly = .ok (g, ⟨0, 0, 1⟩) := by
  intro b g
  have hmasked : b.roundMask = ⟨1, 1, #[.transparent]⟩ := by decide +kernel
  rw [hmasked]
  exact ⟨rfl, by decide, by decide, by decide, by decide, by decide⟩

end Grid

end Moorland
