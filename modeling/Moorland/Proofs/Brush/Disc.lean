import Moorland.Proofs.Brush.Size
import Moorland.Proofs.Rounding.Distance
/-!
# The disc of a round brush

A round brush keeps the pixels of a disc around its middle and makes the others transparent. Whether
a pixel is kept is computed in single precision, in seven operations at each place, and the set that
comes out is a disc all the same (`Moorland.Brush.isCentredDisc_inDisc`): in each row and in each
column it has no gaps, and it does not change when a row or a column is turned around its middle.

Half of a side and a place have few digits, and so their difference is exact
(`Moorland.Brush.size_offCentre`). The operations after that are all rounded, but each of them is
monotone, so that a place which is no farther from the middle than a kept one, in both directions,
is kept too (`Moorland.Brush.inDisc_of_closer`). Of three places in a row the middle one is never
the farthest, and a place and its mirror image are equally far, which is all that there is to show.
-/

namespace Moorland

open Single (Nonneg Leg ceiling rounded hypotenuse)
open Rounding (IsRepresentable)

namespace Brush

variable {b : Brush} {n i j width height x y x' y' : Nat}

/-! ### The pixels of the masked brush -/

/-- **The masked brush, place by place.** -/
theorem get?_roundMask (b : Brush) (x y : Nat) : b.roundMask.get? x y =
    (b.get? x y).map fun p => if inDisc b.width b.height x y then p else .transparent := by
  by_cases hin : b.inside x y = true
  · have hx : x < b.width := by
      rw [inside, Bool.and_eq_true, decide_eq_true_iff] at hin
      exact hin.1
    have hread : b.roundMask.get? x y = b.roundMask.pixels[y * b.width + x]? := if_pos hin
    have hmasks : b.masks (x, y) = !inDisc b.width b.height x y := by
      rw [masks, hin, Bool.true_and]
    rw [hread, get?, if_pos hin, roundMask, Array.getElem?_mapIdx, place_add hx, hmasks]
    simp only [Bool.not_eq_true', ← Bool.not_eq_true, ite_not]
  · have hread : b.roundMask.get? x y = none := if_neg hin
    rw [hread, get?, if_neg hin, Option.map_none]

/-- **Masking twice is masking once.** -/
theorem roundMask_roundMask (b : Brush) : b.roundMask.roundMask = b.roundMask := by
  have htwice : ∀ (masked : Bool) (p : Pixel), (if masked then .transparent
      else if masked then .transparent else p) = if masked then .transparent else p := by
    intro masked p
    cases masked <;> rfl
  refine congrArg (Brush.mk b.width b.height) ?_
  rw [roundMask, Array.mapIdx_mapIdx]
  exact congrArg (Array.mapIdx · b.pixels) (funext₂ fun i p => htwice _ p)

theorem isFull_roundMask (hb : b.IsFull) : b.roundMask.IsFull := b.size_pixels_roundMask.trans hb

/-! ### Places and the middle -/

/-- **How far a place is from the middle** of a side, as it is computed. -/
def offCentre (n i : Nat) : Float32 := Float32.ofNat i - Float32.ofNat n / 2

/-- **The radius of the disc**, as it is computed. -/
def radius (width : Nat) : Float32 := Float32.ofNat width / 2.1

theorem inDisc_eq (width height x y : Nat) : inDisc width height x y =
    !decide (radius width < hypotenuse (offCentre width x) (offCentre height y)) := rfl

/-- A natural number of at most 64 digits is not too large for single precision. -/
theorem natCast_le_ceiling_of_word (hn : n ≤ 2 ^ 64) : (n : ℚ) ≤ ceiling :=
  Single.le_ceiling (show 64 ≤ 127 by decide) (by exact_mod_cast hn)

theorem unpack_divisor :
    (2.1 : Float32).toModel.unpack = .finite .positive 8808038 (-22) (by decide) := rfl

theorem nonneg_divisor : Nonneg 2.1 := ⟨by decide, by decide⟩

/-- **The number that a width is divided by** to get the radius. -/
theorem size_divisor : Single.size 2.1 = 8808038 / 2 ^ 22 := by
  rw [Single.size, unpack_divisor, Rounding.magnitude_finite]
  norm_num

theorem one_le_size_divisor : 1 ≤ Single.size 2.1 := by
  rw [size_divisor]
  norm_num

/-- **The size of the radius** is that of a quotient, rounded. -/
theorem size_radius (hn : n ≤ 2 ^ 64) :
    Nonneg (radius n) ∧ Single.size (radius n) = rounded (rounded n / Single.size 2.1) := by
  obtain ⟨hnonneg, hsize⟩ := Single.size_ofNat_eq (natCast_le_ceiling_of_word hn)
  have hone := one_le_size_divisor
  rw [← hsize]
  refine hnonneg.div nonneg_divisor (by linarith) ?_
  refine (div_le_self (Single.size_nonneg _) hone).trans ?_
  rw [hsize]
  refine Single.le_ceiling (show 64 ≤ 127 by decide) ?_
  exact Single.rounded_le (Single.isRepresentable_two_pow 64) (Nat.cast_nonneg n)
    (by exact_mod_cast hn)

/-- **A place is kept** if its distance is not above the radius. -/
theorem inDisc_iff (hwidth : width ≤ 2 ^ 64) (hx : Leg (offCentre width x))
    (hy : Leg (offCentre height y)) : inDisc width height x y = true ↔
      Single.size (hypotenuse (offCentre width x) (offCentre height y)) ≤
        Single.size (radius width) := by
  rw [inDisc_eq, Bool.not_eq_true', decide_eq_false_iff_not,
    (size_radius hwidth).1.lt_iff (hx.nonneg_hypotenuse hy), not_lt]

/-- Half of a natural number without too many digits is one of the format. -/
theorem isRepresentable_half (hn : n < 2 ^ 24) : IsRepresentable .binary32 (n / 2) :=
  ⟨n, -1, hn, (show (-149 : ℤ) ≤ -1 by decide), by rw [zpow_neg_one, div_eq_mul_inv]⟩

/-- **The size of the distance from the middle of a side**: nothing but the difference is rounded
after the side and the place have been. -/
theorem leg_offCentre (hn : n ≤ 2 ^ 64) (hi : i ≤ n) : Leg (offCentre n i) ∧
    Single.size (offCentre n i) = rounded |rounded i - rounded n / 2| := by
  obtain ⟨hi₀, hisize⟩ := Single.size_ofNat_eq (natCast_le_ceiling_of_word (hi.trans hn))
  obtain ⟨hn₀, hnsize⟩ := Single.size_ofNat_eq (natCast_le_ceiling_of_word hn)
  have hpower : rounded (n : ℚ) ≤ 2 ^ 64 := Single.rounded_le (Single.isRepresentable_two_pow 64)
    (Nat.cast_nonneg n) (by exact_mod_cast hn)
  obtain ⟨hhalf, hhalfsize⟩ :=
    hn₀.half (hnsize ▸ Single.le_ceiling (show 64 ≤ 127 by decide) hpower)
  rw [hnsize, Single.rounded_rounded_div_two] at hhalfsize
  -- a place of the side is no farther from the middle than the ends
  have hle : |rounded (i : ℚ) - rounded n / 2| ≤ 2 ^ 63 := by
    have hlow : 0 ≤ rounded (i : ℚ) := Single.rounded_nonneg _
    have hhigh : rounded (i : ℚ) ≤ rounded n :=
      Single.rounded_mono (Nat.cast_nonneg i) (by exact_mod_cast hi)
    rw [abs_le]
    constructor <;> linarith
  obtain ⟨hfinite, hsize⟩ := hi₀.sub hhalf (by
    rw [hisize, hhalfsize]
    exact Single.le_ceiling (show 63 ≤ 127 by decide) hle)
  rw [hisize, hhalfsize] at hsize
  refine ⟨⟨hfinite, hsize.trans_le ?_⟩, hsize⟩
  exact Single.rounded_le (Single.isRepresentable_two_pow 63) (abs_nonneg _) hle

/-- **The distance from the middle of a side is exact** if the side has few digits. -/
theorem size_offCentre (hn : n < 2 ^ 24) (hi : i ≤ n) :
    Single.size (offCentre n i) = |(i : ℚ) - n / 2| := by
  rw [(leg_offCentre (by omega) hi).2, Single.rounded_natCast hn,
    Single.rounded_natCast (by omega)]
  -- the difference is half of a number that has no more digits than the side
  obtain ⟨k, hk, hkn⟩ : ∃ k : ℕ, |(i : ℚ) - n / 2| = k / 2 ∧ k ≤ n := by
    refine ⟨(2 * (i : ℤ) - n).natAbs, ?_, by omega⟩
    rw [Nat.cast_natAbs, Int.cast_abs]
    push_cast
    rw [← abs_of_pos (two_pos : (0 : ℚ) < 2), ← abs_div, abs_of_pos (two_pos : (0 : ℚ) < 2)]
    congr 1
    ring
  rw [hk, Single.rounded_eq (isRepresentable_half (by omega)) (by positivity)]

/-! ### The disc -/

/-- **A place no farther from the middle than a kept one**, in both directions, is kept. -/
theorem inDisc_of_closer (hw : width < 2 ^ 24) (hh : height < 2 ^ 24) (hx : x ≤ width)
    (hy : y ≤ height) (hx' : x' ≤ width) (hy' : y' ≤ height)
    (hxx : |(x' : ℚ) - width / 2| ≤ |(x : ℚ) - width / 2|)
    (hyy : |(y' : ℚ) - height / 2| ≤ |(y : ℚ) - height / 2|)
    (h : inDisc width height x y = true) : inDisc width height x' y' = true := by
  have hword : width ≤ 2 ^ 64 := by omega
  have hlx := (leg_offCentre hword hx).1
  have hly := (leg_offCentre (n := height) (by omega) hy).1
  have hlx' := (leg_offCentre hword hx').1
  have hly' := (leg_offCentre (n := height) (by omega) hy').1
  rw [inDisc_iff hword hlx hly] at h
  rw [inDisc_iff hword hlx' hly']
  rw [← size_offCentre hw hx, ← size_offCentre hw hx'] at hxx
  rw [← size_offCentre hh hy, ← size_offCentre hh hy'] at hyy
  exact (hlx'.size_hypotenuse_mono hly' hlx hly hxx hyy).trans h

/-- **A set of places is a disc around the middle** of a rectangle: it has no gaps in rows and
columns and is its own mirror image. A place is given by its lowest corner, and so the first place
of a row and of a column has no mirror image. -/
structure IsCentredDisc (width height : Nat) (kept : Nat → Nat → Prop) : Prop where
  /-- There are no gaps in a row. -/
  row : ∀ {x₁ x x₂ y}, x₁ ≤ x → x ≤ x₂ → x₂ < width → y < height → kept x₁ y → kept x₂ y → kept x y
  /-- There are no gaps in a column. -/
  column : ∀ {x y₁ y y₂}, y₁ ≤ y → y ≤ y₂ → y₂ < height → x < width →
    kept x y₁ → kept x y₂ → kept x y
  /-- The mirror image of a row is the row. -/
  mirrored_row : ∀ {x y}, 1 ≤ x → x < width → y < height → (kept x y ↔ kept (width - x) y)
  /-- The mirror image of a column is the column. -/
  mirrored_column : ∀ {x y}, 1 ≤ y → y < height → x < width → (kept x y ↔ kept x (height - y))

/-- **Between two places one is not the closest to the middle.** -/
theorem closer_or_closer (hij : i ≤ j) {k : Nat} (hjk : j ≤ k) (n : Nat) :
    |(j : ℚ) - n / 2| ≤ |(i : ℚ) - n / 2| ∨ |(j : ℚ) - n / 2| ≤ |(k : ℚ) - n / 2| := by
  have hij' : (i : ℚ) ≤ j := by exact_mod_cast hij
  have hjk' : (j : ℚ) ≤ k := by exact_mod_cast hjk
  rcases le_total (j : ℚ) (n / 2) with h | h
  · left
    rw [abs_of_nonpos (by linarith), abs_of_nonpos (by linarith)]
    linarith
  · right
    rw [abs_of_nonneg (by linarith), abs_of_nonneg (by linarith)]
    linarith

/-- **A place and its mirror image are equally far from the middle.** -/
theorem abs_mirrored (hi : i ≤ n) : |((n - i : ℕ) : ℚ) - n / 2| = |(i : ℚ) - n / 2| := by
  rw [Nat.cast_sub hi, ← abs_neg]
  congr 1
  ring

/-- **The places that are kept are a disc around the middle**, in spite of all rounding. -/
theorem isCentredDisc_inDisc (hw : width < 2 ^ 24) (hh : height < 2 ^ 24) :
    IsCentredDisc width height fun x y => inDisc width height x y = true where
  row {x₁ x x₂ y} h₁ h₂ hx hy hleft hright := by
    rcases closer_or_closer h₁ h₂ width with h | h
    · exact inDisc_of_closer hw hh (by omega) hy.le (by omega) hy.le h le_rfl hleft
    · exact inDisc_of_closer hw hh hx.le hy.le (by omega) hy.le h le_rfl hright
  column {x y₁ y y₂} h₁ h₂ hy hx hbelow habove := by
    rcases closer_or_closer h₁ h₂ height with h | h
    · exact inDisc_of_closer hw hh hx.le (by omega) hx.le (by omega) le_rfl h hbelow
    · exact inDisc_of_closer hw hh hx.le hy.le hx.le (by omega) le_rfl h habove
  mirrored_row {x y} _ hx hy := by
    have hmirror := abs_mirrored hx.le
    constructor
    · exact inDisc_of_closer hw hh hx.le hy.le (Nat.sub_le _ _) hy.le hmirror.le le_rfl
    · exact inDisc_of_closer hw hh (Nat.sub_le _ _) hy.le hx.le hy.le hmirror.ge le_rfl
  mirrored_column {x y} _ hy hx := by
    have hmirror := abs_mirrored hy.le
    constructor
    · exact inDisc_of_closer hw hh hx.le hy.le hx.le (Nat.sub_le _ _) le_rfl hmirror.le
    · exact inDisc_of_closer hw hh hx.le (Nat.sub_le _ _) hx.le hy.le le_rfl hmirror.ge

/-- **Masking cuts out a disc.** A pixel of the masked brush is the pixel that was there, or
transparent, and which of the two depends on the size of the brush and on the place only. The places
that are kept are a disc around the middle of the brush. A masked brush is not changed by masking
it again. -/
theorem roundMask_centredDisc (hb : b.IsFull) (hw : b.width < 2 ^ 24) (hh : b.height < 2 ^ 24) :
    b.roundMask.IsFull ∧ b.roundMask.width = b.width ∧ b.roundMask.height = b.height ∧
      (∀ x y, b.roundMask.get? x y =
        (b.get? x y).map fun p => if inDisc b.width b.height x y then p else .transparent) ∧
      IsCentredDisc b.width b.height (fun x y => inDisc b.width b.height x y = true) ∧
      b.roundMask.roundMask = b.roundMask := by
  refine ⟨isFull_roundMask hb, rfl, rfl, ?_, isCentredDisc_inDisc hw hh, roundMask_roundMask b⟩
  intro x y
  exact get?_roundMask b x y

/-- A brush with eight rows and columns: a pixel next to a corner, one that is kept, and its image
in both mirrors. -/
theorem roundMask_centredDisc_eight :
    let b := solid 8 .white
    (b.IsFull ∧ b.width < 2 ^ 24 ∧ b.height < 2 ^ 24) ∧
      b.roundMask.get? 1 1 = some .transparent ∧
      b.roundMask.get? 1 2 = some (.opaquely .white) ∧
      b.roundMask.get? 7 6 = some (.opaquely .white) := by
  intro b
  have hb : b.IsFull := Array.size_replicate
  have hw : b.width < 2 ^ 24 := by decide
  have hh : b.height < 2 ^ 24 := by decide
  obtain ⟨-, -, -, hread, hdisc, -⟩ := roundMask_centredDisc hb hw hh
  have hout : inDisc 8 8 1 1 = false := by decide +kernel
  have hin : inDisc 8 8 1 2 = true := by decide +kernel
  have hrow : inDisc 8 8 7 2 = true :=
    (hdisc.mirrored_row (x := 1) (y := 2) (by decide) (by decide) (by decide)).mp hin
  have hcolumn : inDisc 8 8 7 6 = true :=
    (hdisc.mirrored_column (x := 7) (y := 2) (by decide) (by decide) (by decide)).mp hrow
  have hpixel : ∀ x y, x < 8 → y < 8 → b.get? x y = some (.opaquely .white) := by
    intro x y hx hy
    refine get?_eq_some_iff.mpr ⟨hx, hy, ?_⟩
    exact Array.getElem?_replicate.trans (if_pos (show y * 8 + x < 8 * 8 by omega))
  refine ⟨⟨hb, hw, hh⟩, ?_, ?_, ?_⟩
  · exact (hread 1 1).trans ((congrArg _ (hpixel 1 1 (by decide) (by decide))).trans
      (congrArg some (if_neg (ne_true_of_eq_false hout))))
  · exact (hread 1 2).trans ((congrArg _ (hpixel 1 2 (by decide) (by decide))).trans
      (congrArg some (if_pos hin)))
  · exact (hread 7 6).trans ((congrArg _ (hpixel 7 6 (by decide) (by decide))).trans
      (congrArg some (if_pos hcolumn)))

end Brush

end Moorland
