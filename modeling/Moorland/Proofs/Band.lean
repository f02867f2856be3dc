import Moorland.Proofs.Rounding.Rounded
/-!
# The band of reproduction

The thresholds take a sum to zero outside of the **band** between them and to the sum over the
midpoint inside of it, clamped to one. Seen as a function of the sum this rises from the lower
threshold to the midpoint and stays at one from there to the upper threshold. Both are true of the
numbers that are computed and not only of those that are meant: the midpoint is rounded, and so is
the quotient.

Two facts on rounding are behind this. It does not exchange two numbers, so that of two quotients by
one divisor the greater dividend has the greater one (`Moorland.Single.Nonneg.unitClamp_div_le`);
and it does not pass one, so that a quotient which is not below one is clamped to one
(`Moorland.Single.Nonneg.unitClamp_div_eq_one`). A quotient may be too large for the format, and is
infinite then, but only above one.
-/

namespace Moorland

open Single (Nonneg size)

/-! ### Quotients by one divisor -/

namespace Single

variable {v w d : Float32}

/-- **A quotient that is not above one** is the exact quotient, rounded to nearest: it cannot be too
large for the format. -/
theorem Nonneg.div_of_le (hv : Nonneg v) (hd : Nonneg d) (hpos : 0 < size d)
    (hle : size v ≤ size d) :
    Nonneg (v / d) ∧ size (v / d) ≤ 1 ∧ size (v / d) = rounded (size v / size d) := by
  have hone : size v / size d ≤ 1 := (div_le_one hpos).mpr hle
  obtain ⟨hnonneg, hsize⟩ := hv.div hd hpos (hone.trans one_le_ceiling)
  refine ⟨hnonneg, ?_, hsize⟩
  rw [hsize]
  exact rounded_le isRepresentable_one (div_nonneg (size_nonneg v) hpos.le) hone

theorem Nonneg.isLevel (hv : Nonneg v) (hle : size v ≤ 1) : IsLevel v :=
  ⟨isNaN_of_isFinite hv.isFinite, hv.le, (hv.le_iff nonneg_one).mpr (size_one ▸ hle)⟩

/-- Two numbers in order between two that are not below zero are such numbers. -/
theorem Nonneg.of_between_in_order (hv : Nonneg v) (hw : Nonneg w) {x y : Float32} (hvx : v ≤ x)
    (hxy : x ≤ y) (hyw : y ≤ w) : Nonneg x ∧ Nonneg y := by
  rcases hv.or_infinite_of_le hvx with hx | hx
  · exact ⟨hx, hx.of_between hw hxy hyw⟩
  · exact absurd hyw (hw.not_le_of_infinite (infinite_of_le hx hxy))

/-- **Of two numbers over one divisor**, the greater one has the greater quotient, once both are
clamped. -/
theorem Nonneg.unitClamp_div_le (hv : Nonneg v) (hw : Nonneg w) (hd : Nonneg d)
    (hpos : 0 < size d) (hle : v ≤ w) : unitClamp (v / d) ≤ unitClamp (w / d) := by
  have hsizes : size v ≤ size w := (hv.le_iff hw).mp hle
  rcases le_or_gt (size d) (size w) with hge | hlt
  · -- the greater quotient is clamped to one
    rw [hw.unitClamp_div_eq_one hd hpos hge]
    exact (isLevel_unitClamp (hv.isNaN_div hd hpos)).2.2
  · obtain ⟨hvd, hvd₁, hvsize⟩ := hv.div_of_le hd hpos (hsizes.trans hlt.le)
    obtain ⟨hwd, hwd₁, hwsize⟩ := hw.div_of_le hd hpos hlt.le
    rw [(hvd.isLevel hvd₁).unitClamp_eq, (hwd.isLevel hwd₁).unitClamp_eq, hvd.le_iff hwd, hvsize,
      hwsize]
    exact rounded_mono (div_nonneg (size_nonneg v) hpos.le)
      (div_le_div_of_nonneg_right hsizes hpos.le)

end Single

/-! ### The band -/

namespace Thresholds

variable {t : Thresholds} {sum : Float32}

/-- **A NaN is in no part of the table**: it is neither below the band nor above it nor inside. -/
theorem channel_of_isNaN (h : sum.isNaN = true) : t.channel sum = 0 := by
  have hright : ∀ v : Float32, sum.toModel.unpack.compare v.toModel.unpack = none :=
    fun v => Single.compare_eq_none_iff.mpr (.inl h)
  have hleft : ∀ v : Float32, v.toModel.unpack.compare sum.toModel.unpack = none :=
    fun v => Single.compare_eq_none_iff.mpr (.inr h)
  have hbelow : ¬sum < t.lower := by
    rw [Single.lt_iff_compare, hright]
    exact nofun
  have habove : ¬t.upper < sum := by
    rw [Single.lt_iff_compare, hleft]
    exact nofun
  have hin : ¬t.lower ≤ sum := by
    rw [Single.le_iff_compare, hleft]
    exact nofun
  rw [channel, if_neg (by simp [hbelow, habove]), if_neg (by simp [hin])]
  decide

/-- **From the midpoint on** a sum in the band is taken to one. -/
theorem Sound.channel_eq_one (ht : t.Sound) (hdivisor : t.SoundDivisor) (hmid : t.midpoint ≤ sum)
    (hhigh : sum ≤ t.upper) : t.channel sum = 1 := by
  obtain ⟨hfinite, hband⟩ := ht.soundDivisor_iff.mp hdivisor
  have hnonneg := (ht.size_midpoint hfinite).1
  have hsum := hnonneg.of_between ht.nonneg_upper hmid hhigh
  have hlow : t.lower ≤ sum := (ht.nonneg_lower.le_iff hsum).mpr
    ((ht.size_midpoint_mem hfinite).1.trans ((hnonneg.le_iff hsum).mp hmid))
  rw [channel_of_mem hlow hhigh]
  exact hsum.unitClamp_div_eq_one hnonneg (ht.size_midpoint_pos hfinite hband)
    ((hnonneg.le_iff hsum).mp hmid)

/-- **In the band the level rises with the sum.** -/
theorem Sound.channel_le (ht : t.Sound) (hdivisor : t.SoundDivisor) {more : Float32}
    (hlow : t.lower ≤ sum) (hle : sum ≤ more) (hhigh : more ≤ t.upper) :
    t.channel sum ≤ t.channel more := by
  obtain ⟨hfinite, hband⟩ := ht.soundDivisor_iff.mp hdivisor
  obtain ⟨hsum, hmore⟩ :=
    ht.nonneg_lower.of_between_in_order ht.nonneg_upper hlow hle hhigh
  have hsizes : size sum ≤ size more := (hsum.le_iff hmore).mp hle
  have hhigh' : sum ≤ t.upper := (hsum.le_iff ht.nonneg_upper).mpr
    (hsizes.trans ((hmore.le_iff ht.nonneg_upper).mp hhigh))
  have hlow' : t.lower ≤ more := (ht.nonneg_lower.le_iff hmore).mpr
    (((ht.nonneg_lower.le_iff hsum).mp hlow).trans hsizes)
  rw [channel_of_mem hlow hhigh', channel_of_mem hlow' hhigh]
  exact hsum.unitClamp_div_le hmore (ht.size_midpoint hfinite).1
    (ht.size_midpoint_pos hfinite hband) hle

/-- **The shape of the band.** Let the midpoint of accepted thresholds be finite and above zero. A
sum that is a NaN, or below the lower threshold, or above the upper one is taken to zero. Every
other sum, each of the two thresholds included, is divided by the midpoint and clamped. The level
rises with the sum from the lower threshold on, and is one, exactly, from the midpoint to the upper
threshold. -/
theorem channel_over_band {lower upper : Float32} (h : check lower upper = .ok t)
    (hfinite : t.midpoint.isFinite = true) (hpos : 0 < t.midpoint) :
    (∀ sum, sum.isNaN = true ∨ sum < lower ∨ upper < sum → t.channel sum = 0) ∧
      (∀ sum, lower ≤ sum → sum ≤ upper → t.channel sum = unitClamp (sum / t.midpoint)) ∧
      t.channel lower = unitClamp (lower / t.midpoint) ∧
      t.channel upper = unitClamp (upper / t.midpoint) ∧
      (∀ sum more, lower ≤ sum → sum ≤ more → more ≤ upper → t.channel sum ≤ t.channel more) ∧
      (∀ sum, t.midpoint ≤ sum → sum ≤ upper → t.channel sum = 1) ∧ t.channel upper = 1 := by
  have ht := sound_of_check h
  obtain ⟨-, rfl⟩ := check_eq_ok_iff.mp h
  have hdivisor := ht.soundDivisor_iff.mpr (ht.sum_of_midpoint hfinite hpos)
  have hself := ht.upper_le_self
  have hlower := (ht.nonneg_lower.le_iff ht.nonneg_lower).mpr le_rfl
  refine ⟨fun sum hout => ?_, fun sum hlow hhigh => channel_of_mem hlow hhigh,
    channel_of_mem hlower ht.lower_le, channel_of_mem ht.lower_le hself,
    fun sum more hlow hle hhigh => ht.channel_le hdivisor hlow hle hhigh,
    fun sum hmid hhigh => ht.channel_eq_one hdivisor hmid hhigh,
    ht.channel_eq_one hdivisor hdivisor.le_upper hself⟩
  rcases hout with hnan | hout
  · exact channel_of_isNaN hnan
  · exact channel_of_out hout

/-- **The least two numbers above zero as thresholds.** One half of their sum lies between the two
and is rounded up to the upper one, so that the lower one is taken to one half and the upper one to
one. -/
theorem channel_over_band_least :
    let t : Thresholds := ⟨.ofBits 1, .ofBits 2⟩
    (check (.ofBits 1) (.ofBits 2) = .ok t ∧ t.midpoint.isFinite = true ∧ 0 < t.midpoint) ∧
      t.midpoint = .ofBits 2 ∧ t.channel (.ofBits 1) = 0.5 ∧ t.channel (.ofBits 2) = 1 ∧
      t.channel (.ofBits 1) ≤ t.channel (.ofBits 2) ∧ t.channel (.ofBits 3) = 0 := by
  intro t
  have hcheck : check (.ofBits 1) (.ofBits 2) = .ok t := rfl
  have hfinite : t.midpoint.isFinite = true := by decide
  have hpos : 0 < t.midpoint := by decide
  obtain ⟨hout, -, -, -, hrises, -, hone⟩ := channel_over_band hcheck hfinite hpos
  exact ⟨⟨hcheck, hfinite, hpos⟩, by decide, by decide, hone,
    hrises _ _ (by decide) (by decide) (by decide), hout _ (.inr (.inr (by decide)))⟩

end Thresholds

end Moorland
