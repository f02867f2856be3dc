import Moorland.Decimal.Shortest
import Moorland.Proofs.Rounding.Scientific
import Moorland.Proofs.Rounding.Sign
/-!
# Decimals are read to nearest

A decimal stands for a rational (`Moorland.Decimal.value`), and reading one rounds that rational to
nearest (`Moorland.Decimal.IsReader`), in single precision (`Moorland.Decimal.isReader_toSingle`)
and in double precision (`Moorland.Decimal.isReader_toDouble`); so decimals of one value are read
alike.

The digits that are written for a number are found by trying: the search takes what reads back, or
else the exact decimal of the number, which reads back as well
(`Moorland.Decimal.IsReader.read_shortest`). So whatever is written reads back, as the size of the
number (`Moorland.Decimal.toSingle_ofSingle`, `Moorland.Decimal.toDouble_ofDouble`).
-/

namespace Moorland

open Float.Model (Format UnpackedFloat)
open Float.Model.UnpackedFloat
open Rounding (bounded nearest)

namespace Decimal

variable {S : Format} {read : Decimal → UnpackedFloat} {d d' : Decimal}

/-! ### Readers -/

/-- **The rational that a decimal stands for.** -/
def value (d : Decimal) : ℚ := d.digits * 10 ^ d.exponent

theorem value_eq_zero_iff : d.value = 0 ↔ d.digits = 0 := by
  rw [value, mul_eq_zero, Nat.cast_eq_zero, or_iff_left (zpow_ne_zero _ (by norm_num))]

/-- **A reader of decimals** rounds what they stand for to nearest. -/
structure IsReader (S : Format) (read : Decimal → UnpackedFloat) : Prop where
  /-- What is not zero is rounded to nearest. -/
  eq_nearest : ∀ d, 0 < d.digits → read d = bounded S (nearest S .positive d.value)
  /-- A decimal without digits is zero. -/
  eq_zero : ∀ d, d.digits = 0 → read d = .zero .positive

/-- **Decimals of one value are read alike.** -/
theorem IsReader.congr (hread : IsReader S read) (h : d.value = d'.value) : read d = read d' := by
  rcases Nat.eq_zero_or_pos d.digits with hd | hd
  · have hd' : d'.digits = 0 := by rwa [← value_eq_zero_iff, ← h, value_eq_zero_iff]
    rw [hread.eq_zero d hd, hread.eq_zero d' hd']
  · have hd' : 0 < d'.digits := Nat.pos_of_ne_zero fun hzero =>
      hd.ne' (value_eq_zero_iff.mp (h.trans (value_eq_zero_iff.mpr hzero)))
    rw [hread.eq_nearest d hd, hread.eq_nearest d' hd', h]

/-! ### Reading in two ways -/

section Reading

variable {m : ℕ} {e : ℤ}

theorem value_of_neg (he : e < 0) : value ⟨m, e⟩ = m / 10 ^ e.natAbs := by
  obtain ⟨k, rfl⟩ : ∃ k : ℕ, e = -k := ⟨e.natAbs, by omega⟩
  rw [value, Int.natAbs_neg, Int.natAbs_natCast, zpow_neg, zpow_natCast, div_eq_mul_inv]

theorem value_of_nonneg (he : 0 ≤ e) : value ⟨m, e⟩ = m * 10 ^ e.natAbs := by
  obtain ⟨k, rfl⟩ := Int.eq_ofNat_of_zero_le he
  rw [value, Int.natAbs_natCast, zpow_natCast]

/-- An exponent is its size with its sign. -/
theorem signed_natAbs (e : ℤ) :
    (if decide (e < 0) = true then Int.negOfNat e.natAbs else Int.ofNat e.natAbs) = e := by
  rw [Int.negOfNat_eq, Int.ofNat_eq_natCast]
  simp only [decide_eq_true_eq]
  split <;> omega

/-- The digits are read with one operation on two numbers of the format, if there are few of them
and the power of ten is in a table. -/
structure Fast (S : Format) (m : ℕ) (e : ℤ) (digits power : UnpackedFloat) : Prop where
  /-- The digits are a number of the format. -/
  digits_eq : digits = nearest S .positive m
  /-- There are not too many digits. -/
  digits_lt : m < 2 ^ S.mantissaBits
  /-- The power of ten is a number of the format. -/
  power_eq : power = nearest S .positive (10 ^ e.natAbs)
  /-- The odd part of the power does not have too many digits. -/
  power_lt : 5 ^ e.natAbs < 2 ^ S.mantissaBits

theorem Fast.unpack_eq {digits power : UnpackedFloat} (h : Fast S m e digits power)
    (hS : S.mantissaBitsWithoutImplicit < S.exponentBias) (hm : 0 < m) :
    unpack S (pack S (if decide (e < 0) = true then .div S digits power else .mul S digits power)) =
      bounded S (nearest S .positive (value ⟨m, e⟩)) := by
  have hdigits := Rounding.isRepresentable_natCast hS h.digits_lt
  have hpower := Rounding.isRepresentable_ten_pow hS h.power_lt
  have hone : (1 : ℚ) ≤ m := by exact_mod_cast hm
  have hpos : (0 : ℚ) < 10 ^ e.natAbs := by positivity
  split
  next he =>
    rw [value_of_neg (of_decide_eq_true he)]
    exact Rounding.unpack_quotient hdigits hpower (zero_lt_one.trans_le hone) hpos h.digits_eq
      h.power_eq
  next he =>
    rw [value_of_nonneg (Int.not_lt.mp fun hlt => he (decide_eq_true hlt))]
    exact Rounding.unpack_product hS hdigits hpower hone hpos h.digits_eq h.power_eq

end Reading

section Reading

variable {m : ℕ} {e : ℤ}

/-- A natural number that is not zero is normalized by rounding it. -/
theorem normalize_natCast (S : Format) (hm : 0 < m) :
    UnpackedFloat.normalize S (m : ℤ) 0 .positive = .round S .positive m 0 := by
  rw [UnpackedFloat.normalize, Int.compare_eq_gt.mpr (by exact_mod_cast hm)]
  rfl

/-! ### Single precision -/

/-- **The powers of ten that single precision keeps in a table.** -/
def singlePower (k : Fin 11) : Float32 :=
  have : k.val < Float32.exactlyRepresentablePowersOfTen.size := k.isLt
  Float32.exactlyRepresentablePowersOfTen[k.val]

theorem unpack_singlePower (k : Fin 11) :
    (singlePower k).toModel.unpack = nearest .binary32 .positive (10 ^ k.val) := by
  have htable : ∀ i : Fin 11, singlePower i =
      .ofModel (.pack (UnpackedFloat.round .binary32 .positive (10 ^ i.val) 0)) := by
    decide
  have hle : ((10 ^ k.val : ℕ) : ℚ) ≤ 2 ^ (127 : ℤ) := by
    calc ((10 ^ k.val : ℕ) : ℚ) ≤ (10 ^ 10 : ℕ) := by
          exact_mod_cast Nat.pow_le_pow_right (by decide) (Nat.le_of_lt_succ k.isLt)
      _ ≤ 2 ^ (127 : ℤ) := by norm_num
  have hexact := Rounding.unpack_pack_round (S := .binary32) (by decide)
    (Nat.pow_pos (by decide)) hle
  rw [Nat.cast_pow, Nat.cast_ofNat] at hexact
  rw [htable k]
  exact hexact

theorem unpack_toFloat32 (hm : 0 < m) (hlt : m < 2 ^ 23) :
    m.toUInt64.toFloat32.toModel.unpack = nearest .binary32 .positive m := by
  have hword : m.toUInt64.toNat = m := Nat.mod_eq_of_lt (hlt.trans (by decide))
  have hround : m.toUInt64.toFloat32 =
      .ofModel (.pack (UnpackedFloat.round .binary32 .positive m 0)) := by
    change Float32.ofModel (.pack (UnpackedFloat.normalize .binary32 (m.toUInt64.toNat : ℤ) 0
      .positive)) = _
    rw [hword, normalize_natCast _ hm]
  rw [hround]
  refine Rounding.unpack_pack_round (by decide) hm ?_
  calc (m : ℚ) ≤ 2 ^ (23 : ℤ) := by exact_mod_cast hlt.le
    _ ≤ 2 ^ (127 : ℤ) := zpow_le_zpow_right₀ one_le_two (by decide)

theorem fast_single (hm : 0 < m) (h : m < 2 ^ 23 ∧ e.natAbs ≤ 10) :
    Fast .binary32 m e m.toUInt64.toFloat32.toModel.unpack
      (singlePower ⟨e.natAbs, Nat.lt_succ_of_le h.2⟩).toModel.unpack :=
  ⟨unpack_toFloat32 hm h.1, h.1.trans (by decide), unpack_singlePower _,
    (Nat.pow_le_pow_right (by decide) h.2).trans_lt (by decide)⟩

/-- **A decimal is read to nearest in single precision.** -/
theorem isReader_toSingle : IsReader .binary32 fun d => d.toSingle.toModel.unpack where
  eq_nearest := by
    rintro ⟨m, e⟩ hm
    change (Float32.ofScientific m (decide (e < 0)) e.natAbs).toModel.unpack = _
    rw [Float32.ofScientific]
    by_cases hfast : m < 2 ^ 23 ∧ e.natAbs ≤ 10
    · have h := (fast_single (e := e) hm hfast).unpack_eq (by decide) hm
      rw [dif_pos hfast]
      by_cases he : decide (e < 0) = true
      · rw [if_pos he] at h ⊢
        exact h
      · rw [if_neg he] at h ⊢
        exact h
    · rw [dif_neg hfast]
      dsimp only
      rw [signed_natAbs]
      exact Rounding.unpack_ofScientific (by decide) hm e
  eq_zero := by
    have htable : ∀ i : Fin 11, (0 : UInt64).toFloat32 / singlePower i = 0 ∧
        (0 : UInt64).toFloat32 * singlePower i = 0 := by
      decide
    rintro ⟨m, e⟩ rfl
    refine congrArg (fun v : Float32 => v.toModel.unpack) (?_ : _ = (0 : Float32))
    change Float32.ofScientific 0 (decide (e < 0)) e.natAbs = 0
    rw [Float32.ofScientific]
    by_cases hfast : 0 < 2 ^ 23 ∧ e.natAbs ≤ 10
    · have h := htable ⟨e.natAbs, Nat.lt_succ_of_le hfast.2⟩
      rw [dif_pos hfast]
      split
      · exact h.1
      · exact h.2
    · rw [dif_neg hfast]
      rfl

/-! ### Double precision -/

/-- **The powers of ten that double precision keeps in a table.** -/
def doublePower (k : Fin 23) : Float :=
  have : k.val < Float.exactlyRepresentablePowersOfTen.size := k.isLt
  Float.exactlyRepresentablePowersOfTen[k.val]

theorem unpack_doublePower (k : Fin 23) :
    (doublePower k).toModel.unpack = nearest .binary64 .positive (10 ^ k.val) := by
  have htable : ∀ i : Fin 23, doublePower i =
      .ofModel (.pack (UnpackedFloat.round .binary64 .positive (10 ^ i.val) 0)) := by
    decide
  have hle : ((10 ^ k.val : ℕ) : ℚ) ≤ 2 ^ (1023 : ℤ) := by
    calc ((10 ^ k.val : ℕ) : ℚ) ≤ (10 ^ 22 : ℕ) := by
          exact_mod_cast Nat.pow_le_pow_right (by decide) (Nat.le_of_lt_succ k.isLt)
      _ ≤ 2 ^ (100 : ℤ) := by norm_num
      _ ≤ 2 ^ (1023 : ℤ) := zpow_le_zpow_right₀ one_le_two (by decide)
  have hexact := Rounding.unpack_pack_round (S := .binary64) (by decide)
    (Nat.pow_pos (by decide)) hle
  rw [Nat.cast_pow, Nat.cast_ofNat] at hexact
  rw [htable k]
  exact hexact

theorem unpack_toFloat (hm : 0 < m) (hlt : m < 2 ^ 53) :
    m.toUInt64.toFloat.toModel.unpack = nearest .binary64 .positive m := by
  have hword : m.toUInt64.toNat = m := Nat.mod_eq_of_lt (hlt.trans (by decide))
  have hround : m.toUInt64.toFloat =
      .ofModel (.pack (UnpackedFloat.round .binary64 .positive m 0)) := by
    change Float.ofModel (.pack (UnpackedFloat.normalize .binary64 (m.toUInt64.toNat : ℤ) 0
      .positive)) = _
    rw [hword, normalize_natCast _ hm]
  rw [hround]
  refine Rounding.unpack_pack_round (by decide) hm ?_
  calc (m : ℚ) ≤ 2 ^ (53 : ℤ) := by exact_mod_cast hlt.le
    _ ≤ 2 ^ (1023 : ℤ) := zpow_le_zpow_right₀ one_le_two (by decide)

theorem fast_double (hm : 0 < m) (h : m < 2 ^ 53 ∧ e.natAbs ≤ 22) :
    Fast .binary64 m e m.toUInt64.toFloat.toModel.unpack
      (doublePower ⟨e.natAbs, Nat.lt_succ_of_le h.2⟩).toModel.unpack :=
  ⟨unpack_toFloat hm h.1, h.1, unpack_doublePower _,
    (Nat.pow_le_pow_right (by decide) h.2).trans_lt (by decide)⟩

/-- **A decimal is read to nearest in double precision.** -/
theorem isReader_toDouble : IsReader .binary64 fun d => d.toDouble.toModel.unpack where
  eq_nearest := by
    rintro ⟨m, e⟩ hm
    change (Float.ofScientific m (decide (e < 0)) e.natAbs).toModel.unpack = _
    rw [Float.ofScientific]
    by_cases hfast : m < 2 ^ 53 ∧ e.natAbs ≤ 22
    · have h := (fast_double (e := e) hm hfast).unpack_eq (by decide) hm
      rw [dif_pos hfast]
      by_cases he : decide (e < 0) = true
      · rw [if_pos he] at h ⊢
        exact h
      · rw [if_neg he] at h ⊢
        exact h
    · rw [dif_neg hfast]
      dsimp only
      rw [signed_natAbs]
      exact Rounding.unpack_ofScientific (by decide) hm e
  eq_zero := by
    have htable : ∀ i : Fin 23, (0 : UInt64).toFloat / doublePower i = 0 ∧
        (0 : UInt64).toFloat * doublePower i = 0 := by
      decide
    rintro ⟨m, e⟩ rfl
    refine congrArg (fun v : Float => v.toModel.unpack) (?_ : _ = (0 : Float))
    change Float.ofScientific 0 (decide (e < 0)) e.natAbs = 0
    rw [Float.ofScientific]
    by_cases hfast : 0 < 2 ^ 53 ∧ e.natAbs ≤ 22
    · have h := htable ⟨e.natAbs, Nat.lt_succ_of_le hfast.2⟩
      rw [dif_pos hfast]
      split
      · exact h.1
      · exact h.2
    · rw [dif_neg hfast]
      rfl

end Reading

theorem toSingle_congr (h : d.value = d'.value) : d.toSingle = d'.toSingle :=
  Single.unpack_inj.mp (isReader_toSingle.congr h)

theorem toDouble_congr (h : d.value = d'.value) : d.toDouble = d'.toDouble :=
  Double.unpack_inj.mp (isReader_toDouble.congr h)

/-! ### Writing -/

variable {tie : Tie} {reads : Decimal → Bool} {u : Ratio} {x : ℤ}

/-- What is taken from a grid passes the test. -/
theorem reads_of_onGrid (h : onGrid tie reads u x = some d) : reads d = true := by
  simp only [onGrid.eq_def] at h
  split at h
  · obtain ⟨hlower, hd⟩ := Option.ite_none_right_eq_some.mp h
    exact Option.some.inj hd ▸ hlower
  split at h
  next hlower =>
    split at h
    next hupper =>
      split at h
      · exact Option.some.inj h ▸ hlower
      split at h
      · exact Option.some.inj h ▸ hupper
      cases tie
      · exact Option.some.inj h ▸ hupper
      · rw [← Option.some.inj h]
        split
        · exact hlower
        · exact hupper
    · exact Option.some.inj h ▸ hlower
  · obtain ⟨hupper, hd⟩ := Option.ite_none_right_eq_some.mp h
    exact Option.some.inj hd ▸ hupper

/-- **What is found passes the test**, if the fallback does. -/
theorem reads_search (reads : Decimal → Bool) {fallback : Decimal}
    (hfallback : reads fallback = true) (count : ℕ) (x : ℤ) :
    reads (search tie reads u fallback count x) = true := by
  induction count generalizing x with
  | zero => exact hfallback
  | succ count ih =>
    rw [search]
    cases hgrid : onGrid tie reads u x with
    | none => exact ih _
    | some d => exact reads_of_onGrid hgrid

theorem value_trim (d : Decimal) (count : ℕ) : (d.trim count).value = d.value := by
  induction count generalizing d with
  | zero => rfl
  | succ count ih =>
    rw [trim]
    split
    next h =>
      have hdigits : (d.digits : ℚ) = (d.digits / 10 : ℕ) * 10 := by
        exact_mod_cast (Nat.div_mul_cancel (Nat.dvd_of_mod_eq_zero h.2)).symm
      rw [ih, value, value, zpow_add_one₀ (by norm_num), hdigits]
      ring
    · rfl

/-- **The exact decimal** stands for the number itself. -/
theorem value_exact (m : ℕ) (e : ℤ) : (exact m e).value = m * 2 ^ e := by
  rw [exact]
  split
  next he =>
    obtain ⟨k, rfl⟩ := Int.eq_ofNat_of_zero_le he
    rw [value, Int.toNat_natCast, Nat.shiftLeft_eq, zpow_zero, mul_one, zpow_natCast]
    push_cast
    rfl
  next he =>
    obtain ⟨k, rfl⟩ : ∃ k : ℕ, e = -k := ⟨e.natAbs, by omega⟩
    have hpow : (10 : ℚ) ^ k = 5 ^ k * 2 ^ k := by
      rw [← mul_pow]
      norm_num
    rw [value, neg_neg, Int.toNat_natCast, zpow_neg, zpow_neg, zpow_natCast, zpow_natCast, hpow,
      Nat.cast_mul, Nat.pow_eq, Nat.cast_pow, Nat.cast_ofNat, mul_inv, mul_assoc,
      mul_inv_cancel_left₀ (by positivity)]

theorem digits_exact_pos {m : ℕ} (hm : 0 < m) (e : ℤ) : 0 < (exact m e).digits := by
  refine Nat.pos_of_ne_zero fun hzero => ?_
  have hvalue := value_eq_zero_iff.mpr hzero
  rw [value_exact] at hvalue
  exact (Rounding.mul_zpow_pos hm e).ne' hvalue

/-! ### What is written is read back -/

namespace IsReader

variable {m : ℕ} {e : ℤ} {hm : 0 < m} (hread : IsReader S read)
  (hc : Rounding.IsCanonical S m e)
  (hb : bounded S (.finite .positive m e hm) = .finite .positive m e hm)
include hread hc hb

/-- **The exact decimal of a number is read back as the number.** -/
theorem read_exact : read (exact m e) = .finite .positive m e hm := by
  rw [hread.eq_nearest _ (digits_exact_pos hm e), value_exact, hc.nearest_eq hm, hb]

/-- **The shortest decimal of a number is read back as the number**, if the test says so of what it
passes. -/
theorem read_shortest (hreads : ∀ d, reads d = true ↔ read d = .finite .positive m e hm) :
    read (shortest tie reads m e) = .finite .positive m e hm := by
  have hexact := (hreads _).mpr (hread.read_exact hc hb)
  exact (hread.congr (value_trim _ 1)).trans ((hreads _).mp (reads_search reads hexact 17 _))

/-- It has digits. -/
theorem digits_shortest_ne (hreads : ∀ d, reads d = true ↔ read d = .finite .positive m e hm) :
    (shortest tie reads m e).digits ≠ 0 := by
  intro hzero
  have h : read (shortest tie reads m e) = .finite .positive m e hm :=
    hread.read_shortest hc hb hreads
  rw [hread.eq_zero _ hzero] at h
  cases h

end IsReader

/-- A number in single precision is equal to one that is neither zero nor a NaN if both are the
same. -/
theorem beq_single_iff {v w : Float32} {m : ℕ} {e : ℤ} {hm : 0 < m}
    (hw : w.toModel.unpack = .finite .positive m e hm) :
    (v == w) = true ↔ v.toModel.unpack = .finite .positive m e hm := by
  rw [← hw, Single.unpack_inj]
  constructor
  · intro h
    rcases Float32.beq_iff_ne_nan_and_eq.mp h with ⟨-, -, heq | ⟨-, hzero⟩ | ⟨-, hzero⟩⟩
    · exact heq
    all_goals
      rw [hzero] at hw
      cases hw
  · rintro rfl
    rw [Float32.beq_self_iff]
    rintro rfl
    cases hw

/-- **The digits that are written for a number are read back as its size.** -/
theorem toSingle_ofSingle (tie : Tie) {v : Float32} (hv : v.isFinite = true) :
    (ofSingle tie v).toSingle = v.abs := by
  change v.toModel.unpack.isFinite = true at hv
  have hsize := Single.unpack_abs v
  have hc := Single.canonical v.abs
  have hb := Single.bounded_eq v.abs
  rw [← Single.unpack_inj, ofSingle]
  cases hu : v.toModel.unpack with
  | notANumber | infinity =>
    rw [hu] at hv
    cases hv
  | zero s =>
    rw [hsize, hu]
    exact isReader_toSingle.eq_zero _ rfl
  | finite s m e hm =>
    rw [hu, UnpackedFloat.abs] at hsize
    rw [hsize] at hc hb ⊢
    exact isReader_toSingle.read_shortest hc hb fun d => beq_single_iff hsize

/-- **Only zero is written without digits**, and then in the plainest form. -/
theorem exponent_ofSingle {tie : Tie} {v : Float32} (h : (ofSingle tie v).digits = 0) :
    (ofSingle tie v).exponent = 0 := by
  have hsize := Single.unpack_abs v
  have hc := Single.canonical v.abs
  have hb := Single.bounded_eq v.abs
  rw [ofSingle] at h ⊢
  cases hu : v.toModel.unpack with
  | notANumber | infinity | zero => rfl
  | finite s m e hm =>
    rw [hu, UnpackedFloat.abs] at hsize
    rw [hsize] at hc hb
    rw [hu] at h
    exact absurd h (isReader_toSingle.digits_shortest_ne hc hb fun d => beq_single_iff hsize)

/-- A number in double precision is equal to one that is neither zero nor a NaN if both are the
same. -/
theorem beq_double_iff {v w : Float} {m : ℕ} {e : ℤ} {hm : 0 < m}
    (hw : w.toModel.unpack = .finite .positive m e hm) :
    (v == w) = true ↔ v.toModel.unpack = .finite .positive m e hm := by
  rw [← hw, Double.unpack_inj]
  constructor
  · intro h
    rcases Float.beq_iff_ne_nan_and_eq.mp h with ⟨-, -, heq | ⟨-, hzero⟩ | ⟨-, hzero⟩⟩
    · exact heq
    all_goals
      rw [hzero] at hw
      cases hw
  · rintro rfl
    rw [Float.beq_self_iff]
    rintro rfl
    cases hw

/-- **The digits that are written for a number are read back as its size.** -/
theorem toDouble_ofDouble (tie : Tie) {v : Float} (hv : v.isFinite = true) :
    (ofDouble tie v).toDouble = v.abs := by
  change v.toModel.unpack.isFinite = true at hv
  have hsize := Double.unpack_abs v
  have hc := Double.canonical v.abs
  have hb := Double.bounded_eq v.abs
  rw [← Double.unpack_inj, ofDouble]
  cases hu : v.toModel.unpack with
  | notANumber | infinity =>
    rw [hu] at hv
    cases hv
  | zero s =>
    rw [hsize, hu]
    exact isReader_toDouble.eq_zero _ rfl
  | finite s m e hm =>
    rw [hu, UnpackedFloat.abs] at hsize
    rw [hsize] at hc hb ⊢
    exact isReader_toDouble.read_shortest hc hb fun d => beq_double_iff hsize

/-- **Only zero is written without digits**, and then in the plainest form. -/
theorem exponent_ofDouble {tie : Tie} {v : Float} (h : (ofDouble tie v).digits = 0) :
    (ofDouble tie v).exponent = 0 := by
  have hsize := Double.unpack_abs v
  have hc := Double.canonical v.abs
  have hb := Double.bounded_eq v.abs
  rw [ofDouble] at h ⊢
  cases hu : v.toModel.unpack with
  | notANumber | infinity | zero => rfl
  | finite s m e hm =>
    rw [hu, UnpackedFloat.abs] at hsize
    rw [hsize] at hc hb
    rw [hu] at h
    exact absurd h (isReader_toDouble.digits_shortest_ne hc hb fun d => beq_double_iff hsize)

end Decimal

end Moorland
