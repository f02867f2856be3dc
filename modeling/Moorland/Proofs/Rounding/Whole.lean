import Moorland.Proofs.Rounding.Decimal
import Moorland.Proofs.Rounding.Rounded
/-!
# Natural numbers in single precision

A natural number is rounded to nearest (`Moorland.Single.unpack_ofNat`), and kept as it is if it
does not have more digits than single precision has (`Moorland.Single.size_ofNat`).
-/

namespace Moorland

open Rounding (bounded nearest)

namespace Single

variable {n : ℕ}

/-- **A natural number is rounded to nearest** if it is not too large for the format. -/
theorem unpack_ofNat (hn : (n : ℚ) ≤ ceiling) :
    (Float32.ofNat n).toModel.unpack = nearest .binary32 .positive n := by
  rcases Nat.eq_zero_or_pos n with rfl | hpos
  · rw [Nat.cast_zero, Rounding.nearest_zero]
    rfl
  · have hread : (Float32.ofNat n).toModel.unpack =
        bounded .binary32 (nearest .binary32 .positive (Decimal.value ⟨n, 0⟩)) :=
      Decimal.isReader_toSingle.eq_nearest ⟨n, 0⟩ hpos
    rw [hread, Decimal.value, zpow_zero, mul_one]
    exact bounded_nearest .positive (Nat.cast_pos.mpr hpos) hn

/-- **The size of a natural number** is the number, rounded. -/
theorem size_ofNat_eq (hn : (n : ℚ) ≤ ceiling) : Nonneg (.ofNat n) ∧ size (.ofNat n) = rounded n :=
  ⟨nonneg_of_nearest (unpack_ofNat hn), size_of_nearest (unpack_ofNat hn)⟩

/-- A natural number without too many digits is far from the greatest number of the format. -/
theorem natCast_le_ceiling (hn : n < 2 ^ 24) : (n : ℚ) ≤ ceiling :=
  le_ceiling (show 24 ≤ 127 by decide) (by exact_mod_cast hn.le)

theorem rounded_natCast (hn : n < 2 ^ 24) : rounded n = n :=
  rounded_eq (Rounding.isRepresentable_natCast (by decide) hn) (Nat.cast_nonneg n)

/-- **A natural number without too many digits** is exact in single precision. -/
theorem size_ofNat (hn : n < 2 ^ 24) : Nonneg (.ofNat n) ∧ size (.ofNat n) = n := by
  obtain ⟨hnonneg, hsize⟩ := size_ofNat_eq (natCast_le_ceiling hn)
  exact ⟨hnonneg, hsize.trans (rounded_natCast hn)⟩

end Single

end Moorland
