/-!
# Coordinates and regions

A coordinate is an integer that fits in **64 bits with a sign** (`Moorland.IsCoordinate`).
Arithmetic on coordinates is that of the integers, and a result that does not fit is refused
rather than wrapped: `Moorland.coordinate` is the check, and every function here that may leave
the range answers with an option.

A **region** is a rectangle given by its lowest corner and its size. `Moorland.centeredCorner`
gives the lowest corner of a patch that is centred on a point, which is how both stamping and
capturing place a patch: half of the width, rounded down, lies to the left of the centre, and half
of the height below it.
-/

namespace Moorland

/-- **The integer is a coordinate.** -/
def IsCoordinate (i : Int) : Prop := Int64.minValue.toInt ≤ i ∧ i ≤ Int64.maxValue.toInt

instance (i : Int) : Decidable (IsCoordinate i) :=
  inferInstanceAs (Decidable (Int64.minValue.toInt ≤ i ∧ i ≤ Int64.maxValue.toInt))

/-- The range of coordinates, in digits. -/
theorem isCoordinate_iff {i : Int} :
    IsCoordinate i ↔ -9223372036854775808 ≤ i ∧ i ≤ 9223372036854775807 := Iff.rfl

/-- **A coordinate in range**, or nothing. -/
def coordinate (i : Int) : Option Int := if IsCoordinate i then some i else none

/-- Only coordinates pass the check, and they are not changed by it. -/
theorem coordinate_eq_some_iff {i j : Int} : coordinate i = some j ↔ IsCoordinate i ∧ i = j := by
  simp [coordinate]

/-- A size read as a coordinate, by wrapping around at the end of the range. -/
def wrapCoordinate (n : Nat) : Int := Int.bmod n UInt64.size

/-- `base + delta`, if both the summand and the sum are in range. -/
def offset (base : Int) (delta : Nat) : Option Int := do
  coordinate (base + (← coordinate delta))

/-- An offset is a sum of integers, as long as nothing leaves the range. -/
theorem offset_eq_some_iff {base j : Int} {delta : Nat} :
    offset base delta = some j ↔
      IsCoordinate delta ∧ IsCoordinate (base + delta) ∧ base + delta = j := by
  simp [offset, coordinate_eq_some_iff, Option.bind_eq_some_iff, and_assoc]

/-- **The lowest corner of a patch centred on a point**, if it is in range. -/
def centeredCorner (cx cy : Int) (width height : Nat) : Option (Int × Int) := do
  let halfWidth ← coordinate (width / 2 : Nat)
  let halfHeight ← coordinate (height / 2 : Nat)
  return (← coordinate (cx - halfWidth), ← coordinate (cy - halfHeight))

/-- **A region**: a rectangle with its lowest corner and its size. -/
structure Region where
  /-- The least horizontal coordinate. -/
  x : Int
  /-- The least vertical coordinate. -/
  y : Int
  /-- The number of columns. -/
  width : Nat
  /-- The number of rows. -/
  height : Nat
deriving DecidableEq, Repr

end Moorland
