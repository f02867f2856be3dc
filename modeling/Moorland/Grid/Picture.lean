import Moorland.Grid
/-!
# Pictures in characters

A grid is drawn with one character a cell, from a blank for a dark cell to `@` for a bright one, the
highest row first. A grid that is wider than the given number of columns is sampled with a stride,
and twice that stride vertically, since characters are about twice as high as they are wide.
-/

namespace Moorland

/-- The characters of a picture, from dark to bright. -/
def ramp : List Char := [' ', '.', ':', '-', '=', '+', '*', '#', '%', '@']

/-- **A number that is not negative, rounded to nearest**, a half going up. The part after the point
is exact, because the number and its whole part are. -/
def roundHalfUp (v : Float32) : Nat :=
  let whole := v.toUInt64
  if 0.5 ≤ v - whole.toFloat32 then whole.toNat + 1 else whole.toNat

/-- **The character of a cell**: its luminance on the ramp. -/
def Cell.character (c : Cell) : Char :=
  ramp.getD (min (roundHalfUp (unitClamp c.luminance * 9)) 9) '@'

/-- Every `step`-th element of a list, the first included. -/
def every {α : Type} (step : Nat) : List α → List α
  | [] => []
  | a :: rest => a :: every step (rest.drop (step - 1))
termination_by s => s.length
decreasing_by simp only [List.length_drop, List.length_cons]; omega

namespace Grid

/-- The distance between sampled columns of a picture. -/
def stride (g : Grid) (columns : Nat) : Nat :=
  let m := max columns 1
  max ((g.width + m - 1) / m) 1

/-- One line of a picture: the sampled cells of row `y`. -/
def line (g : Grid) (step y : Nat) : String :=
  String.ofList ((every step (g.row y |>.getD #[]).toList).map Cell.character)

/-- The lines of a picture of the rows below `y`, from the highest down. -/
def linesBelow (g : Grid) (step : Nat) (y : Nat) : List String :=
  if y = 0 then [] else g.line step (y - 1) :: linesBelow g step (y - max (2 * step) 1)
termination_by y
decreasing_by omega

/-- The lines of a picture. -/
def lines (g : Grid) (columns : Nat) : List String := g.linesBelow (g.stride columns) g.height

/-- **A picture of at most the given number of columns**, each line ended. -/
def picture (g : Grid) (columns : Nat) : String :=
  String.join ((g.lines columns).map (· ++ "\n"))

end Grid

end Moorland
