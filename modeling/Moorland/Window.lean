import Moorland.Grid
/-!
# Windows

The **window** of a place is the Moore neighbourhood clipped to the grid: the cells at most one
column and one row away, the cell itself included. Edges are clipped and not wrapped, so that a
place on the border has fewer than nine neighbours.

`Moorland.Grid.sums` adds up the channels over a window, column after column and in each column
upwards. Single-precision addition depends on that order, and the order is the same everywhere.
-/

namespace Moorland

/-- The least coordinate of a window along one axis. -/
def windowLow (c : Nat) : Nat := c - 1

/-- The number of coordinates of a window along an axis of the given length. -/
def windowCount (c length : Nat) : Nat := min (c + 1) (length - 1) + 1 - windowLow c

/-- **The coordinates of a window along one axis**, upwards. -/
def windowRange (c length : Nat) : List Nat := List.range' (windowLow c) (windowCount c length)

/-- The window along an axis holds the coordinates on the axis that are at most one away. -/
theorem mem_windowRange {i c length : Nat} (h : c < length) :
    i ∈ windowRange c length ↔ i < length ∧ c ≤ i + 1 ∧ i ≤ c + 1 := by
  rw [windowRange, List.mem_range'_1, windowCount, windowLow]
  omega

/-- A window has a coordinate at least. -/
theorem windowCount_pos {c length : Nat} (h : c < length) : 0 < windowCount c length := by
  rw [windowCount, windowLow]
  omega

/-- A window has three coordinates at most. -/
theorem windowCount_le (c length : Nat) : windowCount c length ≤ 3 := by
  rw [windowCount, windowLow]
  omega

namespace Grid

/-- **The sums over the window of a place**, each channel by itself, in the fixed order. -/
def sums (g : Grid) (x y : Nat) : Cell :=
  (windowRange x g.width).foldl
    (fun acc i => (windowRange y g.height).foldl (fun acc j => acc + g.cell i j) acc) .black

/-- The number of cells in the window of a place. -/
def windowSize (g : Grid) (x y : Nat) : Nat := windowCount x g.width * windowCount y g.height

end Grid

end Moorland
