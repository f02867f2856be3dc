import Moorland.Cell
import Moorland.Refusal
/-!
# Grids

A **grid** is a field of cells at one instant, stored row by row with the lowest row first. Every
cell is stored in clamped form, and the size of a grid never changes.

`Moorland.Grid.cell` reads a cell without a check and is total; `Moorland.Grid.get` and
`Moorland.Grid.set` check the coordinates first. `Moorland.Grid.filled` and `Moorland.Grid.ofCells`
are the two ways to make a grid.
-/

namespace Moorland

/-- **A grid**: a width, a height, and the cells row by row, the lowest row first. -/
structure Grid where
  /-- The number of columns. -/
  width : Nat
  /-- The number of rows. -/
  height : Nat
  /-- The cells, row by row. -/
  cells : Array Cell
deriving DecidableEq

namespace Grid

/-! ### Making grids -/

/-- A grid with the same cell everywhere, stored in clamped form. -/
def filled (width height : Nat) (c : Cell) : Except Refusal Grid :=
  if width = 0 ∨ height = 0 then .error (.sizeMismatch (.emptyGrid width height))
  else .ok ⟨width, height, Array.replicate (width * height) c.clamped⟩

/-- A grid without population. -/
def black (width height : Nat) : Except Refusal Grid := filled width height .black

/-- **A grid from its cells**, row by row, each stored in clamped form. -/
def ofCells (width height : Nat) (cells : Array Cell) : Except Refusal Grid :=
  if width = 0 ∨ height = 0 ∨ cells.size ≠ width * height then
    .error (.sizeMismatch (.cellCount cells.size width height))
  else .ok ⟨width, height, cells.map Cell.clamped⟩

/-- **The grid without cells** that stands in for a grid while that one is written. -/
def placeholder : Grid := ⟨0, 0, #[]⟩

/-! ### Reading -/

/-- The position of a cell in the row-by-row order. -/
@[inline] def index (g : Grid) (x y : Nat) : Nat := y * g.width + x

/-- Two places within the columns of a grid have the same position only if they are the same. -/
theorem index_inj {g : Grid} {x y u v : Nat} (hx : x < g.width) (hu : u < g.width) :
    g.index x y = g.index u v ↔ x = u ∧ y = v := by
  constructor
  · intro h
    have hd : (y * g.width + x) / g.width = (v * g.width + u) / g.width := congrArg (· / g.width) h
    have hw : 0 < g.width := by omega
    rw [Nat.mul_comm y, Nat.mul_comm v, Nat.mul_add_div hw, Nat.mul_add_div hw,
      Nat.div_eq_of_lt hx, Nat.div_eq_of_lt hu] at hd
    have hy : y = v := by simpa using hd
    subst hy
    exact ⟨Nat.add_left_cancel h, rfl⟩
  · rintro ⟨rfl, rfl⟩
    rfl

/-- The position of a place inside a grid is below the number of cells that its size asks for. -/
theorem index_lt {g : Grid} {x y : Nat} (hx : x < g.width) (hy : y < g.height) :
    g.index x y < g.width * g.height := by
  have h : (y + 1) * g.width ≤ g.height * g.width := Nat.mul_le_mul_right _ hy
  rw [Nat.succ_mul, Nat.mul_comm g.height] at h
  rw [index]
  omega

/-- **The cell at a place**; the black cell where there is none. -/
@[inline] def cell (g : Grid) (x y : Nat) : Cell := g.cells.getD (g.index x y) .black

/-- The place is inside the grid. -/
def inside (g : Grid) (x y : Nat) : Bool := x < g.width && y < g.height

/-- The coordinates are those of a place inside the grid. -/
def contains (g : Grid) (x y : Int) : Bool :=
  0 ≤ x && 0 ≤ y && x.toNat < g.width && y.toNat < g.height

/-- The two grids have the same size. -/
def sameSize (g h : Grid) : Bool := g.width == h.width && g.height == h.height

/-- The two grids are equal in size and, numerically, in every cell. -/
def sameValue (g h : Grid) : Bool :=
  g.sameSize h && g.cells.size == h.cells.size &&
    (g.cells.zip h.cells).all fun (c, d) => c.sameValue d

/-- The refusal of a place outside the grid. -/
def refuse (g : Grid) (x y : Nat) : Refusal :=
  .cellOutOfBounds (wrapCoordinate x) (wrapCoordinate y) g.width g.height

/-- **The cell at a place**, or a refusal. -/
def get (g : Grid) (x y : Nat) : Except Refusal Cell :=
  if g.inside x y then .ok (g.cell x y) else .error (g.refuse x y)

/-- Row `y` from left to right, if the grid has it. -/
def row (g : Grid) (y : Nat) : Option (Array Cell) :=
  if y < g.height then some (g.cells.extract (y * g.width) (y * g.width + g.width)) else none

/-! ### Writing -/

/-- The grid with one cell replaced, stored in clamped form. -/
def put (g : Grid) (x y : Nat) (c : Cell) : Grid :=
  { g with cells := g.cells.setIfInBounds (g.index x y) c.clamped }

@[simp] theorem width_put (g : Grid) (x y : Nat) (c : Cell) :
    (g.put x y c).width = g.width := rfl

@[simp] theorem height_put (g : Grid) (x y : Nat) (c : Cell) :
    (g.put x y c).height = g.height := rfl

@[simp] theorem size_cells_put (g : Grid) (x y : Nat) (c : Cell) :
    (g.put x y c).cells.size = g.cells.size :=
  Array.size_setIfInBounds

/-- **What is put at a place is read there**, in stored form, and every other place reads as
before. -/
theorem cell_put {g : Grid} {x y u v : Nat} (c : Cell) (hx : x < g.width) (hu : u < g.width)
    (h : g.index x y < g.cells.size) :
    (g.put x y c).cell u v = if x = u ∧ y = v then c.clamped else g.cell u v := by
  have hi : (g.put x y c).index u v = g.index u v := rfl
  rw [cell, cell, hi, put]
  simp only [Array.getD_eq_getD_getElem?, Array.getElem?_setIfInBounds, index_inj hx hu]
  split <;> simp_all

/-- **The grid with the cell at a place replaced**, or a refusal. -/
def set (g : Grid) (x y : Nat) (c : Cell) : Except Refusal Grid :=
  if g.inside x y then .ok (g.put x y c) else .error (g.refuse x y)

/-- The grid with the same cell everywhere. -/
def fill (g : Grid) (c : Cell) : Grid :=
  { g with cells := Array.replicate g.cells.size c.clamped }

/-- The grid without its population. -/
def clear (g : Grid) : Grid := g.fill .black

/-- **The grid with the cells of another of the same size.** -/
def copyFrom (g other : Grid) : Except Refusal Grid :=
  if g.sameSize other then .ok { g with cells := other.cells }
  else .error (.sizeMismatch (.copy other.width other.height g.width g.height))

end Grid

end Moorland
