import Moorland.Thresholds
import Moorland.Window
/-!
# Generations

The next generation of a grid is computed cell by cell: the thresholds propose a cell from the
sums over the window, and a rule, if there is one, has the last word. No cell of the new
generation depends on another, so the places may be written in any order;
`Moorland.Grid.writePlaces` takes the order as a list and `Moorland.Grid.advance` writes row by
row.
-/

namespace Moorland

/-- **Everything that a rule may look at** for one cell. -/
structure Site where
  /-- The cell as it is. -/
  cell : Cell
  /-- What the thresholds propose. -/
  proposed : Cell
  /-- The sums over the window. -/
  sums : Cell
  /-- The column. -/
  x : Nat
  /-- The row. -/
  y : Nat
  /-- The same cell one generation earlier, if that is kept. -/
  previous : Option Cell

/-- **A rule** that replaces what the thresholds propose. Its result is clamped when it is stored.
-/
abbrev Rule := Site → Cell

/-- What a generation is computed by: the thresholds, and perhaps a rule. -/
structure Law where
  /-- The thresholds. -/
  thresholds : Thresholds
  /-- The rule that has the last word, if there is one. -/
  rule : Option Rule

namespace Grid

/-- **The next cell at a place**, before it is clamped. -/
def nextCell (read : Grid) (previous : Option Grid) (law : Law) (x y : Nat) : Cell :=
  let sums := read.sums x y
  let proposed := law.thresholds.transition sums
  match law.rule with
  | none => proposed
  | some rule => rule ⟨read.cell x y, proposed, sums, x, y, previous.map fun g => g.cell x y⟩

/-- The size mismatch of the grids of a step, if there is one. The grid that is written is compared
first. -/
def stepMismatch (read : Grid) (previous : Option Grid) (write : Grid) : Option SizeMismatch :=
  if !read.sameSize write then
    some (.write read.width read.height write.width write.height)
  else
    match previous with
    | none => none
    | some p =>
      if read.sameSize p then none
      else some (.previous read.width read.height p.width p.height)

/-- Write the next cells of a list of places. -/
def writePlaces (read : Grid) (previous : Option Grid) (law : Law) (write : Grid)
    (places : List (Nat × Nat)) : Grid :=
  places.foldl (fun g (x, y) => g.put x y (read.nextCell previous law x y)) write

/-- The places of a grid, row by row. -/
def places (g : Grid) : List (Nat × Nat) :=
  (List.range g.height).flatMap fun y => (List.range g.width).map fun x => (x, y)

/-- **The generation after `read`, written over a grid of the same size.** -/
def advance (read : Grid) (previous : Option Grid) (write : Grid) (law : Law) :
    Except Refusal Grid :=
  match stepMismatch read previous write with
  | some cause => .error (.sizeMismatch cause)
  | none => .ok (read.writePlaces previous law write read.places)

/-- **The generation after a grid**, as a new grid. -/
def next (read : Grid) (law : Law) : Except Refusal Grid := do
  read.advance none (← black read.width read.height) law

end Grid

end Moorland
