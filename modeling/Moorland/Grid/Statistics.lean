import Moorland.Grid
import Moorland.Precision
/-!
# Statistics of a grid

The mean of a channel is summed and divided in double precision, cell by cell in the order of
storage, and then rounded to single precision. The maximum starts from zero, so that it is zero
where no cell carries population.
-/

namespace Moorland

/-- **What is known of a grid as a whole.** -/
structure Statistics where
  /-- The mean level of each channel. -/
  mean : Cell
  /-- The greatest level of each channel. -/
  max : Cell
  /-- The number of cells with population. -/
  live : Nat
  /-- The number of cells. -/
  total : Nat
deriving DecidableEq

namespace Grid

/-- The sum of a channel in double precision. -/
def total (g : Grid) (i : Channel) : Float :=
  g.cells.foldl (fun sum c => sum + widen (c.channel i)) 0

/-- The mean of a channel. -/
def mean (g : Grid) (i : Channel) : Float32 :=
  narrow (g.total i / Float.ofNat (max g.cells.size 1))

/-- The greatest level of a channel. -/
def greatest (g : Grid) (i : Channel) : Float32 :=
  g.cells.foldl (fun top c => if top < c.channel i then c.channel i else top) 0

/-- The number of cells with population. -/
def liveCells (g : Grid) : Nat := g.cells.countP Cell.isAlive

/-- **The statistics of a grid.** -/
def statistics (g : Grid) : Statistics where
  mean := .ofChannels g.mean
  max := .ofChannels g.greatest
  live := g.liveCells
  total := g.cells.size

end Grid

end Moorland
