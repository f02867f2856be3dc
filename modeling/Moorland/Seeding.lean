import Moorland.Grid
import Moorland.Stream
/-!
# Seeding a grid

A grid is seeded with **one draw a cell**, row by row. The draw is scaled by an intensity for each
channel, so the channels of a cell are correlated.
-/

namespace Moorland

/-- **An intensity**: the scale of each channel. -/
structure Intensity where
  /-- The scale of the red channel. -/
  red : Float32
  /-- The scale of the green channel. -/
  green : Float32
  /-- The scale of the blue channel. -/
  blue : Float32
deriving DecidableEq

namespace Intensity

/-- Every channel at full scale. -/
def full : Intensity := ⟨1, 1, 1⟩

/-- The cell that a draw gives at an intensity, before it is clamped. -/
def scale (i : Intensity) (draw : Float32) : Cell := ⟨draw * i.red, draw * i.green, draw * i.blue⟩

end Intensity

namespace Grid

/-- **Seed a grid** from a stream, which is left after as many draws as the grid has cells. -/
def randomize (g : Grid) (intensity : Intensity) (stream : Stream) : Grid × Stream :=
  let (draws, rest) := stream.draws g.cells.size
  ({ g with cells := draws.map fun s => (intensity.scale s).clamped }, rest)

end Grid

end Moorland
