import Moorland.Cell
/-!
# Brushes

A **brush** is a small patch of pixels to paint with. Pixels are stored row by row in the
orientation of images: row zero is the top of the patch, whereas row zero of a grid is its bottom.

A pixel is a cell with an alpha. Alpha zero makes a pixel **transparent**, and a pixel that is
transparent or black is **void**. There is no blending: any other alpha counts as opaque.

Every constructor here gives as many pixels as the size asks for, but a brush is plain data and
another source of brushes may hold any number of them.
-/

namespace Moorland

/-- **A pixel**: a cell, and an alpha that says whether it is painted. -/
structure Pixel where
  /-- What is painted. -/
  cell : Cell
  /-- Zero if the pixel is never painted. -/
  alpha : Float32
deriving DecidableEq

namespace Pixel

/-- The pixel that is never painted. -/
def transparent : Pixel := ⟨.black, 0⟩

instance : Inhabited Pixel := ⟨transparent⟩

/-- The pixel that is always painted. -/
def opaquely (c : Cell) : Pixel := ⟨c, 1⟩

/-- The alpha is zero, of either sign. -/
def isTransparent (p : Pixel) : Bool := p.alpha == 0

/-- Transparent, or black. -/
def isVoid (p : Pixel) : Bool := p.isTransparent || p.cell.isBlack

end Pixel

/-- **A brush**: a width, a height, and the pixels row by row, the top row first. -/
structure Brush where
  /-- The number of columns. -/
  width : Nat
  /-- The number of rows. -/
  height : Nat
  /-- The pixels, row by row. -/
  pixels : Array Pixel
deriving DecidableEq

namespace Brush

/-! ### Making brushes -/

/-- A brush that paints nothing. -/
def blank (width height : Nat) : Brush :=
  ⟨width, height, Array.replicate (width * height) .transparent⟩

/-- A brush from its pixels, if there are as many as the size asks for. -/
def ofPixels? (width height : Nat) (pixels : Array Pixel) : Option Brush :=
  if pixels.size = width * height then some ⟨width, height, pixels⟩ else none

/-- An opaque brush from its cells, if there are as many as the size asks for. -/
def ofCells? (width height : Nat) (cells : Array Cell) : Option Brush :=
  ofPixels? width height (cells.map Pixel.opaquely)

/-- A square brush that paints one cell everywhere. -/
def solid (size : Nat) (c : Cell) : Brush :=
  ⟨size, size, Array.replicate (size * size) (.opaquely c)⟩

/-! ### Pixels and places -/

/-- The brush has no pixels. -/
def isEmpty (b : Brush) : Bool := b.pixels.isEmpty

/-- The place is inside the brush. -/
def inside (b : Brush) (x y : Nat) : Bool := x < b.width && y < b.height

/-- The place of the pixel with number `i` in the row-by-row order. -/
def place (b : Brush) (i : Nat) : Nat × Nat := (i % max b.width 1, i / max b.width 1)

/-- **The pixel at a place**, if it is inside. -/
def get? (b : Brush) (x y : Nat) : Option Pixel :=
  if b.inside x y then b.pixels[y * b.width + x]? else none

/-- **The brush with one pixel replaced**, if its place is inside. -/
def set? (b : Brush) (x y : Nat) (p : Pixel) : Option Brush :=
  if b.inside x y then
    some { b with pixels := b.pixels.setIfInBounds (y * b.width + x) p }
  else none

/-- The pixels with their places, row by row. -/
def placed (b : Brush) : List ((Nat × Nat) × Pixel) :=
  b.pixels.toList.zipIdx.map fun (p, i) => (b.place i, p)

/-! ### Changing brushes -/

/-- **Make void pixels transparent**, so that painting leaves the grid alone there. A brush of
void pixels only is an eraser and is kept as it is. -/
def purgeVoid (b : Brush) : Brush :=
  if b.pixels.all Pixel.isVoid then b
  else { b with pixels := b.pixels.map fun p => if p.isVoid then .transparent else p }

theorem size_pixels_purgeVoid (b : Brush) : b.purgeVoid.pixels.size = b.pixels.size := by
  rw [purgeVoid]
  split <;> simp

/-- **The disc of a round brush**: the place is at most the radius, the width over 2.1, away from
the middle of the brush. -/
def inDisc (width height x y : Nat) : Bool :=
  let dx := Float32.ofNat x - Float32.ofNat width / 2
  let dy := Float32.ofNat y - Float32.ofNat height / 2
  !(Float32.ofNat width / 2.1 < Float32.sqrt (dx * dx + dy * dy))

/-- The place is inside the brush, but outside its disc. -/
def masks (b : Brush) (place : Nat × Nat) : Bool :=
  b.inside place.1 place.2 && !inDisc b.width b.height place.1 place.2

/-- **Make the pixels outside the disc transparent.** Pixels that the size does not ask for have no
place inside, and are kept as they are. -/
def roundMask (b : Brush) : Brush :=
  { b with pixels := b.pixels.mapIdx fun i p => if b.masks (b.place i) then .transparent else p }

theorem size_pixels_roundMask (b : Brush) : b.roundMask.pixels.size = b.pixels.size := by
  simp [roundMask]

/-- **The rows of a list of pixels**, the last row first, before those of `below`. A row has `width`
pixels, at least one, and the last row what is left. -/
def rowsFromLast (width : Nat) (below : List (List Pixel)) : List Pixel → List (List Pixel)
  | [] => below
  | p :: ps => rowsFromLast width ((p :: ps.take (width - 1)) :: below) (ps.drop (width - 1))
termination_by ps => ps.length
decreasing_by simp only [List.length_drop, List.length_cons]; omega

/-- The rows hold the pixels of the list and no others, each row in its order. -/
theorem flatten_reverse_rowsFromLast (width : Nat) (below : List (List Pixel)) (ps : List Pixel) :
    (rowsFromLast width below ps).reverse.flatten = below.reverse.flatten ++ ps := by
  fun_induction rowsFromLast width below ps with
  | case1 => simp
  | case2 below p ps ih => simp [ih]

/-- **The brush upside down**: its rows in the reverse order. -/
def flipped (b : Brush) : Brush :=
  { b with pixels := (rowsFromLast b.width [] b.pixels.toList).flatten.toArray }

theorem size_pixels_flipped (b : Brush) : b.flipped.pixels.size = b.pixels.size := by
  have h := congrArg List.length (flatten_reverse_rowsFromLast b.width [] b.pixels.toList)
  simpa [flipped, List.length_flatten] using h

end Brush

end Moorland
