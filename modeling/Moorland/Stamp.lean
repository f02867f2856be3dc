import Moorland.Brush
import Moorland.Grid
/-!
# Stamping and capturing

A brush has its top row first and a grid its bottom row first. A pixel `(x, y)` of a patch of
height `h` whose lowest corner is `(x₀, y₀)` lies at the place `(x₀ + x, y₀ + h - 1 - y)` of the
grid; `Moorland.Grid.stamp` and `Moorland.Grid.capture` share this, so that capturing what a stamp
has covered gives the pixels back.
-/

namespace Moorland

/-! ### Stamping -/

/-- **Which pixels a stamp skips.** -/
inductive StampMode
  /-- Transparent pixels. -/
  | alphaOnly
  /-- Transparent and black pixels. -/
  | voidColor
deriving DecidableEq, Repr

namespace StampMode

/-- The mode skips the pixel. -/
def skips : StampMode → Pixel → Bool
  | alphaOnly, p => p.isTransparent
  | voidColor, p => p.isVoid

/-- Every mode skips transparent pixels. -/
theorem skips_of_isTransparent (m : StampMode) {p : Pixel} (hp : p.isTransparent = true) :
    m.skips p = true := by
  cases m with
  | alphaOnly => exact hp
  | voidColor => rw [skips, Pixel.isVoid, hp, Bool.true_or]

/-- The name of a mode in documents. -/
def name : StampMode → String
  | alphaOnly => "alpha_only"
  | voidColor => "void_color"

/-- The name of a mode in descriptions of values. -/
def label : StampMode → String
  | alphaOnly => "AlphaOnly"
  | voidColor => "VoidColor"

/-- The mode with this name. -/
def ofName? (name : String) : Option StampMode :=
  [alphaOnly, voidColor].find? fun m => m.name = name

theorem ofName?_name (m : StampMode) : ofName? m.name = some m := by
  cases m <;> rfl

end StampMode

/-- **What a stamp did** with the pixels of a brush. -/
structure StampReport where
  /-- The pixels that were painted. -/
  written : Nat
  /-- The pixels that fell outside the grid. -/
  clipped : Nat
  /-- The pixels that were skipped. -/
  skipped : Nat
deriving DecidableEq, Repr

namespace Grid

/-- A row of a patch of some height, counted from below, if it is one of its rows. -/
def fromBelow? (height row : Nat) : Option Nat :=
  if row < height then some (height - 1 - row) else none

theorem fromBelow?_eq_some_iff {height row up : Nat} :
    fromBelow? height row = some up ↔ row < height ∧ height - 1 - row = up := by
  rw [fromBelow?, Option.ite_none_right_eq_some, Option.some.injEq]

/-- **Where a pixel lies**, if it lies inside the grid. A place that is no coordinate is outside,
and so is a pixel below the last row of its patch. -/
def destination (g : Grid) (corner : Option (Int × Int)) (height : Nat) (place : Nat × Nat) :
    Option (Nat × Nat) := do
  let (x₀, y₀) ← corner
  let x ← offset x₀ place.1
  let y ← offset y₀ (← fromBelow? height place.2)
  if g.contains x y then some (x.toNat, y.toNat) else none

/-- Paint one pixel and count it. -/
def stampPixel (mode : StampMode) (corner : Option (Int × Int)) (height : Nat)
    (state : Grid × StampReport) (pixel : (Nat × Nat) × Pixel) : Grid × StampReport :=
  let (g, report) := state
  if mode.skips pixel.2 then (g, { report with skipped := report.skipped + 1 })
  else
    match g.destination corner height pixel.1 with
    | some (x, y) => (g.put x y pixel.2.cell, { report with written := report.written + 1 })
    | none => (g, { report with clipped := report.clipped + 1 })

/-- **Paint a brush centred on a point.** Pixels outside the grid are clipped, and every other pixel
that is not skipped replaces the cell under it. -/
def stamp (g : Grid) (b : Brush) (cx cy : Int) (mode : StampMode) :
    Except Refusal (Grid × StampReport) :=
  if b.width = 0 ∨ b.height = 0 then .error (.sizeMismatch (.emptyBrush b.width b.height))
  else
    let corner := centeredCorner cx cy b.width b.height
    .ok (b.placed.foldl (stampPixel mode corner b.height) (g, ⟨0, 0, 0⟩))

/-! ### Capturing -/

/-- The region lies inside the grid: its lowest and its highest corner do. -/
def fits (g : Grid) (r : Region) : Bool :=
  match offset r.x (r.width - 1), offset r.y (r.height - 1) with
  | some x, some y => g.contains r.x r.y && g.contains x y
  | _, _ => false

/-- **Read a region into an opaque brush.** The whole region must lie inside the grid. -/
def capture (g : Grid) (r : Region) : Except Refusal Brush :=
  if r.width = 0 ∨ r.height = 0 then .error (.sizeMismatch (.emptyCapture r.width r.height))
  else if g.fits r then
    let pixel (i : Nat) : Pixel :=
      .opaquely (g.cell (r.x.toNat + i % r.width) (r.y.toNat + (r.height - 1 - i / r.width)))
    .ok ⟨r.width, r.height, Array.ofFn fun i : Fin (r.width * r.height) => pixel i⟩
  else .error (.outOfBounds r g.width g.height)

end Grid

end Moorland
