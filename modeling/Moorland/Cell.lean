/-!
# Cells

A **cell** is one point of a field: three independent population channels in single precision.
A stored cell has every channel between zero and one, and `Moorland.Cell.clamped` is what puts it
there; sums over a neighbourhood and cells on their way to a field may lie anywhere.

A `Moorland.Channel` names one of the three channels, so that a rule which treats them alike can be
stated once: `Moorland.Cell.ofChannels` builds a cell from its channels and
`Moorland.Cell.channel` reads one back.
-/

namespace Moorland

/-! ### One channel -/

/-- **The unit clamp**: a number below zero becomes zero and a number above one becomes one.
Everything else is kept, a zero with its sign and a NaN included. -/
@[inline] def unitClamp (v : Float32) : Float32 :=
  if v < 0 then 0 else if 1 < v then 1 else v

/-- **A stored level**: the unit clamp, with zero in place of a NaN. -/
@[inline] def storedLevel (v : Float32) : Float32 :=
  if v.isNaN then 0 else unitClamp v

/-- One of the three population channels. -/
inductive Channel
  /-- The first channel. -/
  | red
  /-- The second channel. -/
  | green
  /-- The third channel. -/
  | blue
deriving DecidableEq, Repr

/-! ### Cells -/

/-- **A cell**: one single-precision level for each channel. -/
structure Cell where
  /-- The level of the red channel. -/
  red : Float32
  /-- The level of the green channel. -/
  green : Float32
  /-- The level of the blue channel. -/
  blue : Float32
deriving DecidableEq

namespace Cell

/-- The same level on every channel. -/
def splat (v : Float32) : Cell := ⟨v, v, v⟩

/-- The cell without population. -/
def black : Cell := splat 0

/-- The cell that is full on every channel. -/
def white : Cell := splat 1

instance : Inhabited Cell := ⟨black⟩

/-- The level of one channel. -/
def channel (c : Cell) : Channel → Float32
  | .red => c.red
  | .green => c.green
  | .blue => c.blue

/-- The cell with the given levels. -/
def ofChannels (f : Channel → Float32) : Cell := ⟨f .red, f .green, f .blue⟩

/-- Apply a function to every channel. -/
@[inline] def map (f : Float32 → Float32) (c : Cell) : Cell := ⟨f c.red, f c.green, f c.blue⟩

/-- **Channelwise sum**, which is how neighbours are added up. -/
@[inline] protected def add (c d : Cell) : Cell :=
  ⟨c.red + d.red, c.green + d.green, c.blue + d.blue⟩

instance : Add Cell := ⟨Cell.add⟩

/-- **The form in which a cell is stored**: every channel between zero and one. -/
@[inline] def clamped (c : Cell) : Cell := c.map storedLevel

/-- Every channel is zero, of either sign. -/
def isBlack (c : Cell) : Bool := c.red == 0 && c.green == 0 && c.blue == 0

/-- Some channel carries population. -/
def isAlive (c : Cell) : Bool := 0 < c.red || 0 < c.green || 0 < c.blue

/-- **Luminance**, the weighted mean of the channels that pictures are drawn from. -/
def luminance (c : Cell) : Float32 := 0.299 * c.red + 0.587 * c.green + 0.114 * c.blue

/-- The two cells are numerically equal on every channel: zeros of either sign are equal, and a
NaN equals nothing. -/
def sameValue (c d : Cell) : Bool := c.red == d.red && c.green == d.green && c.blue == d.blue

@[simp] theorem channel_ofChannels (f : Channel → Float32) (i : Channel) :
    (ofChannels f).channel i = f i := by
  cases i <;> rfl

@[simp] theorem ofChannels_channel (c : Cell) : ofChannels c.channel = c := rfl

@[ext] theorem ext_channel {c d : Cell} (h : ∀ i, c.channel i = d.channel i) : c = d := by
  rw [← ofChannels_channel c, ← ofChannels_channel d, funext h]

@[simp] theorem channel_map (f : Float32 → Float32) (c : Cell) (i : Channel) :
    (c.map f).channel i = f (c.channel i) := by
  cases i <;> rfl

@[simp] theorem channel_black (i : Channel) : black.channel i = 0 := by
  cases i <;> rfl

@[simp] theorem channel_add (c d : Cell) (i : Channel) :
    (c + d).channel i = c.channel i + d.channel i := by
  cases i <;> rfl

@[simp] theorem channel_clamped (c : Cell) (i : Channel) :
    c.clamped.channel i = storedLevel (c.channel i) := channel_map _ c i

end Cell

end Moorland
