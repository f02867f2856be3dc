import Moorland.Generation
/-!
# Rings of grids

A **ring** keeps the grids of a simulation in slots and reads from the current one. A step writes
the next generation into the slot after it, which then becomes current. Two slots alternate; with
three of them the generation before the current one stays readable until the step after the next.

`Moorland.Ring.currentGrid` and `Moorland.Ring.previousGrid` are what can be seen of a ring.
-/

namespace Moorland

/-- **How many generations a ring keeps.** -/
inductive BufferMode
  /-- The current generation only. -/
  | double
  /-- The current generation and the one before it. -/
  | lookback
deriving DecidableEq, Repr

namespace BufferMode

/-- The number of slots. -/
def slots : BufferMode → Nat
  | double => 2
  | lookback => 3

/-- The name of a mode in documents. -/
def name : BufferMode → String
  | double => "double"
  | lookback => "lookback"

/-- The name of a mode in descriptions of values. -/
def label : BufferMode → String
  | double => "Double"
  | lookback => "Lookback"

/-- The mode with this name. -/
def ofName? (name : String) : Option BufferMode := [double, lookback].find? fun m => m.name = name

theorem ofName?_name (m : BufferMode) : ofName? m.name = some m := by
  cases m <;> rfl

end BufferMode

/-- **A ring of grids.** -/
structure Ring where
  /-- How many generations are kept. -/
  mode : BufferMode
  /-- The grids. -/
  slots : Array Grid
  /-- The number of the current slot. -/
  current : Nat
deriving DecidableEq

namespace Ring

/-! ### Making rings -/

/-- A ring of grids without population. -/
def black (width height : Nat) (mode : BufferMode) : Except Refusal Ring := do
  return ⟨mode, Array.replicate mode.slots (← Grid.black width height), 0⟩

/-- **A ring of given grids**, of one size, of which the first is current. -/
def ofGrids (grids : List Grid) : Except Refusal Ring :=
  let make (mode : BufferMode) (first : Grid) : Except Refusal Ring :=
    match grids.find? fun g => !g.sameSize first with
    | some g => .error (.sizeMismatch (.slot g.width g.height first.width first.height))
    | none => .ok ⟨mode, grids.toArray, 0⟩
  match grids with
  | [first, _] => make .double first
  | [first, _, _] => make .lookback first
  | _ => .error (.sizeMismatch (.slotCount grids.length))

/-! ### Slots -/

/-- The grid in a slot; the grid without cells where there is no slot. -/
def slot (r : Ring) (i : Nat) : Grid := r.slots.getD i .placeholder

/-- The number of the slot after the current one. -/
def nextIndex (r : Ring) : Nat := (r.current + 1) % r.slots.size

/-- The number of the slot before the current one. -/
def previousIndex (r : Ring) : Nat := (r.current + r.slots.size - 1) % r.slots.size

/-- **The current generation.** -/
def currentGrid (r : Ring) : Grid := r.slot r.current

/-- **The generation before the current one**, if the ring keeps it. -/
def previousGrid (r : Ring) : Option Grid :=
  match r.mode with
  | .double => none
  | .lookback => some (r.slot r.previousIndex)

/-- The width of the first slot. -/
def width (r : Ring) : Nat := (r.slot 0).width

/-- The height of the first slot. -/
def height (r : Ring) : Nat := (r.slot 0).height

/-! ### Changing rings -/

/-- Put a grid into a slot. -/
def withSlot (r : Ring) (i : Nat) (g : Grid) : Ring :=
  { r with slots := r.slots.setIfInBounds i g }

/-- Replace the current grid, by one of any size. -/
def replaceCurrent (r : Ring) (g : Grid) : Ring := r.withSlot r.current g

theorem currentGrid_replaceCurrent {r : Ring} (h : r.current < r.slots.size) (g : Grid) :
    (r.replaceCurrent g).currentGrid = g := by
  simp [replaceCurrent, withSlot, currentGrid, slot, h]

/-- **Write the next generation into the next slot and make that current.** The grid of the slot is
taken out while it is written, and the placeholder stands in for it. A refused grid is put back as
it was, and the current slot stays the same. -/
def turn (r : Ring) (law : Law) : Ring × Option Refusal :=
  let next := r.nextIndex
  let target := r.slot next
  let lent := r.withSlot next .placeholder
  match lent.currentGrid.advance lent.previousGrid target law with
  | .ok written => ({ lent.withSlot next written with current := next }, none)
  | .error refusal => (lent.withSlot next target, some refusal)

/-- **The ring after a step**, or why there is none. -/
def step (r : Ring) (law : Law) : Except Refusal Ring :=
  match r.turn law with
  | (r, none) => .ok r
  | (_, some refusal) => .error refusal

/-- **Fill the first slot anew, copy it into the others and make it current.** -/
def reseed (r : Ring) (fill : Grid → Grid) : Ring :=
  { r with slots := Array.replicate r.slots.size (fill (r.slot 0)), current := 0 }

theorem currentGrid_reseed {r : Ring} (h : 0 < r.slots.size) (fill : Grid → Grid) :
    (r.reseed fill).currentGrid = fill (r.slot 0) := by
  simp [reseed, currentGrid, slot, h]

/-- Copy a grid over the slots from number `i` on, of which `count` are left, up to the first that
refuses it. -/
def copyInto (g : Grid) (slots : Array Grid) (i : Nat) :
    (count : Nat) → Array Grid × Option Refusal
  | 0 => (slots, none)
  | count + 1 =>
    match (slots.getD i .placeholder).copyFrom g with
    | .ok written => copyInto g (slots.setIfInBounds i written) (i + 1) count
    | .error refusal => (slots, some refusal)

/-- **Copy a grid over every slot and make the first current.** The slots are taken in order; if one
refuses the grid, those before it stay overwritten and the current slot stays the same. -/
def resetTo (r : Ring) (g : Grid) : Ring × Option Refusal :=
  match copyInto g r.slots 0 r.slots.size with
  | (slots, none) => ({ r with slots, current := 0 }, none)
  | (slots, some refusal) => ({ r with slots }, some refusal)

end Ring

end Moorland
