import Moorland.Brush
import Moorland.Configuration
import Moorland.Document
/-!
# Values as documents

Each kind of value has a document that it is written as, a table of its fields in order, and is
read back from any document that stands for it. Fields are looked up by name and other names are
ignored; a list may stand for a record, its elements for the fields in order.

The formats differ in two points, which a `Moorland.Dialect` holds: whether a list may be longer
than the record that it stands for, and how the choice of a name is written when not as a text.

A field may be required or have a default. Of the records here only those of a configuration have
defaults; the seed and the preset may also be absent by being null.
-/

namespace Moorland

/-! ### Reading records -/

/-- **What a format decides** about records and names. -/
structure Dialect where
  /-- A list may have more elements than the record that it stands for has fields. -/
  looseLists : Bool
  /-- A table with one entry stands for the name of that entry if its value is one of these. -/
  isEmptyPayload : Document → Bool

namespace Dialect

/-- The value is null. -/
def isNull : Document → Bool
  | .null => true
  | _ => false

/-- The value is a table or a list with nothing in it. -/
def isEmpty : Document → Bool
  | .table [] => true
  | .list [] => true
  | _ => false

/-- Lists have no more elements than there are fields, and a name may have null for its value. -/
def json : Dialect := ⟨false, isNull⟩

/-- Lists may have too many elements, and a name may have an empty table or list for its value. -/
def toml : Dialect := ⟨true, isEmpty⟩

end Dialect

namespace Document

/-- **The fields of a record**, given their names in order. A moment is a record without fields of
any of these names. -/
def fields? (dialect : Dialect) (names : List String) :
    Document → Option (List (String × Document))
  | .table entries => some entries
  | .moment => some []
  | .list ds =>
    if dialect.looseLists ∨ ds.length ≤ names.length then some (names.zip ds) else none
  | _ => none

/-- **The value of a required field.** -/
def required {α : Type} (read : Document → Option α) (name : String)
    (entries : List (String × Document)) : Option α :=
  (find? name entries).bind read

/-- **The value of a field with a default.** -/
def withDefault {α : Type} (default : α) (read : Document → Option α) (name : String)
    (entries : List (String × Document)) : Option α :=
  match find? name entries with
  | none => some default
  | some d => read d

/-! ### Reading scalars -/

/-- A number in single precision. -/
def single? : Document → Option Float32
  | .integer n => some (Float32.ofInt n)
  | .number v => some (narrow v)
  | _ => none

/-- A natural number of 64 bits. -/
def word? : Document → Option UInt64
  | .integer n => if 0 ≤ n ∧ n < UInt64.size then some (.ofNat n.toNat) else none
  | _ => none

/-- A size. -/
def size? (d : Document) : Option Nat := d.word?.map UInt64.toNat

/-- A value that may be null. -/
def optional? {α : Type} (read : Document → Option α) : Document → Option (Option α)
  | .null => some none
  | d => (read d).map some

/-- **One of several names**, as a text or as the only entry of a table. -/
def choice? {α : Type} (dialect : Dialect) (ofName? : String → Option α) : Document → Option α
  | .text s => ofName? s
  | .table [(s, d)] => if dialect.isEmptyPayload d then ofName? s else none
  | _ => none

/-- The elements of a list, all of one kind. -/
def elements? {α : Type} (read : Document → Option α) : Document → Option (List α)
  | .list ds => ds.mapM read
  | _ => none

/-- The document of a number in single precision. -/
def ofSingle (v : Float32) : Document := .number (widen v)

/-- The document of a size. -/
def ofSize (n : Nat) : Document := .integer n

/-- The document of a value that may be absent. -/
def ofOption {α : Type} (write : α → Document) : Option α → Document
  | none => .null
  | some a => write a

end Document

open Document

/-! ### Cells and pixels -/

/-- Three numbers, given the names of their fields. -/
def readTriple? {α : Type} (make : Float32 → Float32 → Float32 → α) (a b c : String)
    (dialect : Dialect) (d : Document) : Option α := do
  let es ← d.fields? dialect [a, b, c]
  return make (← required single? a es) (← required single? b es) (← required single? c es)

/-- **The cell that a document stands for.** It is not clamped. -/
def Cell.read? : Dialect → Document → Option Cell := readTriple? Cell.mk "r" "g" "b"

/-- The document of a cell. -/
def Cell.toDocument (c : Cell) : Document :=
  .table [("r", ofSingle c.red), ("g", ofSingle c.green), ("b", ofSingle c.blue)]

/-- **The pixel that a document stands for.** -/
def Pixel.read? (dialect : Dialect) (d : Document) : Option Pixel := do
  let es ← d.fields? dialect ["cell", "alpha"]
  return ⟨← required (Cell.read? dialect) "cell" es, ← required single? "alpha" es⟩

/-- The document of a pixel. -/
def Pixel.toDocument (p : Pixel) : Document :=
  .table [("cell", p.cell.toDocument), ("alpha", ofSingle p.alpha)]

/-! ### Brushes and grids -/

/-- **The brush that a document stands for.** The number of its pixels is not checked. -/
def Brush.read? (dialect : Dialect) (d : Document) : Option Brush := do
  let es ← d.fields? dialect ["width", "height", "pixels"]
  return ⟨← required size? "width" es, ← required size? "height" es,
    (← required (elements? (Pixel.read? dialect)) "pixels" es).toArray⟩

/-- The document of a brush. -/
def Brush.toDocument (b : Brush) : Document :=
  .table [("width", ofSize b.width), ("height", ofSize b.height),
    ("pixels", .list (b.pixels.toList.map Pixel.toDocument))]

/-- **Why a document does not give a value.** -/
inductive DocumentFault
  /-- It does not stand for a value of this kind. -/
  | malformed
  /-- It does, but the value is refused. -/
  | refused (refusal : Refusal)
deriving DecidableEq

/-- The value of a record whose own check comes last. -/
def checked {α : Type} : Option (Except Refusal α) → Except DocumentFault α
  | none => .error .malformed
  | some (.error refusal) => .error (.refused refusal)
  | some (.ok a) => .ok a

/-- Only what was read and passed its check is a value. -/
theorem checked_eq_ok_iff {α : Type} {a : α} {o : Option (Except Refusal α)} :
    checked o = .ok a ↔ o = some (.ok a) := by
  rcases o with _ | _ | _ <;> simp [checked]

/-- **The grid that a document stands for**, made from its cells. -/
def Grid.read (dialect : Dialect) (d : Document) : Except DocumentFault Grid :=
  checked do
    let es ← d.fields? dialect ["width", "height", "cells"]
    let width ← required size? "width" es
    let height ← required size? "height" es
    let cells ← required (elements? (Cell.read? dialect)) "cells" es
    return Grid.ofCells width height cells.toArray

/-- The document of a grid. -/
def Grid.toDocument (g : Grid) : Document :=
  .table [("width", ofSize g.width), ("height", ofSize g.height),
    ("cells", .list (g.cells.toList.map Cell.toDocument))]

/-! ### Thresholds and names -/

/-- **The thresholds that a document stands for**, if they pass the check. -/
def Thresholds.read (dialect : Dialect) (d : Document) : Except DocumentFault Thresholds :=
  checked do
    let es ← d.fields? dialect ["under", "over"]
    return Thresholds.check (← required single? "under" es) (← required single? "over" es)

/-- The document of a pair of thresholds. -/
def Thresholds.toDocument (t : Thresholds) : Document :=
  .table [("under", ofSingle t.lower), ("over", ofSingle t.upper)]

/-- The preset that a document names. -/
def Preset.read? (dialect : Dialect) : Document → Option Preset :=
  choice? dialect Preset.ofName?

/-- The document of a preset. -/
def Preset.toDocument (p : Preset) : Document := .text p.name

/-- The buffer mode that a document names. -/
def BufferMode.read? (dialect : Dialect) : Document → Option BufferMode :=
  choice? dialect BufferMode.ofName?

/-- The document of a buffer mode. -/
def BufferMode.toDocument (m : BufferMode) : Document := .text m.name

/-- The stamp mode that a document names. -/
def StampMode.read? (dialect : Dialect) : Document → Option StampMode :=
  choice? dialect StampMode.ofName?

/-- The document of a stamp mode. -/
def StampMode.toDocument (m : StampMode) : Document := .text m.name

/-! ### Configurations -/

/-- **The intensity that a document stands for.** -/
def Intensity.read? : Dialect → Document → Option Intensity :=
  readTriple? Intensity.mk "red" "green" "blue"

/-- The document of an intensity. -/
def Intensity.toDocument (i : Intensity) : Document :=
  .table [("red", ofSingle i.red), ("green", ofSingle i.green), ("blue", ofSingle i.blue)]

/-- The grid section that a document stands for. -/
def GridSection.read? (dialect : Dialect) (d : Document) : Option GridSection := do
  let es ← d.fields? dialect ["width", "height", "buffering", "stamp_mode"]
  let base := GridSection.standard
  return ⟨← withDefault base.width size? "width" es, ← withDefault base.height size? "height" es,
    ← withDefault base.buffering (BufferMode.read? dialect) "buffering" es,
    ← withDefault base.stampMode (StampMode.read? dialect) "stamp_mode" es⟩

/-- The document of a grid section. -/
def GridSection.toDocument (g : GridSection) : Document :=
  .table [("width", ofSize g.width), ("height", ofSize g.height),
    ("buffering", g.buffering.toDocument), ("stamp_mode", g.stampMode.toDocument)]

/-- The section of thresholds that a document stands for. -/
def ThresholdSection.read? (dialect : Dialect) (d : Document) : Option ThresholdSection := do
  let es ← d.fields? dialect ["under", "over", "preset"]
  let base := ThresholdSection.standard
  return ⟨← withDefault base.lower single? "under" es, ← withDefault base.upper single? "over" es,
    ← withDefault base.preset (optional? (Preset.read? dialect)) "preset" es⟩

/-- The document of a section of thresholds. -/
def ThresholdSection.toDocument (t : ThresholdSection) : Document :=
  .table [("under", ofSingle t.lower), ("over", ofSingle t.upper),
    ("preset", ofOption Preset.toDocument t.preset)]

/-- **The configuration that a document stands for**: the default one with the values that the
document gives. It is not checked for faults. -/
def Configuration.read? (dialect : Dialect) (d : Document) : Option Configuration := do
  let es ← d.fields? dialect ["grid", "thresholds", "init", "seed", "log_interval"]
  let base := Configuration.standard
  return ⟨← withDefault base.grid (GridSection.read? dialect) "grid" es,
    ← withDefault base.thresholds (ThresholdSection.read? dialect) "thresholds" es,
    ← withDefault base.init (Intensity.read? dialect) "init" es,
    ← withDefault base.seed (optional? word?) "seed" es,
    ← withDefault base.logInterval word? "log_interval" es⟩

/-- The document of a configuration. -/
def Configuration.toDocument (c : Configuration) : Document :=
  .table [("grid", c.grid.toDocument), ("thresholds", c.thresholds.toDocument),
    ("init", c.init.toDocument),
    ("seed", ofOption (fun n : UInt64 => .integer n.toNat) c.seed),
    ("log_interval", .integer c.logInterval.toNat)]

end Moorland
