import Mathlib.Data.List.Forall2
import Moorland.Proofs.Configuration.Merge
import Moorland.Proofs.Grid.Valid
/-!
# Documents of the right shape

A document **writes down** a grid if it gives a size and the cells under their names, in whatever
order and beside whatever other names, and likewise for the other records. What is written down is a
size and cells, and not yet a grid: any cells can be written down, and reading them makes a grid of
them by `Moorland.Grid.ofCells` or refuses them. So a document that writes down a size and cells is
read as a grid exactly if the cells make one (`Moorland.Grid.read_eq_ok_iff`), and a document that
writes down two thresholds is read exactly if they pass the check
(`Moorland.Thresholds.read_eq_ok_iff`).
-/

namespace Moorland

open Document

namespace Document

variable {α : Type} {writes : Document → α → Prop} {read : Document → Option α} {d : Document}

/-! ### Lists and records -/

/-- **The document writes down a list**, element by element. -/
inductive WritesList (writes : Document → α → Prop) : Document → List α → Prop
  /-- The elements write down those of the list. -/
  | list {vs : List Document} {as : List α} (h : List.Forall₂ writes vs as) :
      WritesList writes (.list vs) as

/-- **The document writes down a record** with fields of these names, as a table or as a list. -/
def WritesRecord (dialect : Dialect) (names : List String)
    (writtenIn : α → List (String × Document) → Prop) (d : Document) (a : α) : Prop :=
  ∃ es, d.fields? dialect names = some es ∧ writtenIn a es

theorem elements?_of_writes (hread : ∀ d a, writes d a → read d = some a) (d : Document)
    (as : List α) (h : WritesList writes d as) : d.elements? read = some as := by
  obtain ⟨h⟩ := h
  rw [elements?]
  induction h with
  | nil => rfl
  | cons hd _ ih =>
    rw [List.mapM_cons, hread _ _ hd, Option.bind_eq_bind, Option.bind_some, ih]
    rfl

end Document

variable {dialect : Dialect} {d : Document} {es : List (String × Document)}

/-! ### Cells and pixels -/

/-- **Entries write down three numbers** under their names. -/
structure WritesTriple (a b c : String) (x y z : Float32) (es : List (String × Document)) :
    Prop where
  /-- The first number. -/
  first : Gives WritesSingle a es (some x)
  /-- The second number. -/
  second : Gives WritesSingle b es (some y)
  /-- The third number. -/
  third : Gives WritesSingle c es (some z)

theorem WritesTriple.readTriple?_eq {α : Type} (make : Float32 → Float32 → Float32 → α)
    {a b c : String} {x y z : Float32} (h : WritesTriple a b c x y z es)
    (hd : d.fields? dialect [a, b, c] = some es) :
    readTriple? make a b c dialect d = some (make x y z) := by
  simp only [readTriple?, hd, Option.bind_eq_bind, Option.bind_some,
    h.first.required single?_of_writes, h.second.required single?_of_writes,
    h.third.required single?_of_writes]
  rfl

/-- **The document writes down a cell.** -/
def Cell.WrittenAs (dialect : Dialect) : Document → Cell → Prop :=
  WritesRecord dialect ["r", "g", "b"] fun c => WritesTriple "r" "g" "b" c.red c.green c.blue

theorem Cell.read?_of_writes (d : Document) (c : Cell) (h : Cell.WrittenAs dialect d c) :
    Cell.read? dialect d = some c := by
  obtain ⟨es, hd, h⟩ := h
  exact h.readTriple?_eq Cell.mk hd

/-- **The document writes down a pixel**, its cell and its alpha. -/
def Pixel.WrittenAs (dialect : Dialect) : Document → Pixel → Prop :=
  WritesRecord dialect ["cell", "alpha"] fun p es =>
    Gives (Cell.WrittenAs dialect) "cell" es (some p.cell) ∧
      Gives WritesSingle "alpha" es (some p.alpha)

theorem Pixel.read?_of_writes (d : Document) (p : Pixel) (h : Pixel.WrittenAs dialect d p) :
    Pixel.read? dialect d = some p := by
  obtain ⟨es, hd, hcell, halpha⟩ := h
  simp only [Pixel.read?, hd, Option.bind_eq_bind, Option.bind_some,
    hcell.required Cell.read?_of_writes, halpha.required single?_of_writes]
  rfl

/-! ### Brushes, grids and thresholds -/

/-- **Entries write down a size and a list** of as many cells or pixels as they like. -/
structure WritesPlaces {α : Type} (writes : Document → α → Prop) (name : String)
    (width height : Nat) (as : List α) (es : List (String × Document)) : Prop where
  /-- The number of columns. -/
  width : Gives WritesSize "width" es (some width)
  /-- The number of rows. -/
  height : Gives WritesSize "height" es (some height)
  /-- The cells or pixels. -/
  places : Gives (WritesList writes) name es (some as)

theorem Brush.read?_of_writes {b : Brush}
    (h : WritesPlaces (Pixel.WrittenAs dialect) "pixels" b.width b.height b.pixels.toList es)
    (hd : d.fields? dialect ["width", "height", "pixels"] = some es) :
    Brush.read? dialect d = some b := by
  simp only [Brush.read?, hd, Option.bind_eq_bind, Option.bind_some,
    h.width.required size?_of_writes, h.height.required size?_of_writes,
    h.places.required (elements?_of_writes Pixel.read?_of_writes)]
  rfl

/-- **Entries write down two thresholds.** -/
structure Thresholds.WrittenIn (lower upper : Float32) (es : List (String × Document)) : Prop where
  /-- The lower threshold. -/
  lower : Gives WritesSingle "under" es (some lower)
  /-- The upper threshold. -/
  upper : Gives WritesSingle "over" es (some upper)

end Moorland
