/-!
# Documents

A **document** is the tree of values that a configuration file or a stored value is written as,
whatever the format: scalars, lists, and tables of named values in order. A table has each name
once.

Integers are exact and other numbers are in double precision. A moment in time can be written in one
of the formats; nothing here is a moment, so that only its presence is kept.
-/

namespace Moorland

/-- **A document.** -/
inductive Document
  /-- The absence of a value. -/
  | null
  /-- A yes or no. -/
  | flag (b : Bool)
  /-- An integer. -/
  | integer (n : Int)
  /-- A number in double precision. -/
  | number (v : Float)
  /-- A text. -/
  | text (s : String)
  /-- A date, a time, or both. -/
  | moment
  /-- A list of values. -/
  | list (elements : List Document)
  /-- Values by name, in order. -/
  | table (entries : List (String × Document))

namespace Document

instance : Inhabited Document := ⟨null⟩

/-! ### Comparing documents -/

mutual

/-- Whether two documents are the same. -/
def same : Document → Document → Bool
  | null, null => true
  | flag a, flag b => a = b
  | integer m, integer n => m = n
  | number v, number w => v = w
  | text s, text t => s = t
  | moment, moment => true
  | list ds, list es => sameElements ds es
  | table ds, table es => sameEntries ds es
  | _, _ => false

/-- Whether two lists of values are the same. -/
def sameElements : List Document → List Document → Bool
  | [], [] => true
  | d :: ds, e :: es => same d e && sameElements ds es
  | _, _ => false

/-- Whether two lists of values by name are the same. -/
def sameEntries : List (String × Document) → List (String × Document) → Bool
  | [], [] => true
  | (name, d) :: ds, (other, e) :: es => name = other && same d e && sameEntries ds es
  | _, _ => false

end

mutual

theorem same_iff : (d e : Document) → (same d e = true ↔ d = e)
  | null, e | moment, e => by cases e <;> simp [same]
  | flag _, e | integer _, e | number _, e | text _, e => by cases e <;> simp [same]
  | list ds, e => by cases e <;> simp [same, sameElements_iff ds]
  | table ds, e => by cases e <;> simp [same, sameEntries_iff ds]

theorem sameElements_iff : (ds es : List Document) → (sameElements ds es = true ↔ ds = es)
  | [], es => by cases es <;> simp [sameElements]
  | d :: ds, es => by cases es <;> simp [sameElements, same_iff d, sameElements_iff ds]

theorem sameEntries_iff : (ds es : List (String × Document)) →
    (sameEntries ds es = true ↔ ds = es)
  | [], es => by cases es <;> simp [sameEntries]
  | (name, d) :: ds, es => by
    cases es <;> simp [sameEntries, same_iff d, sameEntries_iff ds, Prod.ext_iff]

end

instance : DecidableEq Document := fun d e => decidable_of_iff _ (same_iff d e)

/-! ### Entries -/

/-- Entries with one more, which replaces the entry of the same name if there is one. -/
def insert (name : String) (d : Document) : List (String × Document) → List (String × Document)
  | [] => [(name, d)]
  | (other, e) :: rest =>
    if other = name then (other, d) :: rest else (other, e) :: insert name d rest

/-- The value with a name among entries. -/
def find? (name : String) : List (String × Document) → Option Document
  | [] => none
  | (other, d) :: rest => if other = name then some d else find? name rest

/-- An inserted value is found under its name, and every other name is as before. -/
theorem find?_insert (name other : String) (d : Document) (es : List (String × Document)) :
    find? other (insert name d es) = if other = name then some d else find? other es := by
  induction es with
  | nil => grind [insert, find?]
  | cons e es ih =>
    obtain ⟨key, f⟩ := e
    grind [insert, find?]

end Document

end Moorland
