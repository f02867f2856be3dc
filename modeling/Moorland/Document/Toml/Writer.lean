import Moorland.Decimal.Style
import Moorland.Document
/-!
# Writing TOML

A document is written as **blocks** with a blank line between them: first the scalars of the
document itself, and then, in order, a block for each table and for each element of a list of
tables, under a header that gives the path of names to it. Within a table scalars come before the
tables inside it. Absent values are not written. An integer that does not fit in 64 bits with a sign
has no text, and neither has a document with one in it.
-/

namespace Moorland.Toml

/-- A text between double quotes. -/
def quote (s : String) : String :=
  "\"" ++ String.join (s.toList.map fun c =>
    if c = '"' then "\\\"" else if c = '\\' then "\\\\" else c.toString) ++ "\""

/-- The document is a table. -/
def isTable : Document → Bool
  | .table _ => true
  | _ => false

/-- The document is a list of one or more tables. -/
def isTableList : Document → Bool
  | .list (d :: ds) => (d :: ds).all isTable
  | _ => false

mutual

/-- **The text of a value on one line.** -/
def writeInline : Document → String
  | .null => ""
  | .flag b => if b then "true" else "false"
  | .integer n => toString n
  | .number v => Style.toml.double v
  | .text s => quote s
  | .moment => ""
  | .list ds => "[" ++ ", ".intercalate (writeInlineList ds) ++ "]"
  | .table es => "\x7b " ++ ", ".intercalate (writeInlineEntries es) ++ " \x7d"

/-- The texts of the elements of a list. -/
def writeInlineList : List Document → List String
  | [] => []
  | d :: ds => writeInline d :: writeInlineList ds

/-- The texts of the entries of an inline table. -/
def writeInlineEntries : List (String × Document) → List String
  | [] => []
  | (name, d) :: es => (name ++ " = " ++ writeInline d) :: writeInlineEntries es

end

/-- The lines of the entries of a table that are written on one line. -/
def writeLines : List (String × Document) → String
  | [] => ""
  | (_, .null) :: es => writeLines es
  | (name, d) :: es =>
    if isTable d || isTableList d then writeLines es
    else name ++ " = " ++ writeInline d ++ "\n" ++ writeLines es

/-- The path of names to something inside a table. -/
def extendPath (path name : String) : String := if path.isEmpty then name else path ++ "." ++ name

mutual

/-- The blocks of a value with the given path: none unless it is a table or a list of tables. -/
def writeBlocks (path : String) : Document → List String
  | .table es => ("[" ++ path ++ "]\n" ++ writeLines es) :: writeInner path es
  | .list ds => writeListBlocks path ds
  | _ => []

/-- The blocks of the tables in a list. -/
def writeListBlocks (path : String) : List Document → List String
  | [] => []
  | .table es :: ds =>
    ("[[" ++ path ++ "]]\n" ++ writeLines es) :: writeInner path es ++ writeListBlocks path ds
  | _ :: ds => writeListBlocks path ds

/-- The blocks inside a table with the given path. -/
def writeInner (path : String) : List (String × Document) → List String
  | [] => []
  | (name, d) :: es => writeBlocks (extendPath path name) d ++ writeInner path es

end

/-- The integer fits in 64 bits with a sign. -/
def FitsWord (n : Int) : Prop := Int64.minValue.toInt ≤ n ∧ n ≤ Int64.maxValue.toInt

instance (n : Int) : Decidable (FitsWord n) := inferInstanceAs (Decidable (_ ∧ _))

mutual

/-- **Every integer in a document fits** in 64 bits with a sign. -/
def integersFit : Document → Bool
  | .integer n => FitsWord n
  | .list ds => integersFitInList ds
  | .table es => integersFitInEntries es
  | _ => true

/-- Every integer in the elements of a list fits. -/
def integersFitInList : List Document → Bool
  | [] => true
  | d :: ds => integersFit d && integersFitInList ds

/-- Every integer in the entries of a table fits. -/
def integersFitInEntries : List (String × Document) → Bool
  | [] => true
  | (_, d) :: es => integersFit d && integersFitInEntries es

end

/-- **The text of a document.** Only a table has one, and only if its integers fit. -/
def write? : Document → Option String
  | .table es =>
    if integersFitInEntries es then
      let top := writeLines es
      let blocks := writeInner "" es
      some ("\n".intercalate (if top.isEmpty then blocks else top :: blocks))
    else none
  | _ => none

end Moorland.Toml
