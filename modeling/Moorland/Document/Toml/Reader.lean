import Moorland.Document.Toml.Scalar
/-!
# Reading TOML

A document is read line by line into a `Moorland.Toml.Draft`: a line holds a header, a key with
its value, or nothing but a comment. Values other than scalars are lists, which may run over
several lines, and inline tables, which may not.

`Moorland.Toml.read?` gives the document, or nothing if the text is not well formed or names a table
or a value twice.
-/

namespace Moorland.Toml

/-- **The rest of a text after white space, ends of lines and comments.** -/
def skipSpace (inComment : Bool) : List Char → List Char
  | '\n' :: s => skipSpace false s
  | '\r' :: '\n' :: s => skipSpace false s
  | c :: s =>
    if inComment then if isPrintable c then skipSpace true s else c :: s
    else if c = '#' then skipSpace true s
    else if isBlank c then skipSpace false s
    else c :: s
  | [] => []

/-- The number of lists and inline tables inside each other that a value stays below. -/
def maxDepth : Nat := 80

mutual

/-- **A value** inside `depth` lists and inline tables. Each of at most `fuel` steps reads a
character or enters a value. -/
def takeValue? : (fuel depth : Nat) → List Char → Option (Node × List Char)
  | 0, _, _ => none
  | fuel + 1, depth, '[' :: s =>
    if depth + 1 < maxDepth then
      (takeElements? fuel (depth + 1) [] s).map fun (elements, s) => (.value (.list elements), s)
    else none
  | fuel + 1, depth, '\x7b' :: s =>
    if depth + 1 < maxDepth then
      (takeInline? fuel (depth + 1) s).map fun (t, s) => (.inlined t, s)
    else none
  | _ + 1, _, s => takeScalar? s

/-- The elements of a list after its opening bracket or a comma. A comma may stand before the
closing bracket. -/
def takeElements? :
    (fuel depth : Nat) → List Document → List Char → Option (List Document × List Char)
  | 0, _, _, _ => none
  | fuel + 1, depth, acc, s =>
    match skipSpace false s with
    | ']' :: s => some (acc.reverse, s)
    | s =>
      match takeValue? fuel depth s with
      | none => none
      | some (n, s) =>
        match skipSpace false s with
        | ',' :: s => takeElements? fuel depth (n.toDocument :: acc) s
        | ']' :: s => some ((n.toDocument :: acc).reverse, s)
        | _ => none

/-- An inline table after its opening brace. -/
def takeInline? : (fuel depth : Nat) → List Char → Option (Table × List Char)
  | 0, _, _ => none
  | fuel + 1, depth, s =>
    match skipBlank s with
    | '\x7d' :: s => some (.plain, s)
    | s => takePairs? fuel depth .plain s

/-- The pairs of an inline table, at least one of them, up to its closing brace. -/
def takePairs? : (fuel depth : Nat) → Table → List Char → Option (Table × List Char)
  | 0, _, _, _ => none
  | fuel + 1, depth, t, s =>
    match takeKey? s with
    | some ((path, name), '=' :: s) =>
      match takeValue? fuel depth (skipBlank s) with
      | none => none
      | some (n, s) =>
        match t.setInlineKey? path name n, skipBlank s with
        | some t, ',' :: s => takePairs? fuel depth t s
        | some t, '\x7d' :: s => some (t, s)
        | _, _ => none
    | _ => none

end

/-! ### Lines -/

/-- **A line with a key and its value.** -/
def keyLine? (d : Draft) (s : List Char) : Option (Draft × List Char) := do
  let ((path, name), s) ← takeKey? s
  match s with
  | '=' :: s =>
    let (n, s) ← takeValue? (2 * s.length + 2) 0 (skipBlank s)
    let s ← endLine? s
    return (← d.key? path name n, s)
  | _ => none

/-- **A line that is not blank and not a comment.** -/
def line? (d : Draft) (s : List Char) : Option (Draft × List Char) :=
  match s with
  | '[' :: '[' :: s => do
    let ((path, name), s) ← takeKey? s
    match s with
    | ']' :: ']' :: s => return (← d.listHeader? path name, ← endLine? s)
    | _ => none
  | '[' :: s => do
    let ((path, name), s) ← takeKey? s
    match s with
    | ']' :: s => return (← d.header? path name, ← endLine? s)
    | _ => none
  | s => keyLine? d s

/-- Read at most `count` lines. -/
def lines? (d : Draft) : (count : Nat) → List Char → Option Table
  | 0, _ => none
  | count + 1, s =>
    match skipBlank s with
    | [] => d.finish?
    | '#' :: s => do lines? d count (← endLine? ('#' :: s))
    | c :: s =>
      match newline? (c :: s) with
      | some s => lines? d count s
      | none => do
        let (d, s) ← line? d (c :: s)
        lines? d count s

/-- The characters of a text after its byte order mark, if it has one. -/
def withoutMark : List Char → List Char
  | '\uFEFF' :: s => s
  | s => s

/-- **The document that a text stands for.** Every line but the last has at least one character. -/
def read? (s : String) : Option Document :=
  let s := withoutMark s.toList
  (lines? .start (s.length + 1) s).map Table.toDocument

end Moorland.Toml
