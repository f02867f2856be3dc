import Moorland.Document
/-!
# The tables of a TOML document

A TOML document names its tables piece by piece, by headers and by dotted keys, and most ways to
name a table twice are refused. What is refused depends on how each table came to be, which is
what a `Moorland.Toml.Node` remembers and a `Moorland.Document` does not:

* a table may be **implicit**, when only tables inside it have been named so far;
* a table may be **dotted**, when dotted keys made it;
* a list may be a **list of tables** that headers in double brackets make longer, or a value.

`Moorland.Toml.Table.descend?` walks along a path of names, making implicit tables on the way, and
changes the table at its end.
-/

namespace Moorland.Toml

mutual

/-- **A value as it stands in a document that is being read.** -/
inductive Node
  /-- A value other than an inline table. -/
  | value (d : Document)
  /-- An inline table. -/
  | inlined (t : Table)
  /-- A table named by headers or by dotted keys. -/
  | table (t : Table)
  /-- A list of tables named by headers, from the last to the first. -/
  | tables (ts : List Table)

/-- **A table**: how it came to be, and its entries in order. -/
inductive Table
  /-- A table with its marks and its entries. -/
  | mk (implicit dotted : Bool) (entries : List (String × Node))

end

namespace Table

/-- The table was made on the way to another. -/
def implicit : Table → Bool
  | .mk i _ _ => i

/-- The table was made by dotted keys. -/
def dotted : Table → Bool
  | .mk _ d _ => d

/-- The entries of a table. -/
def entries : Table → List (String × Node)
  | .mk _ _ es => es

/-- A table that a header or a pair of braces makes, without entries. -/
def plain : Table := .mk false false []

instance : Inhabited Table := ⟨plain⟩

/-- The value with a name. -/
def find? (t : Table) (name : String) : Option Node := t.entries.lookup name

/-- The entries with a value put under a name: in place of the one there, or last. -/
def putEntry (name : String) (n : Node) : List (String × Node) → List (String × Node)
  | [] => [(name, n)]
  | (other, m) :: rest =>
    if other = name then (other, n) :: rest else (other, m) :: putEntry name n rest

/-- The table with a value put under a name. -/
def put (t : Table) (name : String) (n : Node) : Table :=
  .mk t.implicit t.dotted (putEntry name n t.entries)

/-- The table without the value with a name. -/
def remove (t : Table) (name : String) : Table :=
  .mk t.implicit t.dotted (t.entries.filter fun (other, _) => other ≠ name)

/-- **Change the table at the end of a path**, for headers (`byKey` false) or for a dotted key
(`byKey` true). Tables that are missing on the way are made implicit. A path may lead through the
last table of a list of tables; it does not lead through values, and a dotted key does not lead
through tables that a header has named. -/
def descend? (byKey : Bool) (change : Table → Option Table) :
    (path : List String) → Table → Option Table
  | [], t => change t
  | name :: path, t =>
    match t.find? name with
    | none => do
      let inner ← descend? byKey change path (.mk true byKey [])
      return t.put name (.table inner)
    | some (.table inner) =>
      if byKey && !inner.implicit then none
      else do return t.put name (.table (← descend? byKey change path inner))
    | some (.tables (last :: earlier)) => do
      return t.put name (.tables ((← descend? byKey change path last) :: earlier))
    | some _ => none

/-- **Change the inline table at the end of a path** inside braces. A dotted key leads only through
tables that dotted keys have made. -/
def descendInline? (change : Table → Option Table) : (path : List String) → Table → Option Table
  | [], t => change t
  | name :: path, t =>
    match t.find? name with
    | none => do
      let inner ← descendInline? change path (.mk true true [])
      return t.put name (.inlined inner)
    | some (.inlined inner) =>
      if inner.implicit then do
        return t.put name (.inlined (← descendInline? change path inner))
      else none
    | some _ => none

/-- **Add a value under a new name** to the table at the end of a dotted key: that table is a dotted
one exactly if the key has more than one part. -/
def addValue? (path : List String) (name : String) (n : Node) (t : Table) : Option Table :=
  if t.dotted == path.isEmpty then none
  else if (t.find? name).isSome then none
  else some (t.put name n)

/-- Add the value of a key to a table that a header has named. -/
def setKey? (t : Table) (path : List String) (name : String) (n : Node) : Option Table :=
  t.descend? true (addValue? path name n) path

/-- Add the value of a key to an inline table. -/
def setInlineKey? (t : Table) (path : List String) (name : String) (n : Node) : Option Table :=
  t.descendInline? (addValue? path name n) path

end Table

/-! ### Headers -/

/-- **A document that is being read**: what is finished, and the table under the latest header. -/
structure Draft where
  /-- The tables under earlier headers. -/
  root : Table
  /-- The table under the latest header. -/
  current : Table
  /-- Where the latest header puts its table: the names on the way, the last name, and whether the
  header is in double brackets. The top of the document has no header. -/
  place : Option (List String × String × Bool)

namespace Draft

/-- The document before its first line. -/
def start : Draft := ⟨.plain, .plain, none⟩

/-- **Put the table under the latest header into its place.** -/
def finish? (d : Draft) : Option Table :=
  match d.place with
  | none => some d.current
  | some (path, name, true) =>
    d.root.descend? false (fun parent =>
      match parent.find? name with
      | none => some (parent.put name (.tables [d.current]))
      | some (.tables ts) => some (parent.put name (.tables (d.current :: ts)))
      | some _ => none) path
  | some (path, name, false) =>
    d.root.descend? false (fun parent =>
      match parent.find? name with
      | none => some (parent.put name (.table d.current))
      | some (.table t) => if t.implicit then some (parent.put name (.table d.current)) else none
      | some _ => none) path

/-- The table that a header finds at its place: none, or one that so far is only implicit. -/
def existing? (parent : Table) (name : String) : Option Table :=
  match parent.find? name with
  | none => some .plain
  | some (.table t) => if t.implicit && !t.dotted then some t else none
  | some _ => none

/-- The table at the end of a path of names, with missing tables taken as empty. -/
def look? (byKey : Bool) (t : Table) : (path : List String) → Option Table
  | [] => some t
  | name :: path =>
    match t.find? name with
    | none => look? byKey (.mk true byKey []) path
    | some (.table inner) => look? byKey inner path
    | some (.tables (last :: _)) => look? byKey last path
    | some _ => none

/-- **A header in single brackets** names a table that is new or implicit, which is taken out of the
document until it is finished. -/
def header? (d : Draft) (path : List String) (name : String) : Option Draft := do
  let root ← d.finish?
  let parent ← look? false root path
  let t ← existing? parent name
  let root ← root.descend? false (fun parent => some (parent.remove name)) path
  return ⟨root, .mk false false t.entries, some (path, name, false)⟩

/-- **A header in double brackets** makes a list of tables longer by one. -/
def listHeader? (d : Draft) (path : List String) (name : String) : Option Draft := do
  let root ← d.finish?
  let parent ← look? false root path
  match parent.find? name with
  | none | some (.tables _) => return ⟨root, .plain, some (path, name, true)⟩
  | some _ => none

/-- Add the value of a key under the latest header. -/
def key? (d : Draft) (path : List String) (name : String) (n : Node) : Option Draft := do
  return { d with current := ← d.current.setKey? path name n }

end Draft

/-! ### Finished documents -/

mutual

/-- The document of a value. -/
def Node.toDocument : Node → Document
  | .value d => d
  | .inlined t => t.toDocument
  | .table t => t.toDocument
  | .tables ts => .list (tablesToDocuments ts).reverse

/-- The document of a table. -/
def Table.toDocument : Table → Document
  | .mk _ _ es => .table (entriesToDocuments es)

/-- The documents of the tables of a list. -/
def tablesToDocuments : List Table → List Document
  | [] => []
  | t :: ts => t.toDocument :: tablesToDocuments ts

/-- The documents of the entries of a table. -/
def entriesToDocuments : List (String × Node) → List (String × Document)
  | [] => []
  | (name, n) :: es => (name, n.toDocument) :: entriesToDocuments es

end

end Moorland.Toml
