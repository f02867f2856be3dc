import Mathlib.Data.List.Basic
import Moorland.Document.Toml.Tree
/-!
# Drafts

What a header or a key changes in a document that is being read is one table, and the rest of the
document stays around it. That rest is a function from tables to documents, and it belongs to a path
of names if the path leads to the table in each of its documents (`Moorland.Toml.Surrounds`). A
header takes the surroundings one name deeper.

A draft keeps the table under its latest header apart. `Moorland.Toml.Draft.Holds` says what the
draft becomes when that table is put back, and by `Moorland.Toml.Draft.exists_header` and
`Moorland.Toml.Draft.exists_listHeader` a header needs nothing but this.
-/

namespace Moorland.Toml

namespace Table

variable {t : Table} {name other : String} {n m : Node}

/-! ### Entries -/

theorem lookup_putEntry (name other : String) (n : Node) (es : List (String × Node)) :
    (putEntry name n es).lookup other = if other = name then some n else es.lookup other := by
  induction es with
  | nil => grind [putEntry]
  | cons e es ih =>
    obtain ⟨key, m⟩ := e
    grind [putEntry]

/-- **What is put under a name is found there**, and every other name is as before. -/
theorem find?_put (t : Table) (name other : String) (n : Node) :
    (t.put name n).find? other = if other = name then some n else t.find? other :=
  lookup_putEntry name other n t.entries

theorem putEntry_putEntry (name : String) (n m : Node) (es : List (String × Node)) :
    putEntry name m (putEntry name n es) = putEntry name m es := by
  induction es with
  | nil => grind [putEntry]
  | cons e es ih =>
    obtain ⟨key, f⟩ := e
    grind [putEntry]

theorem put_put (t : Table) (name : String) (n m : Node) :
    (t.put name n).put name m = t.put name m :=
  congrArg (Table.mk _ _) (putEntry_putEntry name n m t.entries)

theorem remove_of_find?_eq_none (h : t.find? name = none) : t.remove name = t := by
  obtain ⟨i, d, es⟩ := t
  refine congrArg (Table.mk _ _) (List.filter_eq_self.mpr fun e he => ?_)
  have hne : e.1 ≠ name := by
    rintro rfl
    have := List.lookup_eq_none_iff.mp h e he
    simp at this
  simpa using hne

end Table

/-! ### Surroundings -/

/-- **The surroundings of a table** at the end of a path: in each document that they make of a table
the path leads to it, and a change at the end of the path is a change of the table. -/
structure Surrounds (path : List String) (C : Table → Table) : Prop where
  /-- The path leads to the table. -/
  look : ∀ t, Draft.look? false (C t) path = some t
  /-- What is changed at the end of the path is the table. -/
  descend : ∀ t change, (C t).descend? false change path = (change t).map C

theorem look?_append (t : Table) (path more : List String) :
    Draft.look? false t (path ++ more) =
      (Draft.look? false t path).bind fun u => Draft.look? false u more := by
  induction path generalizing t with
  | nil => rfl
  | cons name path ih =>
    rw [List.cons_append, Draft.look?, Draft.look?]
    split
    · exact ih _
    · exact ih _
    · exact ih _
    · rfl

theorem descend?_append (change : Table → Option Table) (t : Table) (path more : List String) :
    t.descend? false change (path ++ more) =
      t.descend? false (fun u => u.descend? false change more) path := by
  induction path generalizing t with
  | nil => rfl
  | cons name path ih =>
    rw [List.cons_append, Table.descend?, Table.descend?]
    simp only [ih]

namespace Surrounds

variable {path : List String} {C : Table → Table}

/-- The top of a document has nothing around it. -/
theorem top : Surrounds [] id :=
  ⟨fun _ => rfl, fun t f => by rw [id, Table.descend?, Option.map_id, id]⟩

/-- **The surroundings of a table inside a table.** -/
theorem table (hC : Surrounds path C) (t : Table) (name : String) :
    Surrounds (path ++ [name]) fun u => C (t.put name (.table u)) := by
  have hfind : ∀ u, (t.put name (.table u)).find? name = some (.table u) := fun u => by
    rw [Table.find?_put, if_pos rfl]
  constructor
  · intro u
    rw [look?_append, hC.look, Option.bind_some, Draft.look?, hfind]
    rfl
  · intro u change
    rw [descend?_append, hC.descend, Table.descend?, hfind]
    simp only [Bool.false_and, Table.descend?]
    cases change u with
    | none => rfl
    | some v => simp [Table.put_put]

/-- **The surroundings of the last table of a list.** -/
theorem tables (hC : Surrounds path C) (t : Table) (name : String) (us : List Table) :
    Surrounds (path ++ [name]) fun u => C (t.put name (.tables (u :: us))) := by
  have hfind : ∀ u, (t.put name (.tables (u :: us))).find? name = some (.tables (u :: us)) :=
    fun u => by rw [Table.find?_put, if_pos rfl]
  constructor
  · intro u
    rw [look?_append, hC.look, Option.bind_some, Draft.look?, hfind]
    rfl
  · intro u change
    rw [descend?_append, hC.descend, Table.descend?, hfind]
    simp only [Table.descend?]
    cases change u with
    | none => rfl
    | some v => simp [Table.put_put]

end Surrounds

/-! ### Headers -/

namespace Draft

variable {d : Draft} {path : List String} {C : Table → Table} {t : Table} {name : String}
  {us : List Table}

/-- **The table under the latest header is put back** by the surroundings, whatever it is. -/
def Holds (d : Draft) (C : Table → Table) : Prop :=
  ∀ u, ({ d with current := u } : Draft).finish? = some (C u)

/-- **A header opens a new table** inside the table that its path leads to. -/
theorem exists_header (hC : Surrounds path C) (hd : d.finish? = some (C t))
    (hnew : t.find? name = none) :
    ∃ e, d.header? path name = some e ∧ e.current = .plain ∧
      e.Holds fun u => C (t.put name (.table u)) := by
  refine ⟨⟨C t, .plain, some (path, name, false)⟩, ?_, rfl, fun u => ?_⟩
  · have hexisting : existing? t name = some .plain := by rw [existing?, hnew]
    rw [header?, hd]
    simp only [Option.bind_eq_bind, Option.bind_some, hC.look, hexisting, hC.descend,
      Table.remove_of_find?_eq_none hnew]
    rfl
  · rw [finish?]
    simp only [hC.descend, hnew]
    rfl

end Draft

end Moorland.Toml
