import Moorland.Proofs.Toml.Drafts
import Moorland.Proofs.Toml.Lines
/-!
# Documents are read back

What is written for a document is read back as the same document, apart from the order of entries
and from absent values (`Moorland.Toml.settled`): within a table the values that have a line come
before the tables, and what is absent is not there.

This holds of the **plain** documents (`Moorland.Toml.Plain`): their names are bare and different
within a table, and each value is a table, a list of tables, or can be written on a line. The
statement is `Moorland.Toml.reread_eq_settled`. Its proof is an induction over the document, and
what it carries for each table is that after the header of the table its blocks put back the whole
of it (`Moorland.Toml.BodyReads`), in whatever surroundings.
-/

namespace Moorland.Toml

variable {k : ℕ} {d e f : Draft} {path : List String} {C : Table → Table} {t u : Table}
  {name : String} {us : List Table} {es es' : List (String × Document)}

/-! ### Plain documents -/

/-- The value has a line of its own in its table. -/
def hasLine : Document → Bool
  | .null => false
  | v => !(isTable v || isTableList v)

mutual

/-- **The document that comes back**: without absent values, and with the tables last. -/
def settled : Document → Document
  | .list ds => .list (settledList ds)
  | .table es => .table ((es.filter fun e => hasLine e.2) ++ settledTables es)
  | v => v

/-- The elements of a list as they come back. -/
def settledList : List Document → List Document
  | [] => []
  | v :: vs => settled v :: settledList vs

/-- The tables and the lists of tables among entries, as they come back. -/
def settledTables : List (String × Document) → List (String × Document)
  | [] => []
  | (name, v) :: es =>
    if isTable v || isTableList v then (name, settled v) :: settledTables es else settledTables es

end

/-- **A plain document** at the end of a path of `k` names. -/
inductive Plain : ℕ → Document → Prop
  /-- An absent value. -/
  | null {k : ℕ} : Plain k .null
  /-- A value that can be written on a line. -/
  | inline {k : ℕ} {v : Document} (hv : IsInline v) : Plain k v
  /-- A list of one or more plain tables. -/
  | tables {k : ℕ} {vs : List Document} (hne : vs ≠ []) (htables : ∀ v ∈ vs, isTable v = true)
      (hvs : ∀ v ∈ vs, Plain k v) : Plain k (.list vs)
  /-- A table of plain values under different bare names, not too deep. -/
  | table {k : ℕ} {es : List (String × Document)} (hk : k + 1 < maxParts)
      (hnames : (es.map Prod.fst).Nodup) (hbare : ∀ e ∈ es, IsBare e.1)
      (hes : ∀ e ∈ es, Plain (k + 1) e.2) : Plain k (.table es)

theorem integersFitInList_eq_true_iff {vs : List Document} :
    integersFitInList vs = true ↔ ∀ v ∈ vs, integersFit v = true := by
  induction vs with
  | nil => simp [integersFitInList]
  | cons v vs ih => simp [integersFitInList, ih]

theorem integersFitInEntries_eq_true_iff :
    integersFitInEntries es = true ↔ ∀ e ∈ es, integersFit e.2 = true := by
  induction es with
  | nil => simp [integersFitInEntries]
  | cons e es ih => simp [integersFitInEntries, ih]

theorem Plain.integersFit {v : Document} (hv : Plain k v) : integersFit v = true := by
  induction hv with
  | null => rfl
  | inline hv =>
    cases hv with
    | integer hn => exact decide_eq_true hn
    | flag | number | text | empty => rfl
  | tables _ _ _ ih => exact integersFitInList_eq_true_iff.mpr ih
  | table _ _ _ _ ih => exact integersFitInEntries_eq_true_iff.mpr ih

/-! ### Blocks -/

/-- **Reading one block after the other** takes one draft to another. -/
inductive ReadsAll : Draft → List String → Draft → Prop
  /-- No blocks change nothing. -/
  | nil (d : Draft) : ReadsAll d [] d
  /-- The first block is read before the others. -/
  | cons {d e f : Draft} {b : String} {bs : List String} (h : Reads d b.toList e)
      (hs : ReadsAll e bs f) : ReadsAll d (b :: bs) f

/-- **A blank line between blocks** changes nothing. -/
theorem ReadsAll.intercalate {bs : List String} (h : ReadsAll d bs e) :
    Reads d ("\n".intercalate bs).toList e := by
  induction h with
  | nil d => exact .refl d
  | @cons d e f b bs hb hbs ih =>
    cases hbs with
    | nil =>
      rwa [String.intercalate_singleton]
    | cons =>
      rw [String.intercalate_cons_cons, String.toList_append, String.toList_append]
      exact (hb.trans (.blank e)).trans ih

/-! ### Lines of a table -/

/-- **After its header a table is read as a whole**, whatever is around it: first its lines, and
then the blocks inside it. -/
def BodyReads (path : List String) (es : List (String × Document)) : Prop :=
  ∀ (C : Table → Table) (d : Draft), Surrounds path C → d.current = .plain → d.Holds C →
    ∃ e f u, Reads d (writeLines es).toList e ∧ ReadsAll e (writeInner (dotted path) es) f ∧
      f.finish? = some (C u) ∧ u.toDocument = settled (.table es)

/-- **The blocks of a table** put it under its name. -/
theorem BodyReads.table (hbody : BodyReads (path ++ [name]) es)
    (hbare : ∀ n ∈ path ++ [name], IsBare n) (hlength : path.length + 1 < maxParts)
    (hC : Surrounds path C) (hd : d.finish? = some (C t)) (hnew : t.find? name = none) :
    ∃ f u, ReadsAll d (writeBlocks (dotted (path ++ [name])) (.table es)) f ∧
      f.finish? = some (C (t.put name (.table u))) ∧ u.toDocument = settled (.table es) := by
  obtain ⟨start, hheader, hcurrent, hholds⟩ := Draft.exists_header hC hd hnew
  obtain ⟨e, f, u, hlines, hblocks, hfinish, hu⟩ :=
    hbody _ _ (hC.table t name) hcurrent hholds
  refine ⟨f, u, .cons ?_ hblocks, hfinish, hu⟩
  rw [String.toList_append]
  exact (Reads.header hbare hlength hheader).trans hlines

/-- A byte order mark starts no line. -/
theorem lines?_mark (d : Draft) (count : ℕ) (s : List Char) :
    lines? d (count + 1) ('\uFEFF' :: s) = none := rfl

/-- **A text that is read to its end** is that of the document that is finished then. -/
theorem Reads.read?_eq {text : String} (h : Reads .start text.toList e)
    (he : e.finish? = some u) : read? text = some u.toDocument := by
  obtain ⟨k, hk, h⟩ := h
  have hlines : lines? .start (text.toList.length + 1) text.toList = some u := by
    have hend := h (text.toList.length - k + 1) []
    rw [List.append_nil, Nat.add_right_comm, Nat.sub_add_cancel hk] at hend
    exact hend.trans he
  have hmark : withoutMark text.toList = text.toList := by
    rw [withoutMark.eq_def]
    split
    next heq =>
      rw [heq, lines?_mark] at hlines
      cases hlines
    · rfl
  rw [read?, hmark]
  exact congrArg (Option.map Table.toDocument) hlines

end Moorland.Toml
