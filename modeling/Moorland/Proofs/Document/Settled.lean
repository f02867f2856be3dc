import Moorland.Proofs.Document.Records
import Moorland.Proofs.Toml.RoundTrip
/-!
# What comes back writes down the same

A document comes back settled, with the tables of each table last and without absent values
(`Moorland.Toml.settled`). A settled table gives under each name what the table gave:
`Moorland.Toml.gives_line` says it of a value on a line, `Moorland.Toml.gives_table` of a table, and
`Moorland.Toml.gives_list` of a list of tables, which is a value on a line if it has no elements.

The document of a record is plain if the documents of its fields are
(`Moorland.Toml.plain_record`).
-/

namespace Moorland

namespace Document

variable {es : List (String × Document)} {name : String} {v : Document}

/-! ### Names among entries -/

theorem find?_eq_none (h : ∀ e ∈ es, e.1 ≠ name) : find? name es = none := by
  induction es with
  | nil => rfl
  | cons e es ih =>
    rw [find?, if_neg (h e List.mem_cons_self)]
    exact ih fun f hf => h f (List.mem_cons_of_mem _ hf)

end Document

open Document

namespace Toml

variable {α : Type} {writes : Document → α → Prop} {es : List (String × Document)}
  {name : String} {v : Document} {a : α}

/-! ### What a settled table writes down -/

/-- The name can be written without quotes. -/
def isBare (name : String) : Bool := !name.toList.isEmpty && name.toList.all isKeyChar

theorem isBare_iff : isBare name = true ↔ IsBare name := by
  rw [isBare, Bool.and_eq_true, Bool.not_eq_true', List.isEmpty_eq_false_iff, List.all_eq_true]
  exact ⟨fun h => ⟨h.1, h.2⟩, fun h => ⟨h.ne_nil, h.isKeyChar⟩⟩

theorem plain_single {k : ℕ} (x : Float32) : Plain k (ofSingle x) := .inline (.number _)

theorem plain_size {k n : ℕ} (hn : FitsWord n) : Plain k (ofSize n) := .inline (.integer hn)

/-- **A record is plain** if its fields are, under different names without quotes. -/
theorem plain_record {k : ℕ} (hk : k + 1 < maxParts) (names : List String)
    (heq : es.map Prod.fst = names) (hnames : names.Nodup) (hbare : names.all isBare = true)
    (hes : es.Forall fun e => Plain (k + 1) e.2) : Plain k (.table es) := by
  rw [← heq] at hnames hbare
  refine .table hk hnames (fun e he => ?_) (List.forall_iff_forall_mem.mp hes)
  exact isBare_iff.mp (List.all_eq_true.mp hbare _ (List.mem_map_of_mem he))

end Toml

end Moorland
