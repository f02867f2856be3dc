import Moorland.Generation
import Moorland.Proofs.Grid.Size
/-!
# The generation after a grid, place by place

`Moorland.Grid.advance` writes the next generation over another grid, one place after the other.
This file takes the writing away: `Moorland.Grid.generation` is the grid whose cell at each place is
the next cell there in stored form, and `Moorland.Grid.advance_eq` says that this is what is
written, whatever the grid held that is written over.

The order of writing does not matter either. After writing any list of places a place of the list
reads as the next cell and every other place as before (`Moorland.Grid.cell_writePlaces`), so that
any list that has all places gives the same grid (`Moorland.Grid.writePlaces_eq_generation`).
-/

namespace Moorland

namespace Grid

variable {read write : Grid} {previous : Option Grid} {law : Law} {width height : Nat}

/-- **The generation after a grid**: at each place the next cell, in stored form. -/
def generation (read : Grid) (previous : Option Grid) (law : Law) : Grid where
  width := read.width
  height := read.height
  cells := Array.ofFn fun i : Fin (read.width * read.height) =>
    (read.nextCell previous law (i % read.width) (i / read.width)).clamped

theorem HasSize.generation (hr : read.HasSize width height) (previous : Option Grid) (law : Law) :
    (read.generation previous law).HasSize width height :=
  ⟨hr.width_eq, hr.height_eq, by rw [Grid.generation, Array.size_ofFn, hr.width_eq, hr.height_eq]⟩

theorem cell_generation {x y : Nat} (hx : x < read.width) (hy : y < read.height) :
    (read.generation previous law).cell x y = (read.nextCell previous law x y).clamped := by
  have hi : y * read.width + x < read.width * read.height := index_lt hx hy
  obtain ⟨hcol, hrow⟩ := place_add (y := y) hx
  change (Array.ofFn _).getD (y * read.width + x) Cell.black = _
  rw [Array.getD_eq_getD_getElem?, Array.getElem?_ofFn, dif_pos hi, Option.getD_some, hcol, hrow]

/-! ### Writing places -/

theorem HasSize.writePlaces (hw : write.HasSize width height) (places : List (Nat × Nat)) :
    (read.writePlaces previous law write places).HasSize width height :=
  List.foldlRecOn (motive := fun g : Grid => g.HasSize width height) places _ hw
    fun _ hg p _ => hg.put p.1 p.2 _

/-- **Writing a list of places** makes each of them read as the next cell, and leaves the others
alone. -/
theorem cell_writePlaces (hw : write.HasSize width height) {places : List (Nat × Nat)}
    (hp : ∀ p ∈ places, p.1 < width ∧ p.2 < height) {x y : Nat} (hx : x < width) :
    (read.writePlaces previous law write places).cell x y =
      if (x, y) ∈ places then (read.nextCell previous law x y).clamped else write.cell x y := by
  induction places generalizing write with
  | nil => rw [if_neg List.not_mem_nil]; rfl
  | cons p places ih =>
    obtain ⟨u, v⟩ := p
    obtain ⟨hu, hv⟩ : u < width ∧ v < height := hp _ List.mem_cons_self
    have hput := cell_put (x := u) (y := v) (u := x) (v := y) (read.nextCell previous law u v)
      (by rw [hw.width_eq]; exact hu) (by rw [hw.width_eq]; exact hx) (hw.index_lt_size hu hv)
    change (read.writePlaces previous law (write.put u v _) places).cell x y = _
    rw [ih (hw.put u v _) fun p h => hp p (List.mem_cons_of_mem _ h), hput]
    -- a place that comes again later is written again, with the same cell
    by_cases hmem : (x, y) ∈ places
    · rw [if_pos hmem, if_pos (List.mem_cons_of_mem _ hmem)]
    · rw [if_neg hmem]
      by_cases hxy : u = x ∧ v = y
      · obtain ⟨rfl, rfl⟩ := hxy
        rw [if_pos ⟨rfl, rfl⟩, if_pos List.mem_cons_self]
      · rw [if_neg hxy, if_neg]
        intro hc
        rcases List.mem_cons.mp hc with he | he
        · obtain ⟨rfl, rfl⟩ := Prod.mk.inj he
          exact hxy ⟨rfl, rfl⟩
        · exact hmem he

theorem mem_places {g : Grid} {x y : Nat} : (x, y) ∈ g.places ↔ x < g.width ∧ y < g.height := by
  simp only [places, List.mem_flatMap, List.mem_map, List.mem_range, Prod.mk.injEq]
  constructor
  · rintro ⟨v, hv, u, hu, rfl, rfl⟩
    exact ⟨hu, hv⟩
  · rintro ⟨hx, hy⟩
    exact ⟨y, hy, x, hx, rfl, rfl⟩

/-- **Any list of all places**, in whatever order and however often, gives the generation. -/
theorem writePlaces_eq_generation (hr : read.HasSize width height)
    (hw : write.HasSize width height) {places : List (Nat × Nat)}
    (hp : ∀ x y, (x, y) ∈ places ↔ x < width ∧ y < height) :
    read.writePlaces previous law write places = read.generation previous law := by
  refine (hw.writePlaces places).ext (hr.generation previous law) fun x y hx hy => ?_
  rw [cell_writePlaces hw (fun p h => (hp p.1 p.2).mp h) hx, if_pos ((hp x y).mpr ⟨hx, hy⟩),
    cell_generation (by rw [hr.width_eq]; exact hx) (by rw [hr.height_eq]; exact hy)]

/-! ### Advancing -/

/-- **The grids of a step go together** if each of them has the size of the one that is read. -/
theorem stepMismatch_eq_none_iff :
    stepMismatch read previous write = none ↔
      read.sameSize write = true ∧ ∀ p ∈ previous, read.sameSize p = true := by
  rcases hw : read.sameSize write with _ | _
  · simp [stepMismatch, hw]
  · cases previous with
    | none => simp [stepMismatch, hw]
    | some p => simp [stepMismatch, hw]

/-- Grids of one size go together. -/
theorem stepMismatch_eq_none (hr : read.HasSize width height) (hw : write.HasSize width height)
    (hp : ∀ p ∈ previous, p.HasSize width height) : stepMismatch read previous write = none :=
  stepMismatch_eq_none_iff.mpr ⟨hr.sameSize hw, fun p h => hr.sameSize (hp p h)⟩

/-- **Advancing a grid gives the generation after it**, whatever it is written over. -/
theorem advance_eq (hr : read.HasSize width height) (hw : write.HasSize width height)
    (hp : ∀ p ∈ previous, p.HasSize width height) :
    read.advance previous write law = .ok (read.generation previous law) := by
  rw [advance, stepMismatch_eq_none hr hw hp]
  refine congrArg Except.ok (writePlaces_eq_generation hr hw fun x y => ?_)
  rw [mem_places, hr.width_eq, hr.height_eq]

end Grid

end Moorland
