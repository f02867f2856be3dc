import Moorland.Seeding
import Moorland.Stamp
/-!
# The size of a grid

A grid **has a size** if its width and its height are those of the size and it holds one cell for
each place (`Moorland.Grid.HasSize`). Nothing in the type of grids asks for the second, and every
reader of a grid relies on it.

A grid of a size is no more than a table of cells by place: two of them that read alike are equal
(`Moorland.Grid.HasSize.ext`). All writers keep the size. Most of them write by
`Moorland.Grid.put` alone, so that whatever this keeps is kept by painting a brush
(`Moorland.Grid.stamp_keeps`), which is stated for any property of grids and used again for the
levels of cells.
-/

namespace Moorland

namespace Grid

/-- **The size of a grid**: so many columns, so many rows, and a cell for each place. -/
structure HasSize (g : Grid) (width height : Nat) : Prop where
  /-- The number of columns. -/
  width_eq : g.width = width
  /-- The number of rows. -/
  height_eq : g.height = height
  /-- The number of cells. -/
  size_cells : g.cells.size = width * height

/-- **A grid is full** if it has the size that it says. -/
def IsFull (g : Grid) : Prop := g.HasSize g.width g.height

theorem isFull_iff {g : Grid} : g.IsFull ↔ g.cells.size = g.width * g.height :=
  ⟨fun h => h.size_cells, fun h => ⟨rfl, rfl, h⟩⟩

variable {g h : Grid} {width height : Nat}

theorem HasSize.isFull (hg : g.HasSize width height) : g.IsFull := by
  obtain ⟨rfl, rfl, hs⟩ := hg
  exact isFull_iff.mpr hs

theorem IsFull.hasSize (hg : g.IsFull) (hw : g.width = width) (hh : g.height = height) :
    g.HasSize width height := by
  rw [← hw, ← hh]
  exact hg

theorem HasSize.sameSize (hg : g.HasSize width height) (hh : h.HasSize width height) :
    g.sameSize h = true := by
  rw [Grid.sameSize, hg.width_eq, hg.height_eq, hh.width_eq, hh.height_eq, beq_self_eq_true,
    beq_self_eq_true, Bool.and_self]

theorem sameSize_iff : g.sameSize h = true ↔ g.width = h.width ∧ g.height = h.height := by
  rw [sameSize, Bool.and_eq_true, beq_iff_eq, beq_iff_eq]

/-! ### Cells by place -/

/-- Inside a grid that has its size, a place holds a cell of the grid. -/
theorem HasSize.index_lt_size (hg : g.HasSize width height) {x y : Nat} (hx : x < width)
    (hy : y < height) : g.index x y < g.cells.size := by
  have hi : g.index x y < g.width * g.height :=
    index_lt (by rw [hg.width_eq]; exact hx) (by rw [hg.height_eq]; exact hy)
  rw [hg.size_cells]
  rwa [hg.width_eq, hg.height_eq] at hi

theorem HasSize.getElem?_index (hg : g.HasSize width height) {x y : Nat} (hx : x < width)
    (hy : y < height) : g.cells[g.index x y]? = some (g.cell x y) := by
  rw [Grid.cell, Array.getD_eq_getD_getElem?, Array.getElem?_eq_getElem (hg.index_lt_size hx hy)]
  rfl

/-- What holds of all cells holds of the cell at a place. -/
theorem HasSize.forall_cell {P : Cell → Prop} (hg : g.HasSize width height)
    (hP : ∀ c ∈ g.cells, P c) {x y : Nat} (hx : x < width) (hy : y < height) : P (g.cell x y) :=
  hP _ (Array.mem_of_getElem? (hg.getElem?_index hx hy))

/-- Every position below the number of cells is that of a place. -/
theorem place_of_lt {i : Nat} (hi : i < width * height) :
    i % width < width ∧ i / width < height ∧ i / width * width + i % width = i := by
  have hw : 0 < width := Nat.pos_of_ne_zero fun h0 => by
    rw [h0, Nat.zero_mul] at hi
    exact absurd hi (Nat.not_lt_zero i)
  exact ⟨Nat.mod_lt i hw, Nat.div_lt_of_lt_mul hi, Nat.div_add_mod' i width⟩

/-- A place can be read off its position. -/
theorem place_add {x y : Nat} (hx : x < width) :
    (y * width + x) % width = x ∧ (y * width + x) / width = y := by
  have hw : 0 < width := Nat.zero_lt_of_lt hx
  rw [Nat.mul_add_mod_self_right, Nat.mul_comm y, Nat.mul_add_div hw, Nat.mod_eq_of_lt hx,
    Nat.div_eq_of_lt hx, Nat.add_zero]
  exact ⟨rfl, rfl⟩

/-- What holds of the cell at each place holds of all cells. -/
theorem HasSize.forall_mem {P : Cell → Prop} (hg : g.HasSize width height)
    (hP : ∀ x y, x < width → y < height → P (g.cell x y)) : ∀ c ∈ g.cells, P c := by
  intro c hc
  obtain ⟨i, hi, rfl⟩ := Array.mem_iff_getElem.mp hc
  have hlt : i < width * height := hg.size_cells ▸ hi
  obtain ⟨hx, hy, hplace⟩ := place_of_lt hlt
  have hcell := hP _ _ hx hy
  rwa [cell, index, hg.width_eq, hplace, Array.getD_eq_getD_getElem?, Array.getElem?_eq_getElem hi]
    at hcell

/-- **Grids of one size that read alike are equal.** -/
theorem HasSize.ext (hg : g.HasSize width height) (hh : h.HasSize width height)
    (hc : ∀ x y, x < width → y < height → g.cell x y = h.cell x y) : g = h := by
  have hcells : g.cells = h.cells := by
    refine Array.ext (hg.size_cells.trans hh.size_cells.symm) fun i h₁ h₂ => ?_
    have hlt : i < width * height := hg.size_cells ▸ h₁
    obtain ⟨hx, hy, hi⟩ := place_of_lt hlt
    -- position `i` is that of the same place in both grids, since they have the same width
    have hgi : g.index (i % width) (i / width) = i := by rw [index, hg.width_eq, hi]
    have hhi : h.index (i % width) (i / width) = i := by rw [index, hh.width_eq, hi]
    have hread := hc (i % width) (i / width) hx hy
    rw [Grid.cell, Grid.cell, hgi, hhi, Array.getD_eq_getD_getElem?, Array.getD_eq_getD_getElem?,
      Array.getElem?_eq_getElem h₁, Array.getElem?_eq_getElem h₂] at hread
    exact hread
  obtain ⟨w, k, cs⟩ := g
  obtain ⟨v, l, ds⟩ := h
  obtain rfl : w = v := hg.width_eq.trans hh.width_eq.symm
  obtain rfl : k = l := hg.height_eq.trans hh.height_eq.symm
  exact congrArg (Grid.mk w k) hcells

/-- **A row of a grid** holds the cells of its places, from left to right. -/
theorem HasSize.row_eq (hg : g.HasSize width height) {y : Nat} (hy : y < height) :
    g.row y = some ((List.range width).map fun x => g.cell x y).toArray := by
  rw [row, if_pos (hg.height_eq.symm ▸ hy), hg.width_eq]
  refine congrArg some (Array.toList_inj.mp (List.ext_getElem? fun x => ?_))
  rw [Array.toList_extract, List.extract_eq_take_drop, Nat.add_sub_cancel_left]
  by_cases hx : x < width
  · have hcell := hg.getElem?_index hx hy
    rw [index, hg.width_eq] at hcell
    simp [hx, hcell, List.getElem?_drop]
  · have hlength : min width (g.cells.size - y * width) ≤ x := by omega
    rw [List.getElem?_eq_none (by simpa using hlength), List.getElem?_eq_none (by simpa using hx)]

theorem inside_iff {x y : Nat} : g.inside x y = true ↔ x < g.width ∧ y < g.height := by
  rw [inside, Bool.and_eq_true, decide_eq_true_iff, decide_eq_true_iff]

/-- A grid contains the coordinates that lie on both of its axes. -/
theorem contains_iff {x y : Int} :
    g.contains x y = true ↔ (0 ≤ x ∧ x < g.width) ∧ 0 ≤ y ∧ y < g.height := by
  simp only [contains, Bool.and_eq_true, decide_eq_true_eq]
  omega

theorem contains_natCast {x y : Nat} : g.contains x y = true ↔ x < g.width ∧ y < g.height := by
  rw [contains_iff]
  omega

/-! ### What keeps the size -/

/-- **A filled grid** is made for every size without a zero. -/
theorem filled_eq_ok_iff {c : Cell} :
    filled width height c = .ok g ↔
      0 < width ∧ 0 < height ∧ g = ⟨width, height, Array.replicate (width * height) c.clamped⟩ := by
  rw [filled]
  by_cases h0 : width = 0 ∨ height = 0
  · rw [if_pos h0]
    exact ⟨nofun, fun h => by omega⟩
  · rw [if_neg h0]
    exact ⟨fun h => ⟨by omega, by omega, (Except.ok.inj h).symm⟩, fun h => congrArg _ h.2.2.symm⟩

theorem hasSize_filled {c : Cell} (hg : filled width height c = .ok g) :
    g.HasSize width height := by
  obtain ⟨-, -, rfl⟩ := filled_eq_ok_iff.mp hg
  exact ⟨rfl, rfl, Array.size_replicate⟩

theorem HasSize.put (hg : g.HasSize width height) (x y : Nat) (c : Cell) :
    (g.put x y c).HasSize width height :=
  ⟨hg.width_eq, hg.height_eq, size_cells_put g x y c ▸ hg.size_cells⟩

theorem HasSize.fill (hg : g.HasSize width height) (c : Cell) : (g.fill c).HasSize width height :=
  ⟨hg.width_eq, hg.height_eq, Array.size_replicate.trans hg.size_cells⟩

theorem HasSize.randomize (hg : g.HasSize width height) (i : Intensity) (s : Stream) :
    (g.randomize i s).1.HasSize width height := by
  refine ⟨hg.width_eq, hg.height_eq, ?_⟩
  rw [Grid.randomize]
  change (Array.map _ (s.draws g.cells.size).1).size = _
  rw [Array.size_map, Stream.draws_fst, Array.size_ofFn, hg.size_cells]

/-- **A copy is the grid that was copied.** -/
theorem copyFrom_eq_ok_iff {k : Grid} :
    g.copyFrom h = .ok k ↔ g.sameSize h = true ∧ k = h := by
  rw [copyFrom]
  by_cases hs : g.sameSize h = true
  · rw [if_pos hs]
    obtain ⟨hw, hh⟩ := sameSize_iff.mp hs
    have hk : ({ g with cells := h.cells } : Grid) = h := by
      rw [hw, hh]
    rw [hk]
    exact ⟨fun he => ⟨hs, (Except.ok.inj he).symm⟩, fun he => congrArg Except.ok he.2.symm⟩
  · rw [if_neg hs]
    exact ⟨nofun, fun he => absurd he.1 hs⟩

/-- **What every write keeps is kept by painting a brush.** -/
theorem stamp_keeps {P : Grid → Prop} (hput : ∀ g x y c, P g → P (g.put x y c)) {b : Brush}
    {x y : Int} {mode : StampMode} {report : StampReport} (hg : P g)
    (hs : g.stamp b x y mode = .ok (h, report)) : P h := by
  rw [stamp] at hs
  split at hs
  · cases hs
  · have hfold : P (b.placed.foldl (stampPixel mode (centeredCorner x y b.width b.height) b.height)
        (g, ⟨0, 0, 0⟩)).1 := by
      -- the pixels are taken one by one; a pixel is painted, clipped or skipped
      refine List.foldlRecOn (motive := fun s : Grid × StampReport => P s.1) b.placed _ hg
        fun state hstate pixel _ => ?_
      rw [stampPixel]
      split
      · exact hstate
      · split
        · exact hput _ _ _ _ hstate
        · exact hstate
    rw [Except.ok.inj hs] at hfold
    exact hfold

theorem HasSize.stamp (hg : g.HasSize width height) {b : Brush} {x y : Int} {mode : StampMode}
    {report : StampReport} (hs : g.stamp b x y mode = .ok (h, report)) : h.HasSize width height :=
  stamp_keeps (P := fun g => g.HasSize width height) (fun _ x y c hg => hg.put x y c) hg hs

end Grid

end Moorland
