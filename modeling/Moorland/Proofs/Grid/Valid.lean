import Moorland.Document.Codec
import Moorland.Proofs.Generation.Pointwise
import Moorland.Proofs.Level
/-!
# Valid grids

A grid is **valid** if it has a row and a column at least, one cell for each place, and a level on
every channel of every cell (`Moorland.Grid.Valid`). The sums over windows, the statistics and the
pictures of a grid rely on it, and nothing in the type of grids says so.

`Moorland.Grid.Obtained` is the closure of the ways to make a grid under the ways to write to it,
each with any arguments whatever: cells with a NaN on them, intensities and rules that give one,
brushes of any pixels, and a generation computed from any grids. The main statement,
`Moorland.Grid.valid_of_obtained`, is that only valid grids are obtained and that they keep the size
they were made with. Its reason is the same for each writer: what it writes has gone through
`Moorland.Cell.clamped`, and it writes as many cells as there were.
-/

namespace Moorland

/-! ### Stored cells -/

/-- **A stored cell**: a level on every channel. -/
def Cell.IsStored (c : Cell) : Prop := ∀ i, IsLevel (c.channel i)

instance (c : Cell) : Decidable c.IsStored :=
  decidable_of_iff (∀ i ∈ [Channel.red, .green, .blue], IsLevel (c.channel i))
    ⟨fun h i => h i (by cases i <;> decide), fun h i _ => h i⟩

theorem Cell.isStored_clamped (c : Cell) : c.clamped.IsStored := by
  intro i
  rw [channel_clamped]
  exact isLevel_storedLevel _

theorem Cell.IsStored.clamped_eq {c : Cell} (hc : c.IsStored) : c.clamped = c :=
  Cell.ext_channel fun i => (channel_clamped c i).trans (hc i).storedLevel_eq

namespace Grid

variable {g h : Grid} {width height : Nat}

/-- All cells of the grid are stored ones. -/
def IsStored (g : Grid) : Prop := ∀ c ∈ g.cells, c.IsStored

instance (g : Grid) : Decidable g.IsStored :=
  inferInstanceAs (Decidable (∀ c ∈ g.cells, c.IsStored))

theorem IsStored.put (hg : g.IsStored) (x y : Nat) (c : Cell) : (g.put x y c).IsStored := by
  intro d hd
  rcases Array.mem_or_eq_of_mem_setIfInBounds hd with hd | rfl
  · exact hg d hd
  · exact c.isStored_clamped

theorem isStored_fill (g : Grid) (c : Cell) : (g.fill c).IsStored := by
  intro d hd
  obtain ⟨-, rfl⟩ := Array.mem_replicate.mp hd
  exact c.isStored_clamped

theorem isStored_filled {c : Cell} (hg : filled width height c = .ok g) : g.IsStored := by
  obtain ⟨-, -, rfl⟩ := filled_eq_ok_iff.mp hg
  intro d hd
  obtain ⟨-, rfl⟩ := Array.mem_replicate.mp hd
  exact c.isStored_clamped

theorem isStored_randomize (g : Grid) (i : Intensity) (s : Stream) :
    (g.randomize i s).1.IsStored := by
  intro d hd
  obtain ⟨v, -, rfl⟩ := Array.mem_map.mp hd
  exact (i.scale v).isStored_clamped

theorem IsStored.stamp (hg : g.IsStored) {b : Brush} {x y : Int} {mode : StampMode}
    {report : StampReport} (hs : g.stamp b x y mode = .ok (h, report)) : h.IsStored :=
  stamp_keeps (P := IsStored) (fun _ x y c hg => hg.put x y c) hg hs

theorem IsStored.writePlaces {write : Grid} (hw : write.IsStored) (read : Grid)
    (previous : Option Grid) (law : Law) (places : List (Nat × Nat)) :
    (read.writePlaces previous law write places).IsStored :=
  List.foldlRecOn (motive := IsStored) places _ hw fun _ hg p _ => hg.put p.1 p.2 _

/-! ### Valid grids -/

/-- **A valid grid** of a size. -/
structure Valid (g : Grid) (width height : Nat) : Prop extends g.HasSize width height where
  /-- There is a column. -/
  width_pos : 0 < width
  /-- There is a row. -/
  height_pos : 0 < height
  /-- Every cell is stored. -/
  isStored : g.IsStored

/-- What keeps the size and writes stored cells only keeps a grid valid. -/
theorem Valid.writer (hg : g.Valid width height) (hs : h.HasSize width height)
    (hc : h.IsStored) : h.Valid width height :=
  ⟨hs, hg.width_pos, hg.height_pos, hc⟩

/-- **A grid made from its cells** has the size that was asked for, which has no zero. -/
theorem valid_ofCells {cells : Array Cell} (hg : ofCells width height cells = .ok g) :
    g.Valid width height := by
  rw [ofCells] at hg
  split at hg
  · cases hg
  · next h0 =>
    cases hg
    refine ⟨⟨rfl, rfl, ?_⟩, by omega, by omega, fun d hd => ?_⟩
    · rw [Array.size_map]
      omega
    · obtain ⟨c, -, rfl⟩ := Array.mem_map.mp hd
      exact c.isStored_clamped

theorem valid_filled {c : Cell} (hg : filled width height c = .ok g) : g.Valid width height := by
  obtain ⟨hw, hh, -⟩ := filled_eq_ok_iff.mp hg
  exact ⟨hasSize_filled hg, hw, hh, isStored_filled hg⟩

/-- **A grid that is read from a document** is made from its cells. -/
theorem exists_ofCells_of_read {dialect : Dialect} {d : Document}
    (hg : Grid.read dialect d = .ok g) : ∃ w h cells, ofCells w h cells = .ok g := by
  obtain ⟨es, -, hw⟩ := Option.bind_eq_some_iff.mp (checked_eq_ok_iff.mp hg)
  obtain ⟨w, -, hh⟩ := Option.bind_eq_some_iff.mp hw
  obtain ⟨h, -, hcells⟩ := Option.bind_eq_some_iff.mp hh
  obtain ⟨cells, -, hmade⟩ := Option.bind_eq_some_iff.mp hcells
  exact ⟨w, h, cells.toArray, Option.some.inj hmade⟩

/-- **The grids that can be obtained**, with the size that they were made with. -/
inductive Obtained : (width height : Nat) → Grid → Prop
  /-- A grid without population. -/
  | black {g : Grid} {width height : Nat} (hg : Grid.black width height = .ok g) :
      Obtained width height g
  /-- A grid with any cell everywhere. -/
  | filled {g : Grid} {width height : Nat} {c : Cell} (hg : Grid.filled width height c = .ok g) :
      Obtained width height g
  /-- A grid made from any cells. -/
  | ofCells {g : Grid} {width height : Nat} {cells : Array Cell}
      (hg : Grid.ofCells width height cells = .ok g) : Obtained width height g
  /-- A grid read from any document, in either format. -/
  | read {g : Grid} {dialect : Dialect} {d : Document} (hg : Grid.read dialect d = .ok g) :
      Obtained g.width g.height g
  /-- A grid with one cell set. -/
  | set {g h : Grid} {width height x y : Nat} {c : Cell} (hg : Obtained width height g)
      (hh : g.set x y c = .ok h) : Obtained width height h
  /-- A grid filled with any cell. -/
  | fill {g : Grid} {width height : Nat} (c : Cell) (hg : Obtained width height g) :
      Obtained width height (g.fill c)
  /-- A grid that has been cleared. -/
  | clear {g : Grid} {width height : Nat} (hg : Obtained width height g) :
      Obtained width height g.clear
  /-- A grid over which another one, of whatever size, has been copied. -/
  | copyFrom {g k h : Grid} {width height w l : Nat} (hg : Obtained width height g)
      (hk : Obtained w l k) (hh : g.copyFrom k = .ok h) : Obtained width height h
  /-- A grid seeded with any intensity from any stream. -/
  | randomize {g : Grid} {width height : Nat} (i : Intensity) (s : Stream)
      (hg : Obtained width height g) : Obtained width height (g.randomize i s).1
  /-- A grid with any brush painted on it. -/
  | stamp {g h : Grid} {width height : Nat} {b : Brush} {x y : Int} {mode : StampMode}
      {report : StampReport} (hg : Obtained width height g)
      (hh : g.stamp b x y mode = .ok (h, report)) : Obtained width height h
  /-- A grid over which a generation has been written, from any grids and by any law. -/
  | advance {g h read : Grid} {width height : Nat} {previous : Option Grid} {law : Law}
      (hg : Obtained width height g) (hh : read.advance previous g law = .ok h) :
      Obtained width height h

/-- **Only valid grids are obtained.** -/
theorem Obtained.valid (hg : Obtained width height g) : g.Valid width height := by
  induction hg with
  | black hg => exact valid_filled hg
  | filled hg => exact valid_filled hg
  | ofCells hg => exact valid_ofCells hg
  | read hg =>
    -- the size in the document is the one that the cells were counted against
    obtain ⟨w, h, cells, hmade⟩ := exists_ofCells_of_read hg
    have hv := valid_ofCells hmade
    rw [hv.width_eq, hv.height_eq]
    exact hv
  | set _ hh ih =>
    rw [Grid.set] at hh
    split at hh
    · cases hh
      exact ih.writer (ih.put _ _ _) (ih.isStored.put _ _ _)
    · cases hh
  | fill c _ ih => exact ih.writer (ih.fill c) (isStored_fill _ c)
  | clear _ ih => exact ih.writer (ih.fill .black) (isStored_fill _ .black)
  | copyFrom _ _ hh ihg ihk =>
    obtain ⟨hs, rfl⟩ := copyFrom_eq_ok_iff.mp hh
    obtain ⟨hw, hl⟩ := sameSize_iff.mp hs
    -- the result is the grid that was copied, of which only the size has to be the same
    have hsize := ihk.isFull.hasSize (hw.symm.trans ihg.width_eq) (hl.symm.trans ihg.height_eq)
    exact ihg.writer hsize ihk.isStored
  | randomize i s _ ih => exact ih.writer (ih.toHasSize.randomize i s) (isStored_randomize _ i s)
  | stamp _ hh ih => exact ih.writer (ih.toHasSize.stamp hh) (ih.isStored.stamp hh)
  | advance _ hh ih =>
    rw [Grid.advance] at hh
    split at hh
    · cases hh
    · cases hh
      exact ih.writer (ih.toHasSize.writePlaces _) (ih.isStored.writePlaces _ _ _ _)

/-- **A grid that is obtained has a row and a column, one cell for each place, the size that it was
made with, and a number between zero and one on every channel of every cell.** -/
theorem valid_of_obtained (hg : Obtained width height g) :
    1 ≤ g.width ∧ 1 ≤ g.height ∧ g.cells.size = g.width * g.height ∧
      g.width = width ∧ g.height = height ∧
      ∀ c ∈ g.cells, ∀ i, (c.channel i).isNaN = false ∧ 0 ≤ c.channel i ∧ c.channel i ≤ 1 := by
  have hv := hg.valid
  refine ⟨?_, ?_, isFull_iff.mp hv.isFull, hv.width_eq, hv.height_eq, hv.isStored⟩
  · rw [hv.width_eq]
    exact hv.width_pos
  · rw [hv.height_eq]
    exact hv.height_pos

/-- A NaN, an infinity and a number below zero are set on a cell, and then a rule that divides by
zero and goes below zero writes over it. -/
theorem valid_of_obtained_from_quotients :
    ∃ g h k : Grid, Grid.black 2 1 = .ok g ∧ g.set 1 0 ⟨0 / 0, 1 / 0, -1⟩ = .ok h ∧
      h.advance none h ⟨⟨1, 3⟩, some fun s => ⟨s.cell.red / 0, s.sums.green / 0, -1⟩⟩ = .ok k ∧
      k.cells = #[⟨0, 1, 0⟩, ⟨0, 1, 0⟩] ∧
      1 ≤ k.width ∧ 1 ≤ k.height ∧ k.cells.size = k.width * k.height ∧
      k.width = 2 ∧ k.height = 1 ∧
      ∀ c ∈ k.cells, ∀ i, (c.channel i).isNaN = false ∧ 0 ≤ c.channel i ∧ c.channel i ≤ 1 := by
  have hmade : Grid.black 2 1 = .ok ⟨2, 1, #[.black, .black]⟩ := rfl
  have hset : Grid.set ⟨2, 1, #[.black, .black]⟩ 1 0 ⟨0 / 0, 1 / 0, -1⟩ =
      .ok ⟨2, 1, #[.black, ⟨0, 1, 0⟩]⟩ := rfl
  have hwritten : Grid.advance ⟨2, 1, #[.black, ⟨0, 1, 0⟩]⟩ none ⟨2, 1, #[.black, ⟨0, 1, 0⟩]⟩
      ⟨⟨1, 3⟩, some fun s => ⟨s.cell.red / 0, s.sums.green / 0, -1⟩⟩ =
      .ok ⟨2, 1, #[⟨0, 1, 0⟩, ⟨0, 1, 0⟩]⟩ := rfl
  exact ⟨_, _, _, hmade, hset, hwritten, rfl,
    valid_of_obtained (.advance (.set (.black hmade) hset) hwritten)⟩

end Grid

end Moorland
