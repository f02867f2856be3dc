import Moorland.Proofs.Grid.Valid
/-!
# Grids as tables

A grid is a table of cells by place. It is kept as one array, in which a place is found by
its position, and there are several ways to read it: one cell with a check of the coordinates, one
row, or the array itself. They agree, and say the same about which places there are
(`Moorland.Grid.ReadsAlike`), because positions on the rectangle are distinct and in range. The
check is made for each coordinate: a place that is too far to the right has a position, but it is
that of another place, in the next row.

A cell is set by an **assignment**, which is refused if its place is not in the grid. The main
statement is `Moorland.Grid.reads_latest_assignment`, about any list of assignments, refused ones
among them: what is read at a place is what was assigned there by the latest assignment that was
accepted, in stored form, and otherwise what had been there before.
-/

namespace Moorland

/-! ### Coordinates that wrap around -/

theorem wrapCoordinate_eq (n : Nat) : wrapCoordinate n = Int.bmod n 18446744073709551616 := rfl

/-- **A size that is read as a coordinate lies on an axis only if the size does**, as long as the
axis does not leave the range of coordinates: the sizes that wrap around become negative. -/
theorem wrapCoordinate_mem_iff {n length : Nat} (hn : n < UInt64.size)
    (hlength : IsCoordinate length) :
    0 ≤ wrapCoordinate n ∧ wrapCoordinate n < length ↔ n < length := by
  have hrange := (isCoordinate_iff.mp hlength).2
  have hword : n < 18446744073709551616 := hn
  rw [wrapCoordinate_eq, Int.bmod_def]
  omega

namespace Grid

variable {g : Grid} {width height : Nat}

/-! ### Ways to read a grid -/

theorem HasSize.get_eq_ok_iff (hg : g.HasSize width height) {x y : Nat} {c : Cell} :
    g.get x y = .ok c ↔ (x < width ∧ y < height) ∧ g.cell x y = c := by
  rw [get, ← hg.width_eq, ← hg.height_eq, ← inside_iff]
  by_cases hin : g.inside x y = true
  · rw [if_pos hin]
    exact ⟨fun h => ⟨hin, Except.ok.inj h⟩, fun h => congrArg _ h.2⟩
  · rw [if_neg hin]
    exact ⟨nofun, fun h => absurd h.1 hin⟩

/-- **The ways to read a grid agree**, and they say the same about which places there are. -/
structure ReadsAlike (g : Grid) (width height : Nat) : Prop where
  /-- A cell can be read at each place, and nowhere else. -/
  exists_get_iff : ∀ x y, (∃ c, g.get x y = .ok c) ↔ x < width ∧ y < height
  /-- It is the cell that is read without a check. -/
  cell_eq : ∀ x y c, g.get x y = .ok c → g.cell x y = c
  /-- It is the one at its position among all cells. -/
  getElem?_cells : ∀ x y c, g.get x y = .ok c → g.cells[y * width + x]? = some c
  /-- There is a row at each height, and nowhere else. -/
  exists_row_iff : ∀ y, (∃ r, g.row y = some r) ↔ y < height
  /-- It has a cell for each column, from cells that are all there. -/
  size_row : ∀ y r, g.row y = some r → r.size = width ∧ y * width + width ≤ g.cells.size
  /-- A cell can be read in a row exactly if it can be read alone, and is the same. -/
  getElem?_row : ∀ x y c, (g.row y).bind (·[x]?) = some c ↔ g.get x y = .ok c
  /-- The grid contains the coordinates of its places only. -/
  contains_iff : ∀ x y : Int, g.contains x y = true ↔
    ∃ u v : Nat, x = u ∧ y = v ∧ ∃ c, g.get u v = .ok c
  /-- That is so for sizes that are read as coordinates, too, although they may wrap around. -/
  contains_wrapped_iff : IsCoordinate width → IsCoordinate height →
    ∀ u v, u < UInt64.size → v < UInt64.size →
      (g.contains (wrapCoordinate u) (wrapCoordinate v) = true ↔ ∃ c, g.get u v = .ok c)

theorem HasSize.exists_get_iff (hg : g.HasSize width height) {x y : Nat} :
    (∃ c, g.get x y = .ok c) ↔ x < width ∧ y < height := by
  simp only [hg.get_eq_ok_iff, exists_and_left, exists_eq', and_true]

theorem HasSize.exists_row_iff (hg : g.HasSize width height) {y : Nat} :
    (∃ r, g.row y = some r) ↔ y < height := by
  by_cases hy : y < height
  · exact iff_of_true ⟨_, hg.row_eq hy⟩ hy
  · refine iff_of_false ?_ hy
    rintro ⟨r, hr⟩
    rw [row, if_neg (hg.height_eq ▸ hy)] at hr
    cases hr

theorem HasSize.size_row (hg : g.HasSize width height) {y : Nat} {r : Array Cell}
    (hr : g.row y = some r) : r.size = width ∧ y * width + width ≤ g.cells.size := by
  have hy : y < height := hg.exists_row_iff.mp ⟨r, hr⟩
  rw [hg.row_eq hy, Option.some.injEq] at hr
  constructor
  · rw [← hr, List.size_toArray, List.length_map, List.length_range]
  · rw [hg.size_cells, ← Nat.succ_mul, Nat.mul_comm]
    exact Nat.mul_le_mul_left _ hy

theorem HasSize.getElem?_row (hg : g.HasSize width height) {x y : Nat} {c : Cell} :
    (g.row y).bind (·[x]?) = some c ↔ g.get x y = .ok c := by
  rw [hg.get_eq_ok_iff]
  by_cases hy : y < height
  · rw [hg.row_eq hy]
    by_cases hx : x < width <;> simp [hx, hy]
  · rw [row, if_neg (hg.height_eq ▸ hy), Option.bind_none]
    exact iff_of_false (Option.some_ne_none c).symm fun h => hy h.1.2

theorem HasSize.contains_iff_exists_get (hg : g.HasSize width height) {x y : Int} :
    g.contains x y = true ↔ ∃ u v : Nat, x = u ∧ y = v ∧ ∃ c, g.get u v = .ok c := by
  simp only [hg.exists_get_iff]
  rw [contains_iff, hg.width_eq, hg.height_eq]
  constructor
  · intro hin
    exact ⟨x.toNat, y.toNat, by omega⟩
  · rintro ⟨u, v, rfl, rfl, hin⟩
    omega

theorem HasSize.readsAlike (hg : g.HasSize width height) : g.ReadsAlike width height where
  exists_get_iff _ _ := hg.exists_get_iff
  cell_eq _ _ _ hc := (hg.get_eq_ok_iff.mp hc).2
  getElem?_cells x y c hc := by
    obtain ⟨hin, rfl⟩ := hg.get_eq_ok_iff.mp hc
    have hread := hg.getElem?_index hin.1 hin.2
    rwa [index, hg.width_eq] at hread
  exists_row_iff _ := hg.exists_row_iff
  size_row _ _ := hg.size_row
  getElem?_row _ _ _ := hg.getElem?_row
  contains_iff _ _ := hg.contains_iff_exists_get
  contains_wrapped_iff hwidth hheight u v hu hv := by
    rw [hg.exists_get_iff, Grid.contains_iff, hg.width_eq, hg.height_eq,
      wrapCoordinate_mem_iff hu hwidth, wrapCoordinate_mem_iff hv hheight]

/-! ### Assignments -/

/-- **An assignment**: a place, and the cell that is to be set there. -/
structure Assignment where
  /-- The column. -/
  x : Nat
  /-- The row. -/
  y : Nat
  /-- The cell. -/
  cell : Cell

/-- The grid after an assignment, and why the assignment was refused if it was. -/
def assign (g : Grid) (a : Assignment) : Grid × Option Refusal :=
  match g.set a.x a.y a.cell with
  | .ok h => (h, none)
  | .error refusal => (g, some refusal)

/-- The grid after a list of assignments, refused ones included. -/
def assignAll (g : Grid) (as : List Assignment) : Grid := as.foldl (fun g a => (g.assign a).1) g

/-- **The assignments of a list that are accepted**, each by the grid that those before it have
left. -/
def accepted (g : Grid) : List Assignment → List Assignment
  | [] => []
  | a :: as =>
    match g.assign a with
    | (h, none) => a :: h.accepted as
    | (h, some _) => h.accepted as

/-- **The cell of the latest assignment** at a place among those that are accepted. -/
def latest? (g : Grid) (as : List Assignment) (x y : Nat) : Option Cell :=
  ((g.accepted as).filter fun a => a.x = x ∧ a.y = y).getLast?.map Assignment.cell

variable {a : Assignment}

theorem assign_of_inside (ha : g.inside a.x a.y = true) :
    g.assign a = (g.put a.x a.y a.cell, none) := by
  rw [assign, set, if_pos ha]

theorem assign_of_not_inside (ha : ¬ g.inside a.x a.y = true) :
    g.assign a = (g, some (g.refuse a.x a.y)) := by
  rw [assign, set, if_neg ha]

/-- **An assignment is accepted exactly if its place is in the grid.** -/
theorem snd_assign_eq_none_iff : (g.assign a).2 = none ↔ g.inside a.x a.y = true := by
  by_cases ha : g.inside a.x a.y = true
  · rw [assign_of_inside ha]
    exact iff_of_true rfl ha
  · rw [assign_of_not_inside ha]
    exact iff_of_false nofun ha

theorem accepted_cons_of_inside (ha : g.inside a.x a.y = true) (as : List Assignment) :
    g.accepted (a :: as) = a :: (g.put a.x a.y a.cell).accepted as := by
  rw [accepted, assign_of_inside ha]

theorem accepted_cons_of_not_inside (ha : ¬ g.inside a.x a.y = true) (as : List Assignment) :
    g.accepted (a :: as) = g.accepted as := by
  rw [accepted, assign_of_not_inside ha]

theorem latest?_cons_of_inside (ha : g.inside a.x a.y = true) (as : List Assignment) (x y : Nat) :
    g.latest? (a :: as) x y = ((g.put a.x a.y a.cell).latest? as x y).or
      (if a.x = x ∧ a.y = y then some a.cell else none) := by
  rw [latest?, latest?, accepted_cons_of_inside ha, List.filter_cons]
  by_cases hat : a.x = x ∧ a.y = y
  · rw [if_pos (decide_eq_true hat), if_pos hat, List.getLast?_cons]
    rcases (List.filter _ _).getLast? with _ | b <;> rfl
  · rw [if_neg (by simpa using hat), if_neg hat, Option.or_none]

theorem assignAll_cons_of_inside (ha : g.inside a.x a.y = true) (as : List Assignment) :
    g.assignAll (a :: as) = (g.put a.x a.y a.cell).assignAll as := by
  rw [assignAll, List.foldl_cons, assign_of_inside ha]
  rfl

theorem assignAll_cons_of_not_inside (ha : ¬ g.inside a.x a.y = true) (as : List Assignment) :
    g.assignAll (a :: as) = g.assignAll as := by
  rw [assignAll, List.foldl_cons, assign_of_not_inside ha]
  rfl

/-- **Refused assignments can be left out.** -/
theorem assignAll_accepted (g : Grid) (as : List Assignment) :
    g.assignAll (g.accepted as) = g.assignAll as := by
  induction as generalizing g with
  | nil => rfl
  | cons a as ih =>
    by_cases ha : g.inside a.x a.y = true
    · rw [accepted_cons_of_inside ha, assignAll_cons_of_inside ha, assignAll_cons_of_inside ha, ih]
    · rw [accepted_cons_of_not_inside ha, assignAll_cons_of_not_inside ha, ih]

theorem Valid.put (hg : g.Valid width height) (x y : Nat) (c : Cell) :
    (g.put x y c).Valid width height :=
  hg.writer (hg.toHasSize.put x y c) (hg.isStored.put x y c)

theorem Valid.assignAll (hg : g.Valid width height) (as : List Assignment) :
    (g.assignAll as).Valid width height := by
  induction as generalizing g with
  | nil => exact hg
  | cons a as ih =>
    by_cases ha : g.inside a.x a.y = true
    · rw [assignAll_cons_of_inside ha]
      exact ih (hg.put _ _ _)
    · rw [assignAll_cons_of_not_inside ha]
      exact ih hg

/-- **What is read after a cell has been put at a place of the grid.** -/
theorem HasSize.get_put (hg : g.HasSize width height) {x y : Nat} (hin : g.inside x y = true)
    (c : Cell) (u v : Nat) :
    (g.put x y c).get u v = if x = u ∧ y = v then .ok c.clamped else g.get u v := by
  obtain ⟨hx, hy⟩ := inside_iff.mp hin
  have hindex := hg.index_lt_size (hg.width_eq ▸ hx) (hg.height_eq ▸ hy)
  -- the size stays, and with it what is inside
  have hsame : (g.put x y c).inside u v = g.inside u v := rfl
  rw [get, get, hsame]
  by_cases hread : g.inside u v = true
  · rw [if_pos hread, if_pos hread, cell_put c hx (inside_iff.mp hread).1 hindex]
    exact apply_ite Except.ok _ _ _
  · rw [if_neg hread, if_neg hread, if_neg]
    · rfl
    · rintro ⟨rfl, rfl⟩
      exact hread hin

/-- **What is read after assignments**: the cell of the latest one at the place that is accepted,
and what was read before if there is none. -/
theorem HasSize.get_assignAll (hg : g.HasSize width height) (as : List Assignment) (x y : Nat) :
    (g.assignAll as).get x y =
      (g.latest? as x y).elim (g.get x y) fun c => .ok c.clamped := by
  induction as generalizing g with
  | nil => rfl
  | cons a as ih =>
    by_cases ha : g.inside a.x a.y = true
    · rw [assignAll_cons_of_inside ha, latest?_cons_of_inside ha, ih (hg.put _ _ _)]
      rcases (g.put a.x a.y a.cell).latest? as x y with _ | c
      · rw [Option.none_or, Option.elim_none, hg.get_put ha]
        split <;> rfl
      · rfl
    · rw [assignAll_cons_of_not_inside ha, ih hg, latest?, latest?, accepted_cons_of_not_inside ha]

/-- **A grid is a table of cells by place.** After any assignments it can be read in all ways alike.
At each place it shows the cell of the latest assignment there that was accepted, in stored form, or
what it showed before if there was none. An assignment is accepted exactly if its place is in the
grid. One that is refused leaves the grid as it was, and those that have been refused might as well
not have been made. -/
theorem reads_latest_assignment (hg : g.Valid width height) (as : List Assignment) :
    let h := g.assignAll as
    h.ReadsAlike width height ∧
      (∀ x y, h.get x y = (g.latest? as x y).elim (g.get x y) fun c => .ok c.clamped) ∧
      (∀ a, (h.assign a).2 = none ↔ a.x < width ∧ a.y < height) ∧
      (∀ a, (h.assign a).2 ≠ none → (h.assign a).1 = h) ∧
      g.assignAll (g.accepted as) = h := by
  intro h
  have hh : h.Valid width height := hg.assignAll as
  refine ⟨hh.readsAlike, hg.get_assignAll as, fun a => ?_, fun a ha => ?_, g.assignAll_accepted as⟩
  · rw [snd_assign_eq_none_iff, inside_iff, hh.width_eq, hh.height_eq]
  · rw [Ne, snd_assign_eq_none_iff] at ha
    rw [assign_of_not_inside ha]

/-- **A cell is set twice**, the second time to numbers that are not levels, and between that an
assignment to the right of the first row is refused, though the position of its place is that of a
place in the second row. -/
theorem reads_latest_assignment_beside :
    let g : Grid := ⟨3, 2, Array.replicate 6 (.splat 0.5)⟩
    let as : List Assignment := [⟨1, 1, .white⟩, ⟨3, 0, .white⟩, ⟨1, 1, ⟨2, -1, 0 / 0⟩⟩]
    let h := g.assignAll as
    g.Valid 3 2 ∧ g.index 3 0 = g.index 0 1 ∧ h.get 1 1 = .ok ⟨1, 0, 0⟩ ∧
      h.get 0 1 = .ok (.splat 0.5) ∧ (h.row 1).bind (·[1]?) = some ⟨1, 0, 0⟩ ∧
      g.assignAll [⟨1, 1, .white⟩, ⟨1, 1, ⟨2, -1, 0 / 0⟩⟩] = h := by
  intro g as h
  have hg : g.Valid 3 2 := ⟨⟨rfl, rfl, rfl⟩, by decide, by decide, by decide +kernel⟩
  obtain ⟨halike, hread, -, -, hleft⟩ := reads_latest_assignment hg as
  have hset : g.latest? as 1 1 = some ⟨2, -1, 0 / 0⟩ := rfl
  have hnever : g.latest? as 0 1 = none := rfl
  have hfirst : h.get 1 1 = .ok ⟨1, 0, 0⟩ := by
    rw [hread, hset]
    rfl
  have hsecond : h.get 0 1 = .ok (.splat 0.5) := by
    rw [hread, hnever]
    rfl
  exact ⟨hg, rfl, hfirst, hsecond, (halike.getElem?_row 1 1 _).mpr hfirst, hleft⟩

end Grid

end Moorland
