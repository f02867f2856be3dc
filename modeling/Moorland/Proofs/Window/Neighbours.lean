import Mathlib.Data.List.ProdSigma
import Mathlib.Data.List.Sort
import Moorland.Proofs.Grid.Size
import Moorland.Window
/-!
# Neighbours

The sums over a window are computed by two loops over ranges whose ends are clipped to the grid. The
**neighbours** of a place (`Moorland.Grid.neighbours`) say the same without ends: of all places of
the grid, by column and then by row, those at most one column and one row away.

That the loops visit the neighbours, each of them once and in this order, is an equality of lists
(`Moorland.Grid.neighbours_eq`). Both lists increase strictly in the lexicographic order and have
the same members, and there is one such list only. The sum of each channel is then a sum over the
neighbours from left to right (`Moorland.Grid.channel_sums_eq`), which is what rounding asks for,
since the sum of three numbers depends on the order in which they are added.
-/

namespace Moorland

/-! ### One axis -/

/-- **Two coordinates are near** if they are at most one apart. -/
def near (c i : Nat) : Bool := ((i : Int) - c).natAbs ≤ 1

theorem near_iff {c i : Nat} : near c i = true ↔ ((i : Int) - c).natAbs ≤ 1 :=
  decide_eq_true_iff

/-- **The window along an axis** holds the coordinates of the axis that are near, upwards. -/
theorem windowRange_eq_filter {c length : Nat} (h : c < length) :
    windowRange c length = (List.range length).filter (near c) := by
  have hwindow : (windowRange c length).Pairwise (· < ·) := List.pairwise_lt_range'
  refine hwindow.eq_of_mem_iff (List.pairwise_lt_range.filter _) fun i => ?_
  rw [mem_windowRange h, List.mem_filter, List.mem_range, near_iff]
  omega

theorem length_windowRange (c length : Nat) :
    (windowRange c length).length = windowCount c length :=
  List.length_range'

/-- The coordinates that are near are counted by the window. -/
theorem countP_near {c length : Nat} (h : c < length) :
    (List.range length).countP (near c) = windowCount c length := by
  rw [List.countP_eq_length_filter, ← windowRange_eq_filter h, length_windowRange]

/-- **A coordinate is near itself**, near the one below unless it is the first, and near the one
above unless it is the last. -/
theorem windowCount_eq {c length : Nat} (h : c < length) :
    windowCount c length = 1 + (if 0 < c then 1 else 0) + (if c + 1 < length then 1 else 0) := by
  rw [windowCount, windowLow]
  split_ifs <;> omega

/-! ### Places -/

/-- **A product of two increasing lists** increases in the lexicographic order: by column and then
by row. -/
theorem pairwise_product {as bs : List Nat} (ha : as.Pairwise (· < ·)) (hb : bs.Pairwise (· < ·)) :
    (as ×ˢ bs).Pairwise (Prod.Lex (· < ·) (· < ·)) := by
  induction ha with
  | nil => exact .nil
  | @cons i as hfirst _ ih =>
    rw [List.product_cons, List.pairwise_append, List.pairwise_map]
    refine ⟨hb.imp fun hlt => .right i hlt, ih, fun p hp q hq => ?_⟩
    obtain ⟨j, -, rfl⟩ := List.mem_map.mp hp
    exact .left j q.2 (hfirst q.1 (List.mem_product.mp hq).1)

namespace Grid

/-- **The neighbours of a place**, the place itself included: of all places of the grid, by column
and then by row, those at most one column and one row away. -/
def neighbours (g : Grid) (x y : Nat) : List (Nat × Nat) :=
  (List.range g.width ×ˢ List.range g.height).filter fun p => near x p.1 && near y p.2

variable {g : Grid} {x y u v : Nat}

theorem pairwise_neighbours (g : Grid) (x y : Nat) :
    (g.neighbours x y).Pairwise (Prod.Lex (· < ·) (· < ·)) :=
  (pairwise_product List.pairwise_lt_range List.pairwise_lt_range).filter _

theorem mem_neighbours : (u, v) ∈ g.neighbours x y ↔
    u < g.width ∧ v < g.height ∧ near x u = true ∧ near y v = true := by
  rw [neighbours, List.mem_filter, List.mem_product, List.mem_range, List.mem_range,
    Bool.and_eq_true, and_assoc]

/-- **The places that a sum visits are the neighbours**, each of them once and in their order. -/
theorem neighbours_eq (hx : x < g.width) (hy : y < g.height) :
    g.neighbours x y = windowRange x g.width ×ˢ windowRange y g.height := by
  have hcolumns : (windowRange x g.width).Pairwise (· < ·) := List.pairwise_lt_range'
  have hrows : (windowRange y g.height).Pairwise (· < ·) := List.pairwise_lt_range'
  refine (g.pairwise_neighbours x y).eq_of_mem_iff (pairwise_product hcolumns hrows)
    fun ⟨u, v⟩ => ?_
  rw [mem_neighbours, List.mem_product, windowRange_eq_filter hx, windowRange_eq_filter hy,
    List.mem_filter, List.mem_filter, List.mem_range, List.mem_range]
  exact and_assoc.symm.trans and_and_and_comm

/-- **There are as many neighbours** as the window has columns, times its rows. -/
theorem length_neighbours (hx : x < g.width) (hy : y < g.height) :
    (g.neighbours x y).length = g.windowSize x y := by
  rw [neighbours_eq hx hy, List.length_product, length_windowRange, length_windowRange]
  rfl

/-! ### Sums -/

theorem channel_foldl_add (g : Grid) (i : Channel) (ps : List (Nat × Nat)) (acc : Cell) :
    (ps.foldl (fun acc p => acc + g.cell p.1 p.2) acc).channel i =
      (ps.map fun p => (g.cell p.1 p.2).channel i).foldl (· + ·) (acc.channel i) := by
  induction ps generalizing acc with
  | nil => rfl
  | cons p ps ih => rw [List.foldl_cons, ih, Cell.channel_add, List.map_cons, List.foldl_cons]

/-- **The sum of a channel** adds up the neighbours from left to right, starting at zero. -/
theorem channel_sums_eq (hx : x < g.width) (hy : y < g.height) (i : Channel) :
    (g.sums x y).channel i =
      ((g.neighbours x y).map fun p => (g.cell p.1 p.2).channel i).foldl (· + ·) 0 := by
  have hsums : g.sums x y =
      (g.neighbours x y).foldl (fun acc p => acc + g.cell p.1 p.2) .black := by
    rw [neighbours_eq hx hy]
    change _ = ((windowRange x g.width).flatMap fun i =>
      (windowRange y g.height).map (Prod.mk i)).foldl _ _
    rw [List.foldl_flatMap, sums]
    simp only [List.foldl_map]
  rw [hsums, channel_foldl_add, Cell.channel_black]

/-- **A sum visits the neighbours of its place**, by column and then by row, each of them once and
none off the grid, and reads each at its position among the cells. Their number is the size of the
window: the columns that are near, times the rows that are near. Each axis is clipped by its own
length and has between one and three coordinates near. -/
theorem sums_visit_neighbours (hg : g.IsFull) (hx : x < g.width) (hy : y < g.height) :
    (∀ i, (g.sums x y).channel i =
        ((g.neighbours x y).map fun p => (g.cell p.1 p.2).channel i).foldl (· + ·) 0) ∧
      ((g.neighbours x y).Pairwise (Prod.Lex (· < ·) (· < ·)) ∧ (g.neighbours x y).Nodup) ∧
      (∀ u v, (u, v) ∈ g.neighbours x y ↔ u < g.width ∧ v < g.height ∧
        ((u : Int) - x).natAbs ≤ 1 ∧ ((v : Int) - y).natAbs ≤ 1) ∧
      (∀ p ∈ g.neighbours x y, g.cells[p.2 * g.width + p.1]? = some (g.cell p.1 p.2)) ∧
      (g.neighbours x y).length = g.windowSize x y ∧
      ∃ columns rows, g.windowSize x y = columns * rows ∧
        ((List.range g.width).countP (near x) = columns ∧ 1 ≤ columns ∧ columns ≤ 3 ∧
          columns = 1 + (if 0 < x then 1 else 0) + (if x + 1 < g.width then 1 else 0)) ∧
        ((List.range g.height).countP (near y) = rows ∧ 1 ≤ rows ∧ rows ≤ 3 ∧
          rows = 1 + (if 0 < y then 1 else 0) + (if y + 1 < g.height then 1 else 0)) := by
  have hordered := g.pairwise_neighbours x y
  refine ⟨channel_sums_eq hx hy, ⟨hordered, hordered.nodup⟩, fun u v => ?_, fun ⟨u, v⟩ hp => ?_,
    length_neighbours hx hy, windowCount x g.width, windowCount y g.height, rfl,
    ⟨countP_near hx, windowCount_pos hx, windowCount_le _ _, windowCount_eq hx⟩,
    countP_near hy, windowCount_pos hy, windowCount_le _ _, windowCount_eq hy⟩
  · rw [mem_neighbours, near_iff, near_iff]
  · obtain ⟨hu, hv, -⟩ := mem_neighbours.mp hp
    exact hg.getElem?_index hu hv

/-- **The order of the sum tells**: on a grid of two columns and three rows, the two least cells are
added up before the great one, and the sum is above one by what both have together. Row by row they
would be added to the great one, and be lost. -/
theorem sums_visit_neighbours_corner :
    let low : Float32 := .ofBits 0x33800000
    let g : Grid := ⟨2, 3, #[.splat low, .splat 1, .splat low, .splat 0, .splat 1, .splat 1]⟩
    (g.IsFull ∧ 1 < g.width ∧ 0 < g.height) ∧
      (g.sums 1 0).red = [low, low, 1, 0].foldl (· + ·) 0 ∧
      (g.sums 1 0).red ≠ [low, 1, low, 0].foldl (· + ·) 0 := by
  intro low g
  have hg : g.IsFull := ⟨rfl, rfl, rfl⟩
  have hsum : (g.sums 1 0).red = [low, low, 1, 0].foldl (· + ·) 0 :=
    (sums_visit_neighbours (x := 1) (y := 0) hg (by decide) (by decide)).1 .red
  refine ⟨⟨hg, by decide, by decide⟩, hsum, ?_⟩
  rw [hsum]
  decide

end Grid

end Moorland
