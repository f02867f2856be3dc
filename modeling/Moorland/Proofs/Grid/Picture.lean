import Mathlib.Algebra.Order.Floor.Div
import Mathlib.Data.List.GetD
import Moorland.Grid.Picture
import Moorland.Proofs.Grid.Valid
/-!
# Pictures sample a lattice

A picture shows the cells of a grid at the points of a lattice: from the first column on with one
distance, from the highest row down with twice that distance. The main statement,
`Moorland.Grid.picture_samples`, gives the text of a picture whole, and with it the number of its
lines and of their characters.

Lines and characters are both found by going on by a fixed distance until nothing is left. Each time
one point is taken, and what is left gets shorter by the distance, so that there are as many points
as the length divided by the distance and rounded up (`Moorland.ceilDiv_eq_succ`). This is all that
`Moorland.every_eq` and `Moorland.Grid.linesBelow_eq` rest on.
-/

namespace Moorland

/-- **One distance takes one point**: the others are those of what is left. -/
theorem ceilDiv_eq_succ {n step : Nat} (hn : 0 < n) (hstep : 0 < step) :
    n ⌈/⌉ step = (n - step) ⌈/⌉ step + 1 := by
  rw [Nat.ceilDiv_eq_add_pred_div, Nat.ceilDiv_eq_add_pred_div]
  rcases Nat.le_total step n with h | h
  · rw [← Nat.add_div_right _ hstep]
    congr 1
    omega
  · rw [Nat.sub_eq_zero_of_le h, Nat.div_eq_of_lt (by omega : 0 + step - 1 < step)]
    exact Nat.div_eq_of_lt_le (by omega) (by omega)

/-- **A point is taken inside** what is sampled. -/
theorem mul_lt_of_lt_ceilDiv {n step i : Nat} (hstep : 0 < step) (hi : i < n ⌈/⌉ step) :
    i * step < n := by
  refine Nat.lt_of_not_le fun hle => ?_
  rw [Nat.mul_comm] at hle
  exact absurd ((ceilDiv_le_iff_le_mul hstep).mpr hle) (Nat.not_le_of_lt hi)

/-- **Every so many elements of a list** are those at the multiples of the distance. -/
theorem every_eq {α : Type} {step : Nat} (hstep : 0 < step) (s : List α) (otherwise : α) :
    every step s =
      (List.range (s.length ⌈/⌉ step)).map fun i => s.getD (i * step) otherwise := by
  fun_induction every step s with
  | case1 => simp
  | case2 a rest ih =>
    have hlength : (rest.drop (step - 1)).length = rest.length + 1 - step := by
      rw [List.length_drop]
      omega
    rw [ih, hlength, List.length_cons, ceilDiv_eq_succ (Nat.succ_pos _) hstep,
      List.range_succ_eq_map, List.map_cons, List.map_map, Nat.zero_mul]
    refine congrArg (a :: ·) (List.map_congr_left fun i _ => ?_)
    have hindex : (i + 1) * step = step - 1 + i * step + 1 := by
      rw [Nat.succ_mul]
      omega
    simp [List.getD_eq_getElem?_getD, hindex]

theorem Cell.character_mem_ramp (c : Cell) : c.character ∈ ramp := by
  have hindex : min (roundHalfUp (unitClamp c.luminance * 9)) 9 < ramp.length :=
    Nat.lt_succ_of_le (Nat.min_le_right _ _)
  rw [character, List.getD_eq_getElem _ _ hindex]
  exact List.getElem_mem hindex

theorem lineFeed_not_mem_ramp : '\n' ∉ ramp := by decide

/-- **Lines of characters of cells**, each with a line feed at its end, have no other line feeds. -/
theorem Cell.count_lines {α β : Type} (rows : List α) (columns : List β) (f : α → β → Cell) :
    (rows.flatMap fun j => (columns.map fun i => (f j i).character) ++ ['\n']).count '\n' =
      rows.length := by
  induction rows with
  | nil => rfl
  | cons j rows ih =>
    have hnone : (columns.map fun i => (f j i).character).count '\n' = 0 := by
      refine List.count_eq_zero.mpr fun hmem => ?_
      obtain ⟨i, -, hi⟩ := List.mem_map.mp hmem
      exact lineFeed_not_mem_ramp (hi ▸ (f j i).character_mem_ramp)
    rw [List.flatMap_cons, List.count_append, List.count_append, hnone, ih, List.length_cons]
    exact Nat.add_comm _ _

namespace Grid

variable {g : Grid} {width height step : Nat}

/-- **A line of a picture** shows the cells of its row at the multiples of the distance. -/
theorem HasSize.toList_line (hg : g.HasSize width height) (hstep : 0 < step) {y : Nat}
    (hy : y < height) : (g.line step y).toList =
      (List.range (width ⌈/⌉ step)).map fun i => (g.cell (i * step) y).character := by
  rw [line, String.toList_ofList, hg.row_eq hy, Option.getD_some, List.toList_toArray,
    every_eq hstep _ .black, List.length_map,
    List.length_range, List.map_map]
  refine List.map_congr_left fun i hi => congrArg Cell.character ?_
  have hlt := mul_lt_of_lt_ceilDiv hstep (List.mem_range.mp hi)
  simp [hlt]

/-- **The lines of a picture** are those of every so many rows, from the highest down. -/
theorem linesBelow_eq (g : Grid) (hstep : 0 < step) (y : Nat) : g.linesBelow step y =
    (List.range (y ⌈/⌉ (2 * step))).map fun j => g.line step (y - 1 - 2 * step * j) := by
  fun_induction linesBelow g step y with
  | case1 => simp
  | case2 y hy ih =>
    have hstride : max (2 * step) 1 = 2 * step := Nat.max_eq_left (by omega)
    rw [hstride] at ih ⊢
    rw [ih, ceilDiv_eq_succ (n := y) (by omega) (by omega : 0 < 2 * step), List.range_succ_eq_map,
      List.map_cons, List.map_map]
    refine congrArg (_ :: ·) (List.map_congr_left fun j _ => congrArg (g.line step) ?_)
    rw [Nat.mul_succ]
    omega

theorem Valid.stride_eq (hg : g.Valid width height) (columns : Nat) :
    g.stride columns = width ⌈/⌉ max columns 1 ∧ 0 < width ⌈/⌉ max columns 1 := by
  have hpos : 0 < width ⌈/⌉ max columns 1 := by
    rw [ceilDiv_eq_succ hg.width_pos (Nat.le_max_right _ _)]
    exact Nat.succ_pos _
  rw [stride, hg.width_eq]
  exact ⟨Nat.max_eq_left hpos, hpos⟩

/-- **The text of a picture**: its lines, each with a line feed at its end. -/
theorem Valid.toList_picture (hg : g.Valid width height) (columns step : Nat)
    (hs : step = width ⌈/⌉ max columns 1) :
    (g.picture columns).toList = (List.range (height ⌈/⌉ (2 * step))).flatMap fun j =>
      ((List.range (width ⌈/⌉ step)).map fun i =>
        (g.cell (i * step) (height - 1 - 2 * step * j)).character) ++ ['\n'] := by
  obtain ⟨hstride, hstep⟩ := hg.stride_eq columns
  rw [← hs] at hstride hstep
  rw [picture, lines, hstride, hg.height_eq, g.linesBelow_eq hstep, String.toList_join,
    List.flatMap_map, List.flatMap_map]
  refine List.flatMap_congr fun j _ => ?_
  have hrow : height - 1 - 2 * step * j < height := by
    have hpos := hg.height_pos
    omega
  rw [String.toList_append, hg.toList_line hstep hrow]
  rfl

/-- **A picture samples a lattice.** Its text is one line for each of every so many rows of the
grid, from the highest down, each with one character for each of every so many columns and a line
feed at its end. The distance of the columns is the least with which the characters of a line are no
more than were asked for, and that of the rows is twice as much. The character is the one on the
ramp for the cell at that column and row, which are inside the grid; and no character on the ramp is
a line feed, so that there are no other lines. -/
theorem picture_samples (hg : g.Valid width height) (columns : Nat) :
    let most := max columns 1
    let step := width ⌈/⌉ most
    let across := width ⌈/⌉ step
    let down := height ⌈/⌉ (2 * step)
    (g.picture columns).toList = ((List.range down).flatMap fun j =>
        ((List.range across).map fun i =>
          (g.cell (i * step) (height - 1 - 2 * step * j)).character) ++ ['\n']) ∧
      (g.picture columns).toList.count '\n' = down ∧ across ≤ most ∧
      (∀ i < across, i * step < width) ∧ (∀ j < down, 2 * step * j ≤ height - 1) ∧
      (∀ c : Cell, c.character ∈ ramp) ∧ '\n' ∉ ramp := by
  intro most step across down
  have hstep : 0 < step := (hg.stride_eq columns).2
  have htext := hg.toList_picture columns step rfl
  refine ⟨htext, ?_, ?_, fun i hi => mul_lt_of_lt_ceilDiv hstep hi, fun j hj => ?_,
    Cell.character_mem_ramp, lineFeed_not_mem_ramp⟩
  · rw [htext]
    exact (Cell.count_lines _ _ _).trans List.length_range
  · have hwidth : width ≤ most • step := le_smul_ceilDiv (Nat.le_max_right columns 1)
    rw [smul_eq_mul, Nat.mul_comm] at hwidth
    exact (ceilDiv_le_iff_le_mul hstep).mpr hwidth
  · have hlt := mul_lt_of_lt_ceilDiv (Nat.mul_pos Nat.two_pos hstep) hj
    rw [Nat.mul_comm] at hlt
    exact Nat.le_sub_one_of_lt hlt

/-- **Five columns in three characters at most**: the picture shows every second column, and of the
three rows the highest only. -/
theorem picture_samples_wide :
    let g : Grid :=
      ⟨5, 3, Array.replicate 10 .white ++ #[.white, .black, .splat 0.5, .black, .black]⟩
    g.Valid 5 3 ∧ (g.picture 3).toList = ['@', '+', ' ', '\n'] := by
  intro g
  have hg : g.Valid 5 3 := ⟨⟨rfl, rfl, rfl⟩, by decide, by decide, by decide +kernel⟩
  refine ⟨hg, (picture_samples hg 3).1.trans ?_⟩
  decide +kernel

end Grid

end Moorland
