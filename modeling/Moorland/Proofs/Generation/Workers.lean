import Moorland.Proofs.Generation.Pointwise
/-!
# Rows and workers

The cells of a grid are stored in one list. To write the next generation over a grid its list is cut
into rows (`Moorland.rowsOf`), and each row is written from its first cell to its last. The rows may
be taken in order by one worker (`Moorland.Grid.advanceByRows`), or be handed out to several, who
write at the same time (`Moorland.Grid.advanceBy`): what happens then is one list of single writes,
the schedule, in which the writes of each worker come in their order (`Moorland.Interleaving`).

The main statement, `Moorland.Grid.advance_pointwise`, is that all of this comes to the same grid,
which is given place by place. Two things carry it.

* **The rows are the rows of the grid**: offset `x` of row `y` is the cell at place `(x, y)`. This
  is said of the list after writing (`Moorland.getElem?_flatten`), for rows of one length.
* **A schedule is known by its places.** A write depends on its place only, and not on what other
  writes have left, so that after a schedule each of its places holds what belongs there, and every
  other place what it held before (`Moorland.pick_work`).
-/

namespace Moorland

variable {α : Type} {width height : Nat}

/-! ### Rows of a list -/

/-- **The rows of a list**: runs of `width` elements, from the first on. If the elements do not come
out even, the last row is shorter. -/
def rowsOf (width : Nat) : List α → List (List α)
  | [] => []
  | a :: as => (a :: as.take (width - 1)) :: rowsOf width (as.drop (width - 1))
termination_by as => as.length
decreasing_by simp only [List.length_drop, List.length_cons]; omega

/-- The element at an offset of a row, if it is there. -/
def pick (rows : List (List α)) (x y : Nat) : Option α := rows[y]?.bind fun row => row[x]?

/-- **The rows are those of a rectangle**: so many, and each of the same length. -/
structure Rectangular (rows : List (List α)) (width height : Nat) : Prop where
  /-- The number of rows. -/
  length_eq : rows.length = height
  /-- The length of each row. -/
  length_row : ∀ row ∈ rows, row.length = width

variable {rows : List (List α)}

/-- **As many elements as a rectangle has places** are cut into its rows. -/
theorem rectangular_rowsOf (hw : 0 < width) {as : List α} (h : as.length = width * height) :
    Rectangular (rowsOf width as) width height := by
  induction height generalizing as with
  | zero =>
    obtain rfl : as = [] := List.eq_nil_of_length_eq_zero h
    rw [rowsOf]
    exact ⟨rfl, nofun⟩
  | succ height ih =>
    rw [Nat.mul_succ] at h
    obtain ⟨a, as, rfl⟩ : ∃ a bs, as = a :: bs :=
      List.exists_cons_of_length_pos (by omega)
    rw [List.length_cons] at h
    -- the rest is as long as the rectangle without its first row
    have hrest := @ih (as.drop (width - 1)) (by rw [List.length_drop]; omega)
    rw [rowsOf]
    refine ⟨congrArg (· + 1) hrest.length_eq, fun row hrow => ?_⟩
    rcases List.mem_cons.mp hrow with rfl | hrow
    · rw [List.length_cons, List.length_take]
      omega
    · exact hrest.length_row row hrow

/-- **Offset `x` of row `y` is element number `y * width + x`** of the list. -/
theorem getElem?_flatten (h : ∀ row ∈ rows, row.length = width) {x : Nat} (hx : x < width)
    (y : Nat) : rows.flatten[y * width + x]? = pick rows x y := by
  induction rows generalizing y with
  | nil => rfl
  | cons row rows ih =>
    have hrow : row.length = width := h row List.mem_cons_self
    have hrest := ih fun r hr => h r (List.mem_cons_of_mem row hr)
    rw [List.flatten_cons]
    cases y with
    | zero =>
      rw [Nat.zero_mul, Nat.zero_add, List.getElem?_append_left (hrow ▸ hx)]
      rfl
    | succ y =>
      have hi : (y + 1) * width + x = width + (y * width + x) := by
        rw [Nat.succ_mul]
        omega
      rw [hi, List.getElem?_append_right (by omega), hrow, Nat.add_sub_cancel_left, hrest y]
      rfl

theorem Rectangular.length_flatten (h : Rectangular rows width height) :
    rows.flatten.length = width * height := by
  obtain ⟨rfl, hrow⟩ := h
  induction rows with
  | nil => rfl
  | cons row rows ih =>
    rw [List.flatten_cons, List.length_append, hrow row List.mem_cons_self,
      ih fun r hr => hrow r (List.mem_cons_of_mem row hr), List.length_cons, Nat.mul_succ,
      Nat.add_comm]

theorem Rectangular.exists_pick (h : Rectangular rows width height) {x y : Nat} (hx : x < width)
    (hy : y < height) : ∃ a, pick rows x y = some a := by
  obtain ⟨rfl, hrow⟩ := h
  have hlt : x < rows[y].length := by rw [hrow _ (List.getElem_mem hy)]; exact hx
  refine ⟨rows[y][x], ?_⟩
  rw [pick, List.getElem?_eq_getElem hy, Option.bind_some, List.getElem?_eq_getElem hlt]

/-! ### Writing in rows -/

/-- Write at an offset of a row. -/
def writeRow (rows : List (List α)) (x y : Nat) (a : α) : List (List α) :=
  rows.modify y fun row => row.set x a

theorem pick_writeRow (rows : List (List α)) (u v x y : Nat) (a : α) :
    pick (writeRow rows u v a) x y =
      if (u, v) = (x, y) then (pick rows x y).map fun _ => a else pick rows x y := by
  rw [pick, pick, writeRow, List.getElem?_modify]
  rcases rows[y]? with _ | row
  · exact (ite_self _).symm
  · by_cases hv : v = y
    · by_cases hu : u = x
      · subst hv hu
        simp only [Option.map_eq_map, Option.map_some, Option.bind_some, List.getElem?_set', if_pos]
        rfl
      · simp [hv, hu]
    · simp [hv]

theorem Rectangular.writeRow (h : Rectangular rows width height) (x y : Nat) (a : α) :
    Rectangular (writeRow rows x y a) width height := by
  refine ⟨(List.length_modify _ _ _).trans h.length_eq, fun row hrow => ?_⟩
  obtain ⟨i, hi⟩ := List.mem_iff_getElem?.mp hrow
  rw [Moorland.writeRow, List.getElem?_modify, Option.map_eq_map, Option.map_eq_some_iff] at hi
  obtain ⟨old, hold, rfl⟩ := hi
  have hlength := h.length_row old (List.mem_of_getElem? hold)
  split
  · rwa [List.length_set]
  · exact hlength

/-- **Write a list of places**, at each of them what a table says. -/
def work (f : Nat → Nat → α) (schedule : List (Nat × Nat)) (rows : List (List α)) :
    List (List α) :=
  schedule.foldl (fun rows (x, y) => writeRow rows x y (f x y)) rows

/-- **After a schedule each of its places holds what the table says**, and every other place what it
held before. -/
theorem pick_work (f : Nat → Nat → α) (schedule : List (Nat × Nat)) (rows : List (List α))
    (x y : Nat) :
    pick (work f schedule rows) x y =
      if (x, y) ∈ schedule then (pick rows x y).map fun _ => f x y else pick rows x y := by
  induction schedule generalizing rows with
  | nil => rfl
  | cons p schedule ih =>
    obtain ⟨u, v⟩ := p
    change pick (work f schedule (writeRow rows u v (f u v))) x y = _
    rw [ih, pick_writeRow]
    -- a place that comes again later is written again, with the same value
    by_cases hp : (u, v) = (x, y)
    · obtain ⟨rfl, rfl⟩ := Prod.mk.inj hp
      rw [if_pos rfl, if_pos List.mem_cons_self, Option.map_map]
      exact ite_self _
    · simp only [if_neg hp, List.mem_cons, Ne.symm hp, false_or]

theorem Rectangular.work (h : Rectangular rows width height) (f : Nat → Nat → α)
    (schedule : List (Nat × Nat)) : Rectangular (work f schedule rows) width height :=
  List.foldlRecOn (motive := fun rows => Rectangular rows width height) schedule _ h
    fun _ hrows p _ => hrows.writeRow p.1 p.2 _

/-- **Write row after row**, each from its first element to its last. -/
def fillRows (f : Nat → Nat → α) (rows : List (List α)) : List (List α) :=
  rows.mapIdx fun y row => row.mapIdx fun x _ => f x y

theorem pick_fillRows (f : Nat → Nat → α) (rows : List (List α)) (x y : Nat) :
    pick (fillRows f rows) x y = (pick rows x y).map fun _ => f x y := by
  rw [pick, pick, fillRows, List.getElem?_mapIdx]
  rcases rows[y]? with _ | row
  · rfl
  · exact List.getElem?_mapIdx

theorem Rectangular.fillRows (h : Rectangular rows width height) (f : Nat → Nat → α) :
    Rectangular (fillRows f rows) width height := by
  refine ⟨List.length_mapIdx.trans h.length_eq, fun row hrow => ?_⟩
  obtain ⟨y, hy, rfl⟩ := List.mem_mapIdx.mp hrow
  rw [List.length_mapIdx]
  exact h.length_row _ (List.getElem_mem hy)

/-! ### Workers -/

/-- **The jobs that make up a schedule.** Each worker does the items of its job in their order, and
any worker who has an item left may be next. -/
inductive Interleaving : List (List α) → List α → Prop
  /-- All jobs are done. -/
  | done {jobs : List (List α)} (h : ∀ job ∈ jobs, job = []) : Interleaving jobs []
  /-- Some worker does the next item of its job. -/
  | next {before after : List (List α)} {a : α} {job schedule : List α}
      (h : Interleaving (before ++ job :: after) schedule) :
      Interleaving (before ++ (a :: job) :: after) (a :: schedule)

/-- **A schedule consists of the items of its jobs**, each as often as it is there. -/
theorem Interleaving.perm {jobs : List (List α)} {schedule : List α}
    (h : Interleaving jobs schedule) : schedule.Perm jobs.flatten := by
  induction h with
  | done h => rw [List.flatten_eq_nil_iff.mpr h]
  | next _ ih =>
    rw [List.flatten_append, List.flatten_cons] at ih ⊢
    exact (ih.cons _).trans List.perm_middle.symm

/-- The jobs of the rows: a row is one job, from its first element to its last. -/
def rowJobs (rows : List (List α)) : List (List (Nat × Nat)) :=
  rows.mapIdx fun y row => (List.range row.length).map fun x => (x, y)

theorem Rectangular.flatten_rowJobs (h : Rectangular rows width height) :
    (rowJobs rows).flatten = (List.range height).flatMap fun y =>
      (List.range width).map fun x => (x, y) := by
  rw [List.flatMap_def, rowJobs]
  congr 1
  refine List.ext_getElem (by rw [List.length_mapIdx, List.length_map, List.length_range,
    h.length_eq]) fun y h₁ h₂ => ?_
  rw [List.getElem_mapIdx, List.getElem_map, List.getElem_range,
    h.length_row _ (List.getElem_mem _)]

/-! ### Grids written in rows -/

namespace Grid

variable {read write : Grid} {previous : Option Grid} {law : Law}

/-- The grid with the cells of rows, one row after the other. -/
def withRows (g : Grid) (rows : List (List Cell)) : Grid :=
  { g with cells := rows.flatten.toArray }

theorem hasSize_withRows (hw : write.HasSize width height) {rows : List (List Cell)}
    (h : Rectangular rows width height) : (write.withRows rows).HasSize width height :=
  ⟨hw.width_eq, hw.height_eq, h.length_flatten⟩

theorem cell_withRows (hw : write.width = width) {rows : List (List Cell)}
    (h : Rectangular rows width height) {x y : Nat} (hx : x < width) :
    (write.withRows rows).cell x y = (pick rows x y).getD .black := by
  have hi : (write.withRows rows).index x y = y * width + x := by
    rw [index, ← hw]
    rfl
  rw [cell, hi, Array.getD_eq_getD_getElem?]
  change (rows.flatten.toArray[y * width + x]?).getD .black = _
  rw [List.getElem?_toArray, getElem?_flatten h.length_row hx]

/-- **The generation after a grid, written over another one in the order of a schedule.** A grid is
left as it was if the sizes do not go together. -/
def advanceBy (read : Grid) (previous : Option Grid) (write : Grid) (law : Law)
    (schedule : List (Nat × Nat)) : Grid × Option Refusal :=
  match stepMismatch read previous write with
  | some cause => (write, some (.sizeMismatch cause))
  | none =>
    let next (x y : Nat) : Cell := (read.nextCell previous law x y).clamped
    (write.withRows (work next schedule (rowsOf read.width write.cells.toList)), none)

/-- **The generation after a grid, written over another one row after row.** A grid is left as it
was if the sizes do not go together. -/
def advanceByRows (read : Grid) (previous : Option Grid) (write : Grid) (law : Law) :
    Grid × Option Refusal :=
  match stepMismatch read previous write with
  | some cause => (write, some (.sizeMismatch cause))
  | none =>
    let next (x y : Nat) : Cell := (read.nextCell previous law x y).clamped
    (write.withRows (fillRows next (rowsOf read.width write.cells.toList)), none)

theorem HasSize.rectangular (hw : write.HasSize width height) (hpos : 0 < width) :
    Rectangular (rowsOf width write.cells.toList) width height :=
  rectangular_rowsOf hpos hw.size_cells

theorem withRows_eq_generation (hr : read.HasSize width height) (hw : write.HasSize width height)
    {rows : List (List Cell)} (h : Rectangular rows width height)
    (hrows : ∀ x y, x < width → y < height →
      pick rows x y = some (read.nextCell previous law x y).clamped) :
    write.withRows rows = read.generation previous law := by
  refine (hasSize_withRows hw h).ext (hr.generation previous law) fun x y hx hy => ?_
  rw [cell_withRows hw.width_eq h hx, hrows x y hx hy, Option.getD_some,
    cell_generation (hr.width_eq.symm ▸ hx) (hr.height_eq.symm ▸ hy)]

/-- **Row after row** gives the generation. -/
theorem advanceByRows_eq (hr : read.HasSize width height) (hw : write.HasSize width height)
    (hp : ∀ p ∈ previous, p.HasSize width height) (hpos : 0 < width) :
    read.advanceByRows previous write law = (read.generation previous law, none) := by
  have hrows := hw.rectangular hpos
  simp only [advanceByRows, stepMismatch_eq_none hr hw hp, hr.width_eq]
  refine congrArg (·, none) (withRows_eq_generation hr hw (hrows.fillRows _) fun x y hx hy => ?_)
  obtain ⟨c, hc⟩ := hrows.exists_pick hx hy
  rw [pick_fillRows, hc, Option.map_some]

/-- **Any schedule with all places** gives the generation. -/
theorem advanceBy_eq (hr : read.HasSize width height) (hw : write.HasSize width height)
    (hp : ∀ p ∈ previous, p.HasSize width height) (hpos : 0 < width)
    {schedule : List (Nat × Nat)} (hs : ∀ x y, x < width → y < height → (x, y) ∈ schedule) :
    read.advanceBy previous write law schedule = (read.generation previous law, none) := by
  have hrows := hw.rectangular hpos
  simp only [advanceBy, stepMismatch_eq_none hr hw hp, hr.width_eq]
  refine congrArg (·, none) (withRows_eq_generation hr hw (hrows.work _ _) fun x y hx hy => ?_)
  obtain ⟨c, hc⟩ := hrows.exists_pick hx hy
  rw [pick_work, if_pos (hs x y hx hy), hc, Option.map_some]

theorem next_eq (hr : read.HasSize width height) (hw : 0 < width) (hh : 0 < height) :
    read.next law = .ok (read.generation none law) := by
  have hblack : black read.width read.height =
      .ok ⟨width, height, Array.replicate (width * height) Cell.black.clamped⟩ := by
    rw [hr.width_eq, hr.height_eq]
    exact filled_eq_ok_iff.mpr ⟨hw, hh, rfl⟩
  rw [next, hblack]
  exact advance_eq hr (hasSize_filled (hr.width_eq ▸ hr.height_eq ▸ hblack)) nofun

theorem exists_stepMismatch
    (h : ¬(read.sameSize write = true ∧ ∀ p ∈ previous, read.sameSize p = true)) :
    ∃ cause, stepMismatch read previous write = some cause :=
  Option.ne_none_iff_exists'.mp fun hnone => h (stepMismatch_eq_none_iff.mp hnone)

/-- **The generation after a grid, place by place.** There is one grid whose cell at each place is
what the rule makes of the place, or what the thresholds propose there if there is no rule, in
stored form. It is what is written over any grid of the same size, whatever that held: place after
place, row after row, and by any number of workers who divide the places among themselves, in
whatever order they come to write – a worker for each row, for instance, since the rows have all
places. It is the next generation if none is kept from before. If the sizes do not go together, all
of these are refused and leave the grid as it was. -/
theorem advance_pointwise (hr : read.IsFull) (hx : 0 < read.width) (hy : 0 < read.height)
    (previous : Option Grid) (law : Law) :
    ((∀ p ∈ previous, p.HasSize read.width read.height) → ∃ g : Grid,
      g.HasSize read.width read.height ∧
      (∀ x y, x < read.width → y < read.height →
        g.cell x y = Cell.clamped (match law.rule with
          | none => law.thresholds.transition (read.sums x y)
          | some rule => rule
            { cell := read.cell x y, proposed := law.thresholds.transition (read.sums x y),
              sums := read.sums x y, x, y, previous := previous.map fun p => p.cell x y })) ∧
      (∀ write : Grid, write.HasSize read.width read.height →
        read.advance previous write law = .ok g ∧
        read.advanceByRows previous write law = (g, none) ∧
        (rowJobs (rowsOf read.width write.cells.toList)).flatten = read.places ∧
        ∀ jobs schedule, jobs.flatten.Perm read.places → Interleaving jobs schedule →
          read.advanceBy previous write law schedule = (g, none)) ∧
      (previous = none → read.next law = .ok g)) ∧
    ∀ write : Grid, ¬(read.sameSize write = true ∧ ∀ p ∈ previous, read.sameSize p = true) →
      ∃ cause, read.advance previous write law = .error (.sizeMismatch cause) ∧
        read.advanceByRows previous write law = (write, some (.sizeMismatch cause)) ∧
        ∀ schedule, read.advanceBy previous write law schedule =
          (write, some (.sizeMismatch cause)) := by
  refine ⟨fun hp => ⟨read.generation previous law, hr.generation previous law, ?_, ?_, ?_⟩, ?_⟩
  · intro x y hx hy
    rw [cell_generation hx hy]
    rcases hrule : law.rule with _ | rule <;> simp only [nextCell, hrule]
  · intro write hw
    refine ⟨advance_eq hr hw hp, advanceByRows_eq hr hw hp hx,
      (hw.rectangular hx).flatten_rowJobs, fun jobs schedule hjobs hschedule => ?_⟩
    refine advanceBy_eq hr hw hp hx fun x y hx hy => ?_
    exact ((hschedule.perm.trans hjobs).mem_iff).mpr (mem_places.mpr ⟨hx, hy⟩)
  · rintro rfl
    exact next_eq hr hx hy
  · intro write h
    obtain ⟨cause, hcause⟩ := exists_stepMismatch h
    refine ⟨cause, ?_, ?_, fun schedule => ?_⟩
    · rw [advance, hcause]
    · rw [advanceByRows, hcause]
    · rw [advanceBy, hcause]

/-- Two workers with a row each, of whom the one with the upper row begins and ends, and a rule that
brings back the cells of the generation before. -/
theorem advance_pointwise_two_workers :
    let read : Grid := ⟨2, 2, #[.white, .black, .black, .white]⟩
    let before : Grid := ⟨2, 2, #[.black, .white, .splat 0.5, .black]⟩
    let write : Grid := ⟨2, 2, #[.white, .white, .white, .white]⟩
    let law : Law := ⟨⟨2, 3⟩, some fun s => s.previous.getD s.proposed⟩
    let schedule : List (Nat × Nat) := [(0, 1), (0, 0), (1, 0), (1, 1)]
    ∃ g : Grid, g.cell 0 1 = .splat 0.5 ∧ g.cell 1 0 = .white ∧
      read.advance (some before) write law = .ok g ∧
      read.advanceBy (some before) write law schedule = (g, none) := by
  intro read before write law schedule
  have hjobs : Interleaving [[(0, 0), (1, 0)], [(0, 1), (1, 1)]] schedule :=
    @Interleaving.next _ [[(0, 0), (1, 0)]] [] _ _ _ <| @Interleaving.next _ [] [[(1, 1)]] _ _ _ <|
      @Interleaving.next _ [] [[(1, 1)]] _ _ _ <| @Interleaving.next _ [[]] [] _ _ _ <|
        .done (by decide)
  have hread : read.IsFull := ⟨rfl, rfl, rfl⟩
  obtain ⟨hfilled, -⟩ := advance_pointwise hread (by decide) (by decide) (some before) law
  obtain ⟨g, -, hcell, hwritten, -⟩ := hfilled (by rintro _ ⟨⟩; exact ⟨rfl, rfl, rfl⟩)
  obtain ⟨hadvance, -, -, hworkers⟩ := hwritten write ⟨rfl, rfl, rfl⟩
  exact ⟨g, (hcell 0 1 (by decide) (by decide)).trans (by decide),
    (hcell 1 0 (by decide) (by decide)).trans (by decide), hadvance,
    hworkers _ schedule (List.Perm.refl _) hjobs⟩

end Grid

end Moorland
