import Moorland.Proofs.Simulation.Command
/-!
# Guarded steps

The reading functions of this library are total: a cell that is not there is black, and a slot that
is not there holds the placeholder. A **guarded** function does the same work and gives up, with
`none`, wherever that would be needed. It gives up if

* a position lies outside the cells of a grid, or a slot outside the slots of a ring,
* a difference of sizes is below zero, or a sum or product of them does not fit in a word,
* a remainder is taken by zero, or rows have no cells,
* the slot that is lent out is read.

This file shows that a guarded step of a uniform ring does not give up and does what the step does
(`Moorland.Simulation.guardedStep_eq`), provided that the size has no zero and that the number of
cells fits in a word. Nothing that stands in for a missing cell or grid is then ever used.
-/

namespace Moorland

/-! ### Lists without a missing value -/

/-- A fold in which nothing is missing is a fold. -/
theorem foldlM_of_some {α β : Type} {f : β → α → Option β} {g : β → α → β} {as : List α}
    (h : ∀ a ∈ as, ∀ b, f b a = some (g b a)) (b : β) : as.foldlM f b = some (as.foldl g b) := by
  induction as generalizing b with
  | nil => rfl
  | cons a as ih =>
    rw [List.foldlM_cons, h a List.mem_cons_self b]
    exact ih (fun c hc => h c (List.mem_cons_of_mem a hc)) (g b a)

/-- A list is mapped without further ado if each of its elements is: none is missing, say. -/
theorem mapM_of_pure {m : Type → Type} [Monad m] [LawfulMonad m] {α β : Type} {f : α → m β}
    {g : α → β} {as : List α} (h : ∀ a ∈ as, f a = pure (g a)) : as.mapM f = pure (as.map g) := by
  induction as with
  | nil => rfl
  | cons a as ih =>
    rw [List.mapM_cons, h a List.mem_cons_self, ih fun b hb => h b (List.mem_cons_of_mem a hb),
      pure_bind, pure_bind]
    rfl

/-- A table by number, as an array. -/
theorem toArray_map_range {α : Type} (n : Nat) (f : Nat → α) :
    ((List.range n).map f).toArray = Array.ofFn fun i : Fin n => f i := by
  refine Array.ext (by simp) fun i h₁ h₂ => ?_
  rw [List.getElem_toArray, List.getElem_map, List.getElem_range, Array.getElem_ofFn]

/-! ### Numbers -/

/-- **A number that fits in a word.** -/
def guardedWord (n : Nat) : Option Nat := if n < UInt64.size then some n else none

/-- **A difference** that is not below zero. -/
def guardedSub (m n : Nat) : Option Nat := if n ≤ m then some (m - n) else none

/-- **A remainder** by a number that is not zero. -/
def guardedMod (m n : Nat) : Option Nat := if n = 0 then none else some (m % n)

theorem guardedWord_eq {n : Nat} (h : n < UInt64.size) : guardedWord n = some n := if_pos h

theorem guardedSub_eq {m n : Nat} (h : n ≤ m) : guardedSub m n = some (m - n) := if_pos h

theorem guardedMod_eq {m n : Nat} (h : 0 < n) : guardedMod m n = some (m % n) :=
  if_neg (Nat.pos_iff_ne_zero.mp h)

/-- The coordinates of a window along one axis. -/
def guardedRange (c length : Nat) : Option (List Nat) := do
  let next ← guardedWord (c + 1)
  let last ← guardedSub length 1
  return List.range' (windowLow c) (min next last + 1 - windowLow c)

theorem guardedRange_eq {c length : Nat} (hc : c < length) (hl : length < UInt64.size) :
    guardedRange c length = some (windowRange c length) := by
  rw [guardedRange, guardedWord_eq (by omega), guardedSub_eq (by omega)]
  rfl

/-! ### Grids -/

namespace Grid

/-- **The cell at a place**, if it is there. -/
def guardedCell (g : Grid) (x y : Nat) : Option Cell := do
  let start ← guardedWord (y * g.width)
  let i ← guardedWord (start + x)
  g.cells[i]?

/-- **The sums over the window of a place**, if all of its cells are there. -/
def guardedSums (g : Grid) (x y : Nat) : Option Cell := do
  let columns ← guardedRange x g.width
  columns.foldlM (fun acc i => do
    let rows ← guardedRange y g.height
    rows.foldlM (fun acc j => do return acc + (← g.guardedCell i j)) acc) .black

/-- The same cell one generation earlier, if that is kept. -/
def guardedPrevious (previous : Option Grid) (x y : Nat) : Option (Option Cell) :=
  match previous with
  | none => some none
  | some g => (g.guardedCell x y).map some

/-- **The next cell at a place**, if everything that it depends on is there. -/
def guardedNextCell (read : Grid) (previous : Option Grid) (law : Law) (x y : Nat) :
    Option Cell := do
  let sums ← read.guardedSums x y
  let proposed := law.thresholds.transition sums
  match law.rule with
  | none => return proposed
  | some rule =>
    return rule ⟨← read.guardedCell x y, proposed, sums, x, y, ← guardedPrevious previous x y⟩

/-- **The generation after a grid, written over another one** in rows of the width of the first:
cell number `i` is in row `i / width`, at column `i % width`. -/
def guardedAdvance (read : Grid) (previous : Option Grid) (write : Grid) (law : Law) :
    Option (Except Refusal Grid) :=
  match stepMismatch read previous write with
  | some cause => some (.error (.sizeMismatch cause))
  | none =>
    if read.width = 0 then none
    else do
      let cells ← (List.range write.cells.size).mapM fun i => do
        let c ← read.guardedNextCell previous law (i % read.width) (i / read.width)
        return c.clamped
      return .ok { write with cells := cells.toArray }

variable {read write g : Grid} {previous : Option Grid} {law : Law} {width height : Nat}

theorem HasSize.guardedCell_eq (hg : g.HasSize width height)
    (hsize : width * height < UInt64.size) {x y : Nat} (hx : x < width) (hy : y < height) :
    g.guardedCell x y = some (g.cell x y) := by
  -- the position is below the number of cells, and all steps towards it are below the position
  have hi : g.index x y < width * height := hg.size_cells ▸ hg.index_lt_size hx hy
  have hread := hg.getElem?_index hx hy
  rw [index] at hi hread
  rw [guardedCell, guardedWord_eq (n := y * g.width) (by omega)]
  change (guardedWord (y * g.width + x)).bind (g.cells[·]?) = _
  rw [guardedWord_eq (by omega)]
  exact hread

theorem HasSize.guardedSums_eq (hg : g.HasSize width height)
    (hsize : width * height < UInt64.size) {x y : Nat} (hx : x < width) (hy : y < height) :
    g.guardedSums x y = some (g.sums x y) := by
  have hw : width < UInt64.size :=
    Nat.lt_of_le_of_lt (Nat.le_mul_of_pos_right width (by omega)) hsize
  have hh : height < UInt64.size :=
    Nat.lt_of_le_of_lt (Nat.le_mul_of_pos_left height (by omega)) hsize
  have hcolumns : guardedRange x g.width = some (windowRange x g.width) := by
    rw [hg.width_eq]
    exact guardedRange_eq hx hw
  have hrows : guardedRange y g.height = some (windowRange y g.height) := by
    rw [hg.height_eq]
    exact guardedRange_eq hy hh
  rw [guardedSums, hcolumns]
  refine foldlM_of_some (fun i hi acc => ?_) Cell.black
  rw [hrows]
  refine foldlM_of_some (fun j hj acc => ?_) acc
  -- a window is clipped to the grid
  have hi' : i < width := hg.width_eq ▸ ((mem_windowRange (hg.width_eq.symm ▸ hx)).mp hi).1
  have hj' : j < height := hg.height_eq ▸ ((mem_windowRange (hg.height_eq.symm ▸ hy)).mp hj).1
  rw [hg.guardedCell_eq hsize hi' hj']
  rfl

theorem guardedPrevious_eq (hp : ∀ p ∈ previous, p.HasSize width height)
    (hsize : width * height < UInt64.size) {x y : Nat} (hx : x < width) (hy : y < height) :
    guardedPrevious previous x y = some (previous.map fun g => g.cell x y) := by
  rcases previous with _ | p
  · rfl
  · rw [guardedPrevious, (hp p rfl).guardedCell_eq hsize hx hy]
    rfl

theorem HasSize.guardedNextCell_eq (hr : read.HasSize width height)
    (hp : ∀ p ∈ previous, p.HasSize width height) (hsize : width * height < UInt64.size)
    {x y : Nat} (hx : x < width) (hy : y < height) :
    read.guardedNextCell previous law x y = some (read.nextCell previous law x y) := by
  rw [guardedNextCell, nextCell, hr.guardedSums_eq hsize hx hy]
  rcases law.rule with _ | rule
  · rfl
  · rw [hr.guardedCell_eq hsize hx hy, guardedPrevious_eq hp hsize hx hy]
    rfl

/-- **The guarded generation is the generation.** -/
theorem guardedAdvance_eq (hr : read.HasSize width height) (hw : write.HasSize width height)
    (hp : ∀ p ∈ previous, p.HasSize width height) (hpos : 0 < width)
    (hsize : width * height < UInt64.size) :
    read.guardedAdvance previous write law = some (.ok (read.generation previous law)) := by
  have hcells : (List.range write.cells.size).mapM (fun i => do
        let c ← read.guardedNextCell previous law (i % read.width) (i / read.width)
        return c.clamped) =
      some ((List.range write.cells.size).map fun i =>
        (read.nextCell previous law (i % read.width) (i / read.width)).clamped) := by
    refine mapM_of_pure fun i hi => ?_
    have hlt : i < width * height := hw.size_cells ▸ List.mem_range.mp hi
    obtain ⟨hx, hy, -⟩ := place_of_lt hlt
    rw [hr.width_eq, hr.guardedNextCell_eq hp hsize hx hy]
    rfl
  have hwritten : ({ write with
      cells := ((List.range write.cells.size).map fun i =>
        (read.nextCell previous law (i % read.width) (i / read.width)).clamped).toArray } : Grid) =
      read.generation previous law := by
    rw [toArray_map_range, hw.size_cells, hw.width_eq, hw.height_eq, generation, hr.width_eq,
      hr.height_eq]
  have hzero : read.width ≠ 0 := by
    rw [hr.width_eq]
    exact Nat.pos_iff_ne_zero.mp hpos
  rw [guardedAdvance, stepMismatch_eq_none hr hw hp]
  dsimp only
  rw [if_neg hzero, hcells]
  exact congrArg (fun g => some (Except.ok g)) hwritten

end Grid

/-! ### Rings -/

namespace Ring

/-- **The grid in a slot**, if there is one and it is not the slot that is lent out. -/
def unlent (r : Ring) (lent i : Nat) : Option Grid := if i = lent then none else r.slots[i]?

/-- The generation before the current one, if the ring keeps it, while a slot is lent out. -/
def guardedPrevious (r : Ring) (lent : Nat) : Option (Option Grid) :=
  match r.mode with
  | .double => some none
  | .lookback => do
    let last ← guardedSub (r.current + r.slots.size) 1
    let i ← guardedMod last r.slots.size
    (r.unlent lent i).map some

/-- **Write the next generation into the next slot and make that current**, without a grid in that
slot while it is written. -/
def guardedTurn (r : Ring) (law : Law) : Option (Ring × Option Refusal) := do
  let next ← guardedMod (r.current + 1) r.slots.size
  let target ← r.slots[next]?
  -- from here on the slot is empty
  let read ← r.unlent next r.current
  let previous ← r.guardedPrevious next
  match ← read.guardedAdvance previous target law with
  | .ok written => return ({ r.withSlot next written with current := next }, none)
  | .error refusal => return (r, some refusal)

variable {r : Ring} {width height : Nat}

namespace Shaped

theorem unlent_eq (hr : r.Shaped) {lent i : Nat} (hi : i < r.mode.slots) (hl : lent ≠ i) :
    r.unlent lent i = some (r.slot i) := by
  rw [unlent, if_neg hl.symm, hr.getElem?_slots hi]

theorem guardedPrevious_eq (hr : r.Shaped) :
    r.guardedPrevious r.nextIndex = some r.previousGrid := by
  have hpos : 0 < r.slots.size := hr.size_slots ▸ slots_pos _
  rcases hm : r.mode with _ | _
  · rw [previousGrid_of_double hm]
    simp only [guardedPrevious, hm]
  · rw [previousGrid_of_lookback hm]
    simp only [guardedPrevious, hm]
    -- with three slots, the one that is lent out is not the one before the current one
    rw [guardedSub_eq (by omega), Option.bind_eq_bind, Option.bind_some, guardedMod_eq hpos]
    change (r.unlent r.nextIndex r.previousIndex).map some = _
    rw [hr.unlent_eq hr.previousIndex_lt (hr.nextIndex_ne_previousIndex hm)]
    rfl

/-- **The guarded step of a ring is its step**, if the guarded generation is the generation. -/
theorem guardedTurn_eq (hr : r.Shaped) {law : Law}
    (hadvance : r.currentGrid.guardedAdvance r.previousGrid (r.slot r.nextIndex) law =
      some (r.currentGrid.advance r.previousGrid (r.slot r.nextIndex) law)) :
    r.guardedTurn law = some (r.turn law) := by
  have hnext : guardedMod (r.current + 1) r.slots.size = some r.nextIndex :=
    guardedMod_eq (hr.size_slots ▸ slots_pos _)
  have hread : r.unlent r.nextIndex r.current = some r.currentGrid :=
    hr.unlent_eq hr.current_lt hr.nextIndex_ne_current
  rw [hr.turn_eq, guardedTurn, hnext]
  simp only [Option.bind_eq_bind, Option.bind_some, hr.getElem?_slots hr.nextIndex_lt, hread,
    hr.guardedPrevious_eq]
  rw [hadvance]
  rcases r.currentGrid.advance r.previousGrid (r.slot r.nextIndex) law with refusal | written
  · rfl
  · rfl

end Shaped

/-- **The guarded step of a uniform ring is its step.** -/
theorem Uniform.guardedTurn_eq (hr : r.Uniform width height) (hpos : 0 < width)
    (hsize : width * height < UInt64.size) (law : Law) :
    r.guardedTurn law = some (r.turn law) := by
  have hnext := hr.hasSize _ hr.shaped.nextIndex_lt
  refine hr.shaped.guardedTurn_eq ?_
  rw [Grid.guardedAdvance_eq hr.currentGrid hnext hr.previousGrid hpos hsize,
    Grid.advance_eq hr.currentGrid hnext hr.previousGrid]

end Ring

/-! ### Simulations -/

namespace Simulation

/-- **Advance one generation.** The number of the step is divided by the interval of the summaries
if the step is not refused. -/
def guardedStep (s : Simulation) : Option (Answer Unit) := do
  let turned ← s.ring.guardedTurn s.law
  if turned.2 = none ∧ s.metrics.interval = 0 then none else return s.settle turned

/-- **Advance `n` generations**, up to the first that is refused. -/
def guardedSteps (s : Simulation) : (n : Nat) → Option (Answer Unit)
  | 0 => some (.ok (), s)
  | n + 1 => do
    match ← s.guardedStep with
    | (.ok (), s) => guardedSteps s n
    | (.error refusal, s) => return (.error refusal, s)

variable {s : Simulation} {width height : Nat}

/-- **The guarded step of a simulation is its step.** -/
theorem guardedStep_eq (hs : s.ring.Uniform width height) (hi : s.metrics.interval ≠ 0)
    (hpos : 0 < width) (hsize : width * height < UInt64.size) : s.guardedStep = some s.step := by
  rw [guardedStep, hs.guardedTurn_eq hpos hsize, step]
  exact if_neg fun h => hi h.2

/-- **The guarded steps of a simulation are its steps.** -/
theorem guardedSteps_eq (hs : s.ring.Uniform width height) (hi : s.metrics.interval ≠ 0)
    (hpos : 0 < width) (hsize : width * height < UInt64.size) (n : Nat) :
    s.guardedSteps n = some (s.steps n) := by
  induction n generalizing s with
  | zero => rfl
  | succ n ih =>
    have hinterval : s.step.2.metrics.interval ≠ 0 := by
      rw [step_eq hs]
      exact (Metrics.interval_recordStep _ _ _ _).symm ▸ hi
    have hrest := ih (uniform_step hs) hinterval
    rw [guardedSteps, guardedStep_eq hs hi hpos hsize, steps_succ hs, ← hrest, step_eq hs]
    rfl

end Simulation

end Moorland
