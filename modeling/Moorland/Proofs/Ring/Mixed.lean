import Moorland.Proofs.Guarded
import Moorland.Proofs.Ring.History
/-!
# Rings of mixed sizes

A ring is made of grids of one size. The current grid may be edited, though, and an edit may put a
grid of another size in its place; after a step or two the slots then hold grids of several sizes.
This file is about all rings that can be **reached** (`Moorland.Ring.Reachable`), by any operations
and refused ones included.

What is left of uniformity is that the slots are those of the mode and that each of them holds a
grid that could have been made (`Moorland.Ring.Stocked`). This is enough for a step, which goes
through if the grids that take part in it have one size and changes nothing otherwise
(`Moorland.Ring.Reachable.turn_atomic`): only the slot that is lent out is written, and it is put
back. It is not enough for the replacement of all grids. The slots are overwritten one after the
other, so that a slot of another size leaves the ring with the new grid in the slots before it
(`Moorland.Ring.resetTo_in_order`), and a ring that has refused a grid may no longer be
the one it was (`Moorland.Ring.resetTo_refused_midway`).
-/

namespace Moorland

/-! ### Grids that can be made -/

namespace Grid

/-- **A grid that can be made**: it has its size, which is not zero, and the number of its cells
fits in a word. -/
structure IsProper (g : Grid) : Prop where
  /-- It holds a cell for each place. -/
  isFull : g.IsFull
  /-- There is a column. -/
  width_pos : 0 < g.width
  /-- The number of cells fits in a word. -/
  size_lt : g.width * g.height < UInt64.size

variable {g h : Grid}

/-- A proper grid of the size of another has the width and the height of that one. -/
theorem IsProper.hasSize (hh : h.IsProper) (hs : g.sameSize h = true) :
    h.HasSize g.width g.height := by
  obtain ⟨hw, hl⟩ := sameSize_iff.mp hs
  exact hh.isFull.hasSize hw.symm hl.symm

theorem IsProper.generation (hg : g.IsProper) (previous : Option Grid) (law : Law) :
    (g.generation previous law).IsProper :=
  ⟨(HasSize.generation hg.isFull previous law).isFull, hg.width_pos, hg.size_lt⟩

theorem isProper_filled {width height : Nat} {c : Cell} (hg : filled width height c = .ok g)
    (hsize : width * height < UInt64.size) : g.IsProper := by
  have hs := hasSize_filled hg
  obtain ⟨hw, -, -⟩ := filled_eq_ok_iff.mp hg
  refine ⟨hs.isFull, hs.width_eq ▸ hw, ?_⟩
  rw [hs.width_eq, hs.height_eq]
  exact hsize

/-- **Proper grids go together or not**: the next generation is computed if they do, and the step is
refused for their sizes otherwise. No cell is missing in either case. -/
theorem IsProper.advance_eq {read write : Grid} {previous : Option Grid} (hr : read.IsProper)
    (hw : write.IsProper) (hp : ∀ p ∈ previous, p.IsProper) (law : Law) :
    read.advance previous write law =
        (match stepMismatch read previous write with
          | none => .ok (read.generation previous law)
          | some cause => .error (.sizeMismatch cause)) ∧
      read.guardedAdvance previous write law = some (read.advance previous write law) := by
  rcases hm : stepMismatch read previous write with _ | cause
  · -- all three have the size of the one that is read
    obtain ⟨hrw, hrp⟩ := stepMismatch_eq_none_iff.mp hm
    have hsize : write.HasSize read.width read.height := hw.hasSize hrw
    have hsizes : ∀ p ∈ previous, p.HasSize read.width read.height :=
      fun p hmem => (hp p hmem).hasSize (hrp p hmem)
    have hadvance : read.advance previous write law = .ok (read.generation previous law) :=
      Grid.advance_eq hr.isFull hsize hsizes
    refine ⟨hadvance, ?_⟩
    rw [hadvance, guardedAdvance_eq hr.isFull hsize hsizes hr.width_pos hr.size_lt]
  · refine ⟨?_, ?_⟩
    · rw [advance, hm]
    · rw [guardedAdvance, advance, hm]

end Grid

namespace Ring

/-! ### Rings that can be reached -/

/-- **The operation makes proper grids** of proper grids, of whatever size. What is given to replace
all grids need not be one. -/
def Operation.IsProper : Operation → Prop
  | .step _ => True
  | .resetTo g => g.IsProper
  | .reseed fill => ∀ g : Grid, g.IsProper → (fill g).IsProper
  | .edit change => ∀ g : Grid, g.IsProper → (change g).IsProper

/-- **A ring that can be reached.** -/
inductive Reachable : Ring → Prop
  /-- A ring without population. -/
  | black {r : Ring} {width height : Nat} {mode : BufferMode}
      (hr : Ring.black width height mode = .ok r) (hsize : width * height < UInt64.size) :
      Reachable r
  /-- A ring of given grids. -/
  | ofGrids {r : Ring} {grids : List Grid} (hgrids : ∀ g ∈ grids, g.IsProper)
      (hr : Ring.ofGrids grids = .ok r) : Reachable r
  /-- A ring after an operation, also after one that was refused. -/
  | perform {r : Ring} {op : Operation} (hr : Reachable r) (hop : op.IsProper) :
      Reachable (r.perform op).1

/-- **A stocked ring**: the slots of its mode, one of them current, and a proper grid in each. -/
structure Stocked (r : Ring) : Prop extends Shaped r where
  /-- All grids are proper. -/
  proper : ∀ i < r.mode.slots, (r.slot i).IsProper

variable {r : Ring}

namespace Stocked

theorem withSlot (hr : r.Stocked) {g : Grid} (hg : g.IsProper) (i : Nat) :
    (r.withSlot i g).Stocked := by
  refine ⟨⟨(size_slots_withSlot r i g).trans hr.size_slots, hr.current_lt⟩, fun j hj => ?_⟩
  rw [slot_withSlot]
  split
  · exact hg
  · exact hr.proper j hj

theorem currentGrid (hr : r.Stocked) : r.currentGrid.IsProper := hr.proper _ hr.current_lt

theorem previousGrid (hr : r.Stocked) : ∀ p ∈ r.previousGrid, p.IsProper := by
  intro p hp
  rw [Ring.previousGrid] at hp
  split at hp
  · cases hp
  · cases hp
    exact hr.proper _ hr.previousIndex_lt

/-- **A step of a stocked ring**, by the sizes of the grids that take part in it. -/
theorem turn_eq (hr : r.Stocked) (law : Law) :
    r.turn law =
      match Grid.stepMismatch r.currentGrid r.previousGrid (r.slot r.nextIndex) with
      | none => (r.advanced law, none)
      | some cause => (r, some (.sizeMismatch cause)) := by
  rw [hr.toShaped.turn_eq, (hr.currentGrid.advance_eq (hr.proper _ hr.nextIndex_lt)
    hr.previousGrid law).1]
  rcases Grid.stepMismatch r.currentGrid r.previousGrid (r.slot r.nextIndex) with _ | cause
  · rfl
  · rfl

/-- **The guarded step of a stocked ring is its step.** -/
theorem guardedTurn_eq (hr : r.Stocked) (law : Law) : r.guardedTurn law = some (r.turn law) :=
  hr.toShaped.guardedTurn_eq (hr.currentGrid.advance_eq (hr.proper _ hr.nextIndex_lt)
    hr.previousGrid law).2

theorem advanced (hr : r.Stocked) (law : Law) : (r.advanced law).Stocked := by
  have hw := hr.withSlot (hr.currentGrid.generation r.previousGrid law) r.nextIndex
  exact ⟨⟨hw.size_slots, hr.nextIndex_lt⟩, hw.proper⟩

theorem overwritten (hr : r.Stocked) {g : Grid} (hg : g.IsProper) (n : Nat) :
    (r.overwritten g n).Stocked := by
  refine ⟨⟨Array.size_ofFn.trans hr.size_slots, hr.current_lt⟩, fun i hi => ?_⟩
  rw [slot_overwritten (hr.size_slots ▸ hi)]
  split
  · exact hg
  · exact hr.proper i hi

end Stocked

/-! ### Replacing all grids -/

/-- **The number of slots before the first that refuses a grid.** -/
def fitting (r : Ring) (g : Grid) : Nat := r.slots.findIdx fun s => !s.sameSize g

theorem fitting_le (r : Ring) (g : Grid) : r.fitting g ≤ r.slots.size := Array.findIdx_le_size

theorem sameSize_of_lt_fitting {g : Grid} {i : Nat} (hi : i < r.fitting g) :
    (r.slot i).sameSize g = true := by
  rw [slot_eq_getElem (Nat.lt_of_lt_of_le hi (r.fitting_le g))]
  simpa using Array.not_of_lt_findIdx hi

theorem not_sameSize_fitting {g : Grid} (h : r.fitting g < r.slots.size) :
    (r.slot (r.fitting g)).sameSize g = false := by
  rw [slot_eq_getElem h]
  exact (Bool.not_eq_true' _).mp (Array.findIdx_getElem (w := h))

/-- **Replacing all grids** overwrites the slots before the first that refuses the grid. -/
theorem resetTo_eq_overwritten (r : Ring) (g : Grid) :
    r.resetTo g =
      if r.fitting g < r.slots.size then
        (r.overwritten g (r.fitting g), some (.sizeMismatch (.copy g.width g.height
          (r.slot (r.fitting g)).width (r.slot (r.fitting g)).height)))
      else ({ r.overwritten g (r.fitting g) with current := 0 }, none) :=
  resetTo_eq (r.fitting_le g) (fun _ hi => sameSize_of_lt_fitting hi) not_sameSize_fitting

theorem Stocked.resetTo (hr : r.Stocked) {g : Grid} (hg : g.IsProper) :
    (r.resetTo g).1.Stocked := by
  have ho := hr.overwritten hg (r.fitting g)
  rw [resetTo_eq_overwritten]
  split
  · exact ho
  · exact ⟨⟨ho.size_slots, slots_pos _⟩, ho.proper⟩

/-! ### The invariant -/

theorem Stocked.reseed (hr : r.Stocked) {fill : Grid → Grid} (hf : (fill (r.slot 0)).IsProper) :
    (r.reseed fill).Stocked := by
  refine ⟨⟨Array.size_replicate.trans hr.size_slots, slots_pos _⟩, fun i hi => ?_⟩
  rw [slot_reseed fill (hr.size_slots ▸ hi)]
  exact hf

/-- **One operation** leaves a ring stocked. -/
theorem Stocked.perform (hr : r.Stocked) {op : Operation} (hop : op.IsProper) :
    (r.perform op).1.Stocked := by
  cases op with
  | step law =>
    rw [Ring.perform, hr.turn_eq]
    split
    · exact hr.advanced law
    · exact hr
  | resetTo g => exact hr.resetTo hop
  | reseed fill => exact hr.reseed (hop _ (hr.proper 0 (slots_pos _)))
  | edit change => exact hr.withSlot (hop _ hr.currentGrid) r.current

theorem stocked_black {width height : Nat} {mode : BufferMode}
    (hr : black width height mode = .ok r) (hsize : width * height < UInt64.size) :
    r.Stocked := by
  obtain ⟨g, hg, rfl⟩ := black_eq_ok_iff.mp hr
  refine ⟨⟨Array.size_replicate, slots_pos _⟩, fun i hi => ?_⟩
  rw [slot_replicate mode g 0 hi]
  exact Grid.isProper_filled hg hsize

theorem stocked_ofGrids {grids : List Grid} (hgrids : ∀ g ∈ grids, g.IsProper)
    (hr : ofGrids grids = .ok r) : r.Stocked := by
  -- whatever their number, the grids are those in the slots
  have hslots : ∀ mode : BufferMode, grids.length = mode.slots →
      Stocked ⟨mode, grids.toArray, 0⟩ := by
    refine fun mode hlen => ⟨⟨hlen, slots_pos _⟩, fun i hi => ?_⟩
    have hi' : i < grids.toArray.size := by rwa [List.size_toArray, hlen]
    rw [slot_eq_getElem hi', List.getElem_toArray]
    exact hgrids _ (List.getElem_mem _)
  match grids, hslots, hr with
  | [a, b], hslots, hr =>
    obtain ⟨-, rfl⟩ := ofGrids_pair_eq_ok_iff.mp hr
    exact hslots .double rfl
  | [a, b, c], hslots, hr =>
    obtain ⟨-, -, rfl⟩ := ofGrids_triple_eq_ok_iff.mp hr
    exact hslots .lookback rfl

/-- **Every ring that can be reached is stocked.** -/
theorem Reachable.stocked (hr : r.Reachable) : r.Stocked := by
  induction hr with
  | black hr hsize => exact stocked_black hr hsize
  | ofGrids hgrids hr => exact stocked_ofGrids hgrids hr
  | perform _ hop ih => exact ih.perform hop

/-- **A ring of mixed sizes.** It is made of three black cells and advanced once, and then its
current grid, in the second slot, is replaced by one of two columns. -/
def widened (law : Law) : Ring :=
  run ⟨.lookback, Array.replicate 3 ⟨1, 1, #[.black]⟩, 0⟩
    [.step law, .edit fun _ => ⟨2, 1, #[.black, .black]⟩]

theorem reachable_widened (law : Law) : (widened law).Reachable := by
  have hmade : Reachable ⟨.lookback, Array.replicate 3 ⟨1, 1, #[.black]⟩, 0⟩ :=
    @Reachable.black _ 1 1 .lookback rfl (by decide)
  have hwide : Grid.IsProper ⟨2, 1, #[.black, .black]⟩ :=
    ⟨⟨rfl, rfl, rfl⟩, by decide, by decide⟩
  have hturned : Reachable _ := @Reachable.perform _ (.step law) hmade trivial
  exact @Reachable.perform _ (.edit fun _ => ⟨2, 1, #[.black, .black]⟩) hturned fun _ _ => hwide

/-! ### What is refused, and what is left -/

/-- **A step is done or changes nothing.** Whatever sizes the grids of a ring have, no cell and no
grid is missing in a step, and it goes through if the current grid has the size of the one that is
written and, with three slots, of the one before. If it is refused, which is for these sizes only,
every slot and the current one are as they were, the slot that was lent out included. If it goes
through, the next slot holds the next generation and is current, and no other slot has changed. -/
theorem Reachable.turn_atomic (hr : r.Reachable) (law : Law) :
    r.guardedTurn law = some (r.turn law) ∧
      ((r.turn law).2 = none ↔
        r.currentGrid.sameSize (r.slot r.nextIndex) = true ∧
          ∀ p ∈ r.previousGrid, r.currentGrid.sameSize p = true) ∧
      (∀ refusal, (r.turn law).2 = some refusal →
        (∃ cause, refusal = .sizeMismatch cause) ∧ (r.turn law).1 = r) ∧
      ((r.turn law).2 = none →
        (r.turn law).1.mode = r.mode ∧ (r.turn law).1.slots.size = r.slots.size ∧
          (r.turn law).1.current = r.nextIndex ∧
          (r.turn law).1.slot r.nextIndex = r.currentGrid.generation r.previousGrid law ∧
          ∀ i, i ≠ r.nextIndex → (r.turn law).1.slot i = r.slot i) := by
  have hs := hr.stocked
  refine ⟨hs.guardedTurn_eq law, ?_⟩
  rw [hs.turn_eq, ← Grid.stepMismatch_eq_none_iff]
  rcases Grid.stepMismatch r.currentGrid r.previousGrid (r.slot r.nextIndex) with _ | cause
  · refine ⟨⟨fun _ => rfl, fun _ => rfl⟩, nofun, fun _ => ⟨rfl, ?_, rfl, ?_, fun i hi => ?_⟩⟩
    · exact size_slots_withSlot r _ _
    · exact slot_withSlot_self (hs.size_slots ▸ hs.nextIndex_lt) _
    · exact slot_withSlot_of_ne hi.symm r _
  · refine ⟨⟨nofun, nofun⟩, fun refusal h => ?_, nofun⟩
    cases h
    exact ⟨⟨cause, rfl⟩, rfl⟩

/-- Where the current grid is wider than the others, a step is refused for the grid that would be
written. -/
theorem Reachable.turn_atomic_widened :
    let law : Law := ⟨⟨2, 3⟩, none⟩
    (widened law).guardedTurn law =
      some (widened law, some (.sizeMismatch (.write 2 1 1 1))) := by
  intro law
  obtain ⟨hguarded, -, hrefused, -⟩ := (reachable_widened law).turn_atomic law
  have hwhy : ((widened law).turn law).2 = some (.sizeMismatch (.write 2 1 1 1)) := by decide
  exact hguarded.trans (congrArg some (Prod.ext (hrefused _ hwhy).2 hwhy))

/-- **All grids are replaced in the order of their slots.** The replacement goes through if every
slot has the size of the grid; then every slot holds the grid and the first is current. Otherwise it
is refused by the first slot that has another size. The slots before that one hold the grid by then,
and nothing else has changed; so the ring is as it was only if they held that grid already. -/
theorem resetTo_in_order (r : Ring) (g : Grid) :
    ((r.resetTo g).2 = none ↔ ∀ i < r.slots.size, (r.slot i).sameSize g = true) ∧
      ((r.resetTo g).2 = none → (r.resetTo g).1.mode = r.mode ∧
        (r.resetTo g).1.slots.size = r.slots.size ∧ (r.resetTo g).1.current = 0 ∧
        ∀ i < r.slots.size, (r.resetTo g).1.slot i = g) ∧
      ∀ refusal, (r.resetTo g).2 = some refusal → ∃ k < r.slots.size,
        (∀ i < k, (r.slot i).sameSize g = true) ∧ (r.slot k).sameSize g = false ∧
          refusal =
            .sizeMismatch (.copy g.width g.height (r.slot k).width (r.slot k).height) ∧
          (r.resetTo g).1.mode = r.mode ∧ (r.resetTo g).1.slots.size = r.slots.size ∧
          (r.resetTo g).1.current = r.current ∧
          (∀ i < r.slots.size, (r.resetTo g).1.slot i = if i < k then g else r.slot i) ∧
          ((r.resetTo g).1 = r ↔ ∀ i < k, r.slot i = g) := by
  rw [resetTo_eq_overwritten]
  by_cases hk : r.fitting g < r.slots.size
  · have hother := not_sameSize_fitting hk
    rw [if_pos hk]
    refine ⟨⟨nofun, fun h => ?_⟩, nofun, fun refusal h => ?_⟩
    · rw [h _ hk] at hother
      cases hother
    · cases h
      exact ⟨_, hk, fun i => sameSize_of_lt_fitting, hother, rfl, rfl, Array.size_ofFn, rfl,
        fun i => slot_overwritten, overwritten_eq_self_iff (r.fitting_le g)⟩
  · -- no slot refuses the grid
    have hall : ∀ i < r.slots.size, i < r.fitting g := by omega
    rw [if_neg hk]
    refine ⟨⟨fun _ i hi => sameSize_of_lt_fitting (hall i hi), fun _ => rfl⟩, fun _ => ?_, nofun⟩
    exact ⟨rfl, Array.size_ofFn, rfl, fun i hi => (slot_overwritten hi).trans (if_pos (hall i hi))⟩

/-- **A ring that refuses a grid in the middle.** Where the grid in the second slot is wider than
the others, a white cell is refused by that slot when the first has been overwritten: the generation
before the current one is white from then on. -/
theorem resetTo_refused_midway :
    let r : Ring := widened ⟨⟨2, 3⟩, none⟩
    let white : Grid := ⟨1, 1, #[.white]⟩
    r.Reachable ∧ (r.resetTo white).2 = some (.sizeMismatch (.copy 1 1 2 1)) ∧
      r.previousGrid = some ⟨1, 1, #[.black]⟩ ∧ (r.resetTo white).1.previousGrid = some white ∧
      (r.resetTo white).1 ≠ r :=
  ⟨reachable_widened _, by decide, by decide, by decide, by decide⟩

end Ring

end Moorland
