import Moorland.Proofs.Generation.Pointwise
import Moorland.Ring
/-!
# Uniform rings

A ring is **uniform** if it has as many slots as its mode asks for, a current one among them, and
grids of one size in all of them (`Moorland.Ring.Uniform`). Rings are made uniform, and as long as
no grid of another size is put into a slot they stay so.

What does not depend on the grids is said of rings that have as many slots as their mode asks for
(`Moorland.Ring.Shaped`), and the replacement of all grids of rings of any shape, since their slots
may well differ in size (`Moorland.Ring.resetTo_eq`).

On a uniform ring each operation can be said in one equation, which is all that the rest of the
theory needs to know about slots and their numbers. A step is never refused
(`Moorland.Ring.Uniform.turn_eq`): the slot that is lent out is neither the one that is read nor the
one before it. Replacing all grids succeeds exactly for grids of the size of the ring
(`Moorland.Ring.Uniform.resetTo_eq`), and is refused at the first slot otherwise
(`Moorland.Ring.Uniform.resetTo_refused`), so that nothing has been overwritten by then.
-/

namespace Moorland

namespace Ring

/-- **A uniform ring**: the slots of its mode, one of them current, and grids of one size. -/
structure Uniform (r : Ring) (width height : Nat) : Prop where
  /-- The number of slots is that of the mode. -/
  size_slots : r.slots.size = r.mode.slots
  /-- The current slot is one of them. -/
  current_lt : r.current < r.mode.slots
  /-- All grids have the size. -/
  hasSize : ∀ i < r.mode.slots, (r.slot i).HasSize width height

variable {r : Ring} {width height : Nat}

/-! ### The generation before -/

theorem previousGrid_of_double (hm : r.mode = .double) : r.previousGrid = none := by
  simp only [previousGrid, hm]

theorem previousGrid_of_lookback (hm : r.mode = .lookback) :
    r.previousGrid = some (r.slot r.previousIndex) := by
  simp only [previousGrid, hm]

/-- **Two rings of one mode** keep a generation before the current one, or do not. What takes the
slot of the one to that of the other does so with the generations. -/
theorem previousGrid_eq_map {s : Ring} {f : Grid → Grid} (hmode : s.mode = r.mode)
    (hslot : r.mode = .lookback → s.slot s.previousIndex = f (r.slot r.previousIndex)) :
    s.previousGrid = r.previousGrid.map f := by
  rcases hm : r.mode with _ | _
  · rw [previousGrid_of_double hm, previousGrid_of_double (hmode.trans hm)]
    rfl
  · rw [previousGrid_of_lookback hm, previousGrid_of_lookback (hmode.trans hm), hslot hm]
    rfl

theorem previousGrid_congr {s : Ring} (hmode : s.mode = r.mode)
    (hslot : r.mode = .lookback → s.slot s.previousIndex = r.slot r.previousIndex) :
    s.previousGrid = r.previousGrid :=
  (previousGrid_eq_map (f := id) hmode hslot).trans (congrFun Option.map_id r.previousGrid)

/-! ### The mode -/

theorem mode_turn (r : Ring) (law : Law) : (r.turn law).1.mode = r.mode := by
  rw [turn]
  dsimp only
  split <;> rfl

theorem mode_resetTo (r : Ring) (g : Grid) : (r.resetTo g).1.mode = r.mode := by
  rw [resetTo]
  split <;> rfl

/-! ### Slots and their numbers -/

theorem slot_eq_getElem {i : Nat} (hi : i < r.slots.size) : r.slot i = r.slots[i] := by
  rw [slot, Array.getD_eq_getD_getElem?, Array.getElem?_eq_getElem hi, Option.getD_some]

/-- There are at least two slots in either mode. -/
theorem two_le_slots (m : BufferMode) : 2 ≤ m.slots := by
  cases m <;> decide

theorem slots_pos (m : BufferMode) : 0 < m.slots := Nat.lt_of_lt_of_le Nat.two_pos (two_le_slots m)

/-- **A ring in shape**: the slots of its mode, one of them current. The grids in them may be of any
sizes. -/
structure Shaped (r : Ring) : Prop where
  /-- The number of slots is that of the mode. -/
  size_slots : r.slots.size = r.mode.slots
  /-- The current slot is one of them. -/
  current_lt : r.current < r.mode.slots

theorem Uniform.shaped (hr : r.Uniform width height) : r.Shaped := ⟨hr.size_slots, hr.current_lt⟩

namespace Shaped

theorem getElem?_slots (hr : r.Shaped) {i : Nat} (hi : i < r.mode.slots) :
    r.slots[i]? = some (r.slot i) := by
  have hi' : i < r.slots.size := hr.size_slots ▸ hi
  rw [slot_eq_getElem hi', Array.getElem?_eq_getElem hi']

theorem nextIndex_lt (hr : r.Shaped) : r.nextIndex < r.mode.slots := by
  rw [nextIndex, hr.size_slots]
  exact Nat.mod_lt _ (slots_pos _)

theorem previousIndex_lt (hr : r.Shaped) : r.previousIndex < r.mode.slots := by
  rw [previousIndex, hr.size_slots]
  exact Nat.mod_lt _ (slots_pos _)

/-- **After the last slot** comes the first. -/
theorem nextIndex_eq (hr : r.Shaped) :
    r.nextIndex = if r.current + 1 = r.mode.slots then 0 else r.current + 1 := by
  have hc := hr.current_lt
  rw [nextIndex, hr.size_slots]
  by_cases hlast : r.current + 1 = r.mode.slots
  · rw [if_pos hlast, hlast, Nat.mod_self]
  · rw [if_neg hlast]
    exact Nat.mod_eq_of_lt (by omega)

/-- **Before the first slot** comes the last. -/
theorem previousIndex_eq (hr : r.Shaped) :
    r.previousIndex = if r.current = 0 then r.mode.slots - 1 else r.current - 1 := by
  have hc := hr.current_lt
  rw [previousIndex, hr.size_slots]
  by_cases hfirst : r.current = 0
  · rw [if_pos hfirst, hfirst, Nat.zero_add]
    exact Nat.mod_eq_of_lt (by omega)
  · rw [if_neg hfirst, Nat.sub_add_comm (Nat.pos_of_ne_zero hfirst), Nat.add_mod_right]
    exact Nat.mod_eq_of_lt (by omega)

/-- **The slot that is written is not the one that is read.** -/
theorem nextIndex_ne_current (hr : r.Shaped) : r.nextIndex ≠ r.current := by
  have htwo := two_le_slots r.mode
  rw [hr.nextIndex_eq]
  split <;> omega

/-- **With three slots, the slot that is written is not the one before the current one either.** -/
theorem nextIndex_ne_previousIndex (hr : r.Shaped) (hm : r.mode = .lookback) :
    r.nextIndex ≠ r.previousIndex := by
  have hthree : r.mode.slots = 3 := congrArg BufferMode.slots hm
  rw [hr.nextIndex_eq, hr.previousIndex_eq]
  split <;> split <;> omega

theorem previousIndex_ne_current (hr : r.Shaped) : r.previousIndex ≠ r.current := by
  have htwo := two_le_slots r.mode
  rw [hr.previousIndex_eq]
  split <;> omega

end Shaped

/-- Every grid of the ring has the size. -/
theorem Uniform.hasSize_of_mem (hr : r.Uniform width height) {g : Grid} (hg : g ∈ r.slots) :
    g.HasSize width height := by
  obtain ⟨i, hi⟩ := Array.mem_iff_getElem?.mp hg
  have hlt : i < r.mode.slots := by
    rw [← hr.size_slots]
    exact (Array.getElem?_eq_some_iff.mp hi).1
  rw [← Option.some.inj ((hr.shaped.getElem?_slots hlt).symm.trans hi)]
  exact hr.hasSize i hlt

/-! ### Putting a grid into a slot -/

theorem slot_withSlot (r : Ring) (i j : Nat) (g : Grid) :
    (r.withSlot i g).slot j = if i = j ∧ i < r.slots.size then g else r.slot j := by
  rw [slot, slot, withSlot, Array.getD_eq_getD_getElem?, Array.getElem?_setIfInBounds,
    Array.getD_eq_getD_getElem?]
  by_cases hij : i = j
  · subst hij
    by_cases hi : i < r.slots.size
    · rw [if_pos rfl, if_pos hi, if_pos ⟨rfl, hi⟩, Option.getD_some]
    · rw [if_pos rfl, if_neg hi, if_neg fun h => hi h.2,
        Array.getElem?_eq_none (Nat.le_of_not_lt hi)]
  · rw [if_neg hij, if_neg fun h => hij h.1]

theorem slot_withSlot_of_ne {i j : Nat} (h : i ≠ j) (r : Ring) (g : Grid) :
    (r.withSlot i g).slot j = r.slot j := by
  rw [slot_withSlot, if_neg fun hc => h hc.1]

theorem slot_withSlot_self {i : Nat} (h : i < r.slots.size) (g : Grid) :
    (r.withSlot i g).slot i = g := by
  rw [slot_withSlot, if_pos ⟨rfl, h⟩]

@[simp] theorem size_slots_withSlot (r : Ring) (i : Nat) (g : Grid) :
    (r.withSlot i g).slots.size = r.slots.size :=
  Array.size_setIfInBounds

@[simp] theorem withSlot_withSlot (r : Ring) (i : Nat) (g h : Grid) :
    (r.withSlot i g).withSlot i h = r.withSlot i h := by
  rw [withSlot, withSlot, withSlot, Array.setIfInBounds_setIfInBounds]

/-- Putting back what a slot holds changes nothing. -/
theorem withSlot_slot (r : Ring) (i : Nat) : r.withSlot i (r.slot i) = r := by
  have hs : r.slots.setIfInBounds i (r.slot i) = r.slots := by
    refine Array.ext Array.size_setIfInBounds fun j h₁ h₂ => ?_
    rw [Array.getElem_setIfInBounds]
    by_cases hij : i = j
    · subst hij
      rw [if_pos rfl, slot_eq_getElem h₂]
    · rw [if_neg hij]
  rw [withSlot, hs]

theorem previousIndex_withSlot (r : Ring) (i : Nat) (g : Grid) :
    (r.withSlot i g).previousIndex = r.previousIndex := by
  rw [previousIndex, previousIndex, size_slots_withSlot]
  rfl

theorem Uniform.withSlot (hr : r.Uniform width height) {g : Grid} (hg : g.HasSize width height)
    (i : Nat) : (r.withSlot i g).Uniform width height := by
  refine ⟨(size_slots_withSlot r i g).trans hr.size_slots, hr.current_lt, fun j hj => ?_⟩
  rw [slot_withSlot]
  split
  · exact hg
  · exact hr.hasSize j hj

/-! ### Steps -/

/-- **The ring after a step** that is not refused: the next slot holds the generation after the
current grid, and is current. -/
def advanced (r : Ring) (law : Law) : Ring :=
  { r.withSlot r.nextIndex (r.currentGrid.generation r.previousGrid law) with
    current := r.nextIndex }

namespace Shaped

/-- **Lending out the next slot cannot be seen.** -/
theorem currentGrid_lent (hr : r.Shaped) (g : Grid) :
    (r.withSlot r.nextIndex g).currentGrid = r.currentGrid :=
  slot_withSlot_of_ne hr.nextIndex_ne_current r g

theorem previousGrid_lent (hr : r.Shaped) (g : Grid) :
    (r.withSlot r.nextIndex g).previousGrid = r.previousGrid := by
  refine previousGrid_congr rfl fun hm => ?_
  rw [previousIndex_withSlot]
  exact slot_withSlot_of_ne (hr.nextIndex_ne_previousIndex hm) r g

/-- **A step of a ring in shape**, without the lending: neither of the two grids that are read is
the one that is lent out, and what is put back after a refusal is what was taken out. -/
theorem turn_eq (hr : r.Shaped) (law : Law) :
    r.turn law = match r.currentGrid.advance r.previousGrid (r.slot r.nextIndex) law with
      | .ok written => ({ r.withSlot r.nextIndex written with current := r.nextIndex }, none)
      | .error refusal => (r, some refusal) := by
  rw [turn]
  dsimp only
  rw [hr.currentGrid_lent, hr.previousGrid_lent]
  rcases r.currentGrid.advance r.previousGrid (r.slot r.nextIndex) law with refusal | written
  · simp only [withSlot_withSlot, withSlot_slot]
  · simp only [withSlot_withSlot]

end Shaped

namespace Uniform

theorem currentGrid (hr : r.Uniform width height) : r.currentGrid.HasSize width height :=
  hr.hasSize r.current hr.current_lt

theorem previousGrid (hr : r.Uniform width height) :
    ∀ p ∈ r.previousGrid, p.HasSize width height := by
  intro p hp
  rw [Ring.previousGrid] at hp
  split at hp
  · cases hp
  · cases hp
    exact hr.hasSize r.previousIndex hr.shaped.previousIndex_lt

/-- **A step of a uniform ring is never refused.** -/
theorem turn_eq (hr : r.Uniform width height) (law : Law) :
    r.turn law = (r.advanced law, none) := by
  rw [hr.shaped.turn_eq, Grid.advance_eq hr.currentGrid (hr.hasSize _ hr.shaped.nextIndex_lt)
    hr.previousGrid]
  rfl

theorem advanced (hr : r.Uniform width height) (law : Law) :
    (r.advanced law).Uniform width height := by
  have hw := hr.withSlot (hr.currentGrid.generation r.previousGrid law) r.nextIndex
  exact ⟨hw.size_slots, hr.shaped.nextIndex_lt, hw.hasSize⟩

theorem currentGrid_advanced (hr : r.Uniform width height) (law : Law) :
    (r.advanced law).currentGrid = r.currentGrid.generation r.previousGrid law :=
  slot_withSlot_self (hr.size_slots ▸ hr.shaped.nextIndex_lt) _

/-- **With three slots, the slot before the one that was written is the one that was read.** -/
theorem previousIndex_advanced (hr : r.Uniform width height) (law : Law) (hm : r.mode = .lookback) :
    (r.advanced law).previousIndex = r.current := by
  have hc := hr.current_lt
  rw [previousIndex, (hr.advanced law).size_slots]
  change (r.nextIndex + r.mode.slots - 1) % r.mode.slots = r.current
  rw [nextIndex, hr.size_slots]
  rw [hm] at hc ⊢
  simp only [BufferMode.slots] at hc ⊢
  omega

/-- **What was current is what is kept.** -/
theorem previousGrid_advanced (hr : r.Uniform width height) (law : Law) :
    (r.advanced law).previousGrid = r.previousGrid.map fun _ => r.currentGrid := by
  refine previousGrid_eq_map rfl fun hm => ?_
  rw [hr.previousIndex_advanced law hm]
  exact slot_withSlot_of_ne hr.shaped.nextIndex_ne_current r _

end Uniform

/-! ### Edits of the current grid -/

namespace Uniform

theorem replaceCurrent (hr : r.Uniform width height) {g : Grid} (hg : g.HasSize width height) :
    (r.replaceCurrent g).Uniform width height :=
  hr.withSlot hg r.current

theorem previousGrid_replaceCurrent (hr : r.Uniform width height) (g : Grid) :
    (r.replaceCurrent g).previousGrid = r.previousGrid := by
  refine previousGrid_congr rfl fun _ => ?_
  rw [Ring.replaceCurrent, previousIndex_withSlot]
  exact slot_withSlot_of_ne hr.shaped.previousIndex_ne_current.symm r g

end Uniform

/-! ### Replacing all grids -/

theorem slot_reseed (fill : Grid → Grid) {i : Nat} (hi : i < r.slots.size) :
    (r.reseed fill).slot i = fill (r.slot 0) := by
  rw [slot, reseed, Array.getD_eq_getD_getElem?, Array.getElem?_replicate, if_pos hi,
    Option.getD_some]

namespace Uniform

/-- The size of a ring may change when all of its grids are replaced at once. -/
theorem reseed {w h : Nat} (hr : r.Uniform width height) {f : Grid → Grid}
    (hf : (f (r.slot 0)).HasSize w h) : (r.reseed f).Uniform w h := by
  refine ⟨Array.size_replicate.trans hr.size_slots, slots_pos _, fun i hi => ?_⟩
  rw [slot_reseed f (hr.size_slots ▸ hi)]
  exact hf

theorem currentGrid_reseed (hr : r.Uniform width height) (fill : Grid → Grid) :
    (r.reseed fill).currentGrid = fill (r.slot 0) :=
  Ring.currentGrid_reseed (hr.size_slots ▸ slots_pos _) fill

theorem previousGrid_reseed (hr : r.Uniform width height) (fill : Grid → Grid) :
    (r.reseed fill).previousGrid = r.previousGrid.map fun _ => fill (r.slot 0) := by
  have hp : (r.reseed fill).previousIndex < r.slots.size := by
    rw [previousIndex, Ring.reseed, Array.size_replicate]
    exact Nat.mod_lt _ (hr.size_slots ▸ slots_pos _)
  exact previousGrid_eq_map rfl fun _ => slot_reseed fill hp

end Uniform

/-- The ring with a grid in its first `n` slots. -/
def overwritten (r : Ring) (g : Grid) (n : Nat) : Ring :=
  { r with slots := Array.ofFn fun i : Fin r.slots.size => if i < n then g else r.slot i }

theorem slot_overwritten {g : Grid} {n i : Nat} (hi : i < r.slots.size) :
    (r.overwritten g n).slot i = if i < n then g else r.slot i := by
  rw [slot, overwritten, Array.getD_eq_getD_getElem?, Array.getElem?_ofFn, dif_pos hi,
    Option.getD_some]

theorem overwritten_eq_self_iff {g : Grid} {n : Nat} (hn : n ≤ r.slots.size) :
    r.overwritten g n = r ↔ ∀ i < n, r.slot i = g := by
  constructor
  · intro h i hi
    have hslot := slot_overwritten (g := g) (n := n) (Nat.lt_of_lt_of_le hi hn)
    rwa [h, if_pos hi] at hslot
  · intro h
    have hslots : (Array.ofFn fun i : Fin r.slots.size => if i < n then g else r.slot i) =
        r.slots := by
      refine Array.ext Array.size_ofFn fun i h₁ h₂ => ?_
      rw [Array.getElem_ofFn, ← slot_eq_getElem h₂]
      by_cases hi : i < n
      · rw [if_pos hi, ← h i hi]
      · rw [if_neg hi]
    rw [overwritten, hslots]

/-- **Copying over slots stops at the first that has another size**: those before it hold the grid,
and the others what they held. -/
theorem copyInto_eq {g : Grid} {slots : Array Grid} {i n count : Nat} (hin : i ≤ n)
    (hn : n ≤ i + count) (hi : i + count ≤ slots.size)
    (hsame : ∀ j, i ≤ j → j < n → (slots.getD j .placeholder).sameSize g = true)
    (hother : n < i + count → (slots.getD n .placeholder).sameSize g = false) :
    (copyInto g slots i count).2 =
        (if n < i + count then some (.sizeMismatch (.copy g.width g.height
          (slots.getD n .placeholder).width (slots.getD n .placeholder).height)) else none) ∧
      ∀ j : Nat, (copyInto g slots i count).1[j]? =
        if i ≤ j ∧ j < n then some g else slots[j]? := by
  induction count generalizing slots i with
  | zero =>
    refine ⟨(if_neg (by omega)).symm, fun j => ?_⟩
    rw [if_neg (by omega), copyInto]
  | succ count ih =>
    rcases Nat.eq_or_lt_of_le hin with rfl | hlt
    · -- this slot has another size
      have hcopy : (slots.getD i .placeholder).copyFrom g = .error (.sizeMismatch (.copy g.width
          g.height (slots.getD i .placeholder).width (slots.getD i .placeholder).height)) := by
        rw [Grid.copyFrom, hother (by omega)]
        rfl
      simp only [copyInto, hcopy]
      refine ⟨(if_pos (by omega)).symm, fun j => ?_⟩
      rw [if_neg (by omega)]
    · -- this slot takes the grid, and those after it are still as they were
      have hcopy : (slots.getD i .placeholder).copyFrom g = .ok g :=
        Grid.copyFrom_eq_ok_iff.mpr ⟨hsame i (Nat.le_refl i) hlt, rfl⟩
      have hrest : ∀ j, i + 1 ≤ j →
          (slots.setIfInBounds i g).getD j .placeholder = slots.getD j .placeholder := by
        intro j hj
        rw [Array.getD_eq_getD_getElem?, Array.getElem?_setIfInBounds_ne (by omega),
          ← Array.getD_eq_getD_getElem?]
      have hsize : i + 1 + count ≤ (slots.setIfInBounds i g).size := by
        rw [Array.size_setIfInBounds]
        omega
      obtain ⟨hrefused, hcells⟩ := ih hlt (by omega) hsize
        (fun j h₁ h₂ => by rw [hrest j h₁]; exact hsame j (by omega) h₂)
        (fun h => by rw [hrest n hlt]; exact hother (by omega))
      rw [hrest n hlt, Nat.succ_add_eq_add_succ] at hrefused
      simp only [copyInto, hcopy]
      refine ⟨hrefused, fun j => ?_⟩
      rw [hcells j, Array.getElem?_setIfInBounds]
      by_cases hj : i = j
      · subst hj
        rw [if_neg (by omega), if_pos rfl, if_pos (by omega), if_pos ⟨Nat.le_refl i, hlt⟩]
      · have hiff : (i + 1 ≤ j ∧ j < n) ↔ (i ≤ j ∧ j < n) := by omega
        simp only [if_neg hj, hiff]

/-- **Replacing all grids**, by the number of slots before the first that has another size. -/
theorem resetTo_eq {g : Grid} {n : Nat} (hn : n ≤ r.slots.size)
    (hsame : ∀ i < n, (r.slot i).sameSize g = true)
    (hother : n < r.slots.size → (r.slot n).sameSize g = false) :
    r.resetTo g =
      if n < r.slots.size then
        (r.overwritten g n,
          some (.sizeMismatch (.copy g.width g.height (r.slot n).width (r.slot n).height)))
      else ({ r.overwritten g n with current := 0 }, none) := by
  obtain ⟨hrefused, hcells⟩ := @copyInto_eq g r.slots 0 n r.slots.size (Nat.zero_le n)
    (by omega) (by omega) (fun i _ hi => hsame i hi) (fun h => hother (by omega))
  have hslots : (copyInto g r.slots 0 r.slots.size).1 = (r.overwritten g n).slots := by
    refine Array.ext_getElem? fun j => ?_
    rw [hcells j, overwritten, Array.getElem?_ofFn]
    by_cases hj : j < r.slots.size
    · rw [dif_pos hj]
      by_cases hjn : j < n
      · rw [if_pos ⟨Nat.zero_le j, hjn⟩, if_pos hjn]
      · rw [if_neg fun h => hjn h.2, if_neg hjn, slot_eq_getElem hj, Array.getElem?_eq_getElem hj]
    · rw [dif_neg hj, if_neg fun h => hj (Nat.lt_of_lt_of_le h.2 hn),
        Array.getElem?_eq_none (Nat.le_of_not_lt hj)]
  rw [Nat.zero_add] at hrefused
  rw [resetTo]
  by_cases hlt : n < r.slots.size
  · rw [if_pos hlt] at hrefused ⊢
    have hcopy : copyInto g r.slots 0 r.slots.size = ((r.overwritten g n).slots, _) :=
      Prod.ext hslots hrefused
    rw [hcopy]
    rfl
  · rw [if_neg hlt] at hrefused ⊢
    have hcopy : copyInto g r.slots 0 r.slots.size = ((r.overwritten g n).slots, none) :=
      Prod.ext hslots hrefused
    rw [hcopy]
    rfl

namespace Uniform

/-- A grid that has the width and the height of the ring goes with all of its slots. -/
theorem sameSize_slot (hr : r.Uniform width height) {g : Grid} (hw : g.width = width)
    (hh : g.height = height) {i : Nat} (hi : i < r.slots.size) :
    (r.slot i).sameSize g = true := by
  have hsize := hr.hasSize i (hr.size_slots ▸ hi)
  exact Grid.sameSize_iff.mpr ⟨hsize.width_eq.trans hw.symm, hsize.height_eq.trans hh.symm⟩

/-- **A grid of the size of the ring is refused by no slot**, whatever cells it has. -/
theorem resetTo_accepted (hr : r.Uniform width height) {g : Grid} (hw : g.width = width)
    (hh : g.height = height) :
    r.resetTo g = ({ r.overwritten g r.slots.size with current := 0 }, none) := by
  have hreset := Ring.resetTo_eq (Nat.le_refl _) (fun _ hi => hr.sameSize_slot hw hh hi)
    fun h => absurd h (Nat.lt_irrefl _)
  rwa [if_neg (Nat.lt_irrefl _)] at hreset

/-- **Replacing all grids by one of the size of the ring succeeds**, and is seeding with it. -/
theorem resetTo_eq (hr : r.Uniform width height) {g : Grid} (hg : g.HasSize width height) :
    r.resetTo g = (r.reseed fun _ => g, none) := by
  have hslots : (Array.ofFn fun i : Fin r.slots.size =>
      if i < r.slots.size then g else r.slot i) = Array.replicate r.slots.size g := by
    refine Array.ext (by rw [Array.size_ofFn, Array.size_replicate]) fun i h₁ h₂ => ?_
    have hi : i < r.slots.size := by rwa [Array.size_ofFn] at h₁
    rw [Array.getElem_ofFn, Array.getElem_replicate, if_pos hi]
  rw [hr.resetTo_accepted hg.width_eq hg.height_eq, overwritten, hslots]
  rfl

/-- **Replacing all grids by one of another size is refused** before any grid is overwritten. -/
theorem resetTo_refused (hr : r.Uniform width height) {g : Grid}
    (hg : ¬(g.width = width ∧ g.height = height)) :
    r.resetTo g = (r, some (.sizeMismatch (.copy g.width g.height width height))) := by
  have hpos : 0 < r.slots.size := hr.size_slots ▸ slots_pos _
  have h0 := hr.hasSize 0 (slots_pos _)
  have hother : (r.slot 0).sameSize g = false := by
    rw [Bool.eq_false_iff, Ne, Grid.sameSize_iff, h0.width_eq, h0.height_eq]
    exact fun h => hg ⟨h.1.symm, h.2.symm⟩
  rw [Ring.resetTo_eq (Nat.zero_le _) (fun i hi => absurd hi (Nat.not_lt_zero i))
    (fun _ => hother), if_pos hpos, h0.width_eq, h0.height_eq,
    (overwritten_eq_self_iff (Nat.zero_le _)).mpr fun i hi => absurd hi (Nat.not_lt_zero i)]

end Uniform

/-! ### Making rings -/

/-- **A ring without population** holds the same grid in all slots. -/
theorem black_eq_ok_iff {mode : BufferMode} :
    black width height mode = .ok r ↔
      ∃ g, Grid.black width height = .ok g ∧ r = ⟨mode, Array.replicate mode.slots g, 0⟩ := by
  rw [black, bind_eq_ok_iff]
  constructor
  · rintro ⟨g, hg, hr⟩
    exact ⟨g, hg, (Except.ok.inj hr).symm⟩
  · rintro ⟨g, hg, rfl⟩
    exact ⟨g, hg, rfl⟩

/-- **Every size without a zero** has a ring without population. -/
theorem exists_black (hw : 0 < width) (hh : 0 < height) (mode : BufferMode) :
    ∃ r, black width height mode = .ok r :=
  ⟨_, black_eq_ok_iff.mpr ⟨_, Grid.filled_eq_ok_iff.mpr ⟨hw, hh, rfl⟩, rfl⟩⟩

theorem slot_replicate (mode : BufferMode) (g : Grid) (c : Nat) {i : Nat} (hi : i < mode.slots) :
    slot ⟨mode, Array.replicate mode.slots g, c⟩ i = g := by
  rw [slot, Array.getD_eq_getD_getElem?, Array.getElem?_replicate, if_pos hi, Option.getD_some]

theorem uniform_black {mode : BufferMode} (h : black width height mode = .ok r) :
    r.Uniform width height := by
  obtain ⟨g, hg, rfl⟩ := black_eq_ok_iff.mp h
  refine ⟨Array.size_replicate, slots_pos _, fun i hi => ?_⟩
  rw [slot_replicate mode g 0 hi]
  exact Grid.hasSize_filled hg

/-- However many slots there are, the current one has no population either. -/
theorem currentGrid_black {mode : BufferMode} (h : black width height mode = .ok r) :
    Grid.black width height = .ok r.currentGrid := by
  obtain ⟨g, hg, rfl⟩ := black_eq_ok_iff.mp h
  rw [currentGrid, slot_replicate mode g 0 (slots_pos _)]
  exact hg

theorem mode_black {mode : BufferMode} (h : black width height mode = .ok r) : r.mode = mode := by
  obtain ⟨g, -, rfl⟩ := black_eq_ok_iff.mp h
  rfl

theorem uniform_pair {a b : Grid} (ha : a.HasSize width height) (hb : b.HasSize width height) :
    Uniform ⟨.double, #[a, b], 0⟩ width height := by
  refine ⟨rfl, slots_pos _, fun i hi => ?_⟩
  rcases i with _ | _ | i
  · exact ha
  · exact hb
  · exact absurd hi (by simp [BufferMode.slots])

theorem uniform_triple {a b c : Grid} (ha : a.HasSize width height) (hb : b.HasSize width height)
    (hc : c.HasSize width height) : Uniform ⟨.lookback, #[a, b, c], 0⟩ width height := by
  refine ⟨rfl, slots_pos _, fun i hi => ?_⟩
  rcases i with _ | _ | _ | i
  · exact ha
  · exact hb
  · exact hc
  · exact absurd hi (by simp [BufferMode.slots])

/-- **Two grids of one size** make a ring that keeps the current generation only. -/
theorem ofGrids_pair_eq_ok_iff {a b : Grid} :
    ofGrids [a, b] = .ok r ↔ b.sameSize a = true ∧ r = ⟨.double, #[a, b], 0⟩ := by
  have ha : a.sameSize a = true := Grid.sameSize_iff.mpr ⟨rfl, rfl⟩
  rcases hb : b.sameSize a with _ | _
  · simp [ofGrids, ha, hb]
  · simp [ofGrids, ha, hb, eq_comm]

/-- **Three grids of one size** make a ring that keeps the generation before the current one too. -/
theorem ofGrids_triple_eq_ok_iff {a b c : Grid} :
    ofGrids [a, b, c] = .ok r ↔
      b.sameSize a = true ∧ c.sameSize a = true ∧ r = ⟨.lookback, #[a, b, c], 0⟩ := by
  have ha : a.sameSize a = true := Grid.sameSize_iff.mpr ⟨rfl, rfl⟩
  rcases hb : b.sameSize a with _ | _
  · simp [ofGrids, ha, hb]
  · rcases hc : c.sameSize a with _ | _
    · simp [ofGrids, ha, hb, hc]
    · simp [ofGrids, ha, hb, hc, eq_comm]

end Ring

end Moorland
