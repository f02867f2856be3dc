import Mathlib.Data.List.Induction
import Mathlib.Data.List.Nodup
import Mathlib.Data.List.Perm.Subperm
import Moorland.Proofs.Ring.History
/-!
# Rotation

The slots of a ring are written in turn, and so they hold what a run has been through: read
backwards from the current one they are the latest generations, the newest first, each of them as it
was when the step after it was taken. This file says so of every run, from every way to make a ring,
in which the slots stay of one size (`Moorland.Ring.KeepsSizes`).

What a run has been through is told by its **moments** (`Moorland.Ring.moments`): the rings that its
operations were applied to, and how these ended. Only the moments since the slots were last filled
count (`Moorland.Ring.recent`). The generations are the current grids at those of them that advance
(`Moorland.Ring.generations`), and nothing in their definition mentions slots or numbers of slots.

The invariant is that slot and generation of every age agree, up to the number of slots
(`Moorland.Ring.Holds`). A step makes each slot one step older and writes the one that would be too
old, so that nothing younger is lost; an edit changes the slot of age zero only.
-/

namespace Moorland

namespace Ring

variable {r : Ring} {op : Operation} {ops : List Operation} {width height : Nat}

/-! ### Slots of one size -/

/-- **The operation keeps the slots of one size.** An edit does not change the size of the current
grid. All grids at once may be replaced by grids of another size, and a given one may be refused. -/
def KeepsSize (r : Ring) : Operation → Prop
  | .step _ => True
  | .resetTo g => g.IsFull
  | .reseed fill => (fill (r.slot 0)).IsFull
  | .edit change => (change r.currentGrid).HasSize r.currentGrid.width r.currentGrid.height

/-- **Every operation of a run keeps the slots of one size** when its turn comes. -/
def KeepsSizes (r : Ring) : List Operation → Prop
  | [] => True
  | op :: ops => r.KeepsSize op ∧ (r.perform op).1.KeepsSizes ops

theorem run_concat (r : Ring) (ops : List Operation) (op : Operation) :
    r.run (ops ++ [op]) = ((r.run ops).perform op).1 := by
  rw [run, List.foldl_append]
  rfl

theorem keepsSizes_concat :
    r.KeepsSizes (ops ++ [op]) ↔ r.KeepsSizes ops ∧ (r.run ops).KeepsSize op := by
  induction ops generalizing r with
  | nil => exact and_comm
  | cons first ops ih =>
    change r.KeepsSize first ∧ (r.perform first).1.KeepsSizes (ops ++ [op]) ↔ _
    rw [ih]
    exact and_assoc.symm

/-! ### Moments -/

/-- **A moment of a run**: the ring that an operation is applied to, the operation, and why it is
refused if it is. -/
structure Moment where
  /-- The ring before the operation. -/
  ring : Ring
  /-- The operation. -/
  operation : Operation
  /-- Why the operation is refused, if it is. -/
  refusal : Option Refusal

namespace Moment

/-- **All slots are filled** at the moment. -/
def refills (m : Moment) : Bool :=
  match m.operation with
  | .reseed _ | .resetTo _ => m.refusal.isNone
  | .step _ | .edit _ => false

/-- **A step is taken** at the moment. -/
def advances (m : Moment) : Bool :=
  match m.operation with
  | .step _ => m.refusal.isNone
  | .reseed _ | .resetTo _ | .edit _ => false

end Moment

/-- The moment at which an operation is applied to a ring. -/
def moment (r : Ring) (op : Operation) : Moment := ⟨r, op, (r.perform op).2⟩

@[simp] theorem ring_moment (r : Ring) (op : Operation) : (r.moment op).ring = r := rfl

/-- **The moments of a run**, the latest first. -/
def moments (r : Ring) : List Operation → List Moment
  | [] => []
  | op :: ops => (r.perform op).1.moments ops ++ [r.moment op]

/-- **The moments since all slots were filled**, or since the ring was made. -/
def recent (r : Ring) (ops : List Operation) : List Moment :=
  (r.moments ops).takeWhile fun m => !m.refills

/-- **The number of steps** taken since all slots were filled. -/
def stepsSince (r : Ring) (ops : List Operation) : Nat := (r.recent ops).countP Moment.advances

/-- **The generations since all slots were filled**, the newest first: the current grid, and what
was current when each of the steps was taken. -/
def generations (r : Ring) (ops : List Operation) : List Grid :=
  (r.run ops).currentGrid ::
    ((r.recent ops).filter Moment.advances).map fun m => m.ring.currentGrid

theorem length_generations (r : Ring) (ops : List Operation) :
    (r.generations ops).length = r.stepsSince ops + 1 := by
  rw [generations, List.length_cons, List.length_map, stepsSince, List.countP_eq_length_filter]

theorem moments_concat (r : Ring) (ops : List Operation) (op : Operation) :
    r.moments (ops ++ [op]) = (r.run ops).moment op :: r.moments ops := by
  induction ops generalizing r with
  | nil => rfl
  | cons first ops ih =>
    change (r.perform first).1.moments (ops ++ [op]) ++ [r.moment first] = _
    rw [ih]
    rfl

/-- **After all slots have been filled** there is one generation. -/
theorem generations_of_refills (h : ((r.run ops).moment op).refills = true) :
    r.generations (ops ++ [op]) = [((r.run ops).perform op).1.currentGrid] := by
  simp [generations, recent, run_concat, moments_concat, h]

/-- **After a step** there is one generation more. -/
theorem generations_of_advances (h : ((r.run ops).moment op).refills = false)
    (ha : ((r.run ops).moment op).advances = true) :
    r.generations (ops ++ [op]) =
      ((r.run ops).perform op).1.currentGrid :: r.generations ops := by
  simp [generations, recent, run_concat, moments_concat, h, ha]

/-- **After any other operation** the current generation has been replaced, if anything. -/
theorem generations_of_not (h : ((r.run ops).moment op).refills = false)
    (ha : ((r.run ops).moment op).advances = false) :
    r.generations (ops ++ [op]) =
      ((r.run ops).perform op).1.currentGrid :: (r.generations ops).tail := by
  simp [generations, recent, run_concat, moments_concat, h, ha]

/-! ### Ages -/

/-- **The number of the slot of an age**: so many slots before the current one. -/
def behind (r : Ring) (age : Nat) : Nat := (r.current + r.slots.size - age) % r.slots.size

/-- **The slots read backwards** from the current one. -/
def backwards (r : Ring) : List Grid :=
  (List.range r.slots.size).map fun age => r.slot (r.behind age)

namespace Shaped

variable {age : Nat}

/-- **Counting backwards** past the first slot goes on at the last one. -/
theorem behind_eq (hr : r.Shaped) (hage : age < r.mode.slots) : r.behind age =
    if age ≤ r.current then r.current - age else r.current + r.mode.slots - age := by
  have hc := hr.current_lt
  rw [behind, hr.size_slots]
  split_ifs with hle
  · rw [Nat.sub_add_comm hle, Nat.add_mod_right]
    exact Nat.mod_eq_of_lt (by omega)
  · exact Nat.mod_eq_of_lt (by omega)

theorem behind_zero (hr : r.Shaped) : r.behind 0 = r.current := by
  rw [hr.behind_eq (slots_pos _), if_pos (Nat.zero_le _), Nat.sub_zero]

theorem behind_ne_current (hr : r.Shaped) (hpos : 0 < age) (hage : age < r.mode.slots) :
    r.behind age ≠ r.current := by
  rw [hr.behind_eq hage]
  split_ifs <;> omega

/-- **The slot that is written is the oldest one.** -/
theorem behind_ne_nextIndex (hr : r.Shaped) (hage : age + 1 < r.mode.slots) :
    r.behind age ≠ r.nextIndex := by
  have hc := hr.current_lt
  rw [hr.behind_eq (Nat.lt_of_succ_lt hage), hr.nextIndex_eq]
  split_ifs <;> omega

/-- **Every slot has one age.** -/
theorem perm_behind (hr : r.Shaped) :
    ((List.range r.mode.slots).map r.behind).Perm (List.range r.mode.slots) := by
  have hc := hr.current_lt
  have hinj : ∀ a ∈ List.range r.mode.slots, ∀ b ∈ List.range r.mode.slots,
      r.behind a = r.behind b → a = b := by
    intro a ha b hb hab
    rw [List.mem_range] at ha hb
    rw [hr.behind_eq ha, hr.behind_eq hb] at hab
    split_ifs at hab <;> omega
  have hsub : (List.range r.mode.slots).map r.behind ⊆ List.range r.mode.slots := by
    intro i hi
    obtain ⟨a, -, rfl⟩ := List.mem_map.mp hi
    rw [List.mem_range, behind, hr.size_slots]
    exact Nat.mod_lt _ (slots_pos _)
  have hnodup := List.Nodup.map_on hinj List.nodup_range
  exact (List.subperm_of_subset hnodup hsub).perm_of_length_le
    (Nat.le_of_eq (List.length_map _).symm)

end Shaped

/-- **A step makes every slot older by one.** -/
theorem Uniform.behind_advanced (hr : r.Uniform width height) (law : Law) {age : Nat}
    (hage : age + 1 < r.mode.slots) : (r.advanced law).behind (age + 1) = r.behind age := by
  have hc := hr.current_lt
  have hslots : (r.advanced law).mode.slots = r.mode.slots := rfl
  have hnext : (r.advanced law).current = r.nextIndex := rfl
  rw [(hr.advanced law).shaped.behind_eq hage, hr.shaped.behind_eq (Nat.lt_of_succ_lt hage),
    hslots, hnext, hr.shaped.nextIndex_eq]
  split_ifs <;> omega

/-! ### Slots hold generations -/

/-- **The slots hold the generations**: as many steps have been taken as there are generations
before the newest one, and the slot of each age holds the generation of that age, if there is one.
-/
structure Holds (r : Ring) (gs : List Grid) : Prop where
  /-- The current slot is numbered by the steps. -/
  current_eq : r.current = (gs.length - 1) % r.mode.slots
  /-- Slots and generations of one age agree. -/
  slot_eq : ∀ age < r.mode.slots, ∀ g ∈ gs[age]?, r.slot (r.behind age) = g

variable {g : Grid} {past : List Grid}

/-- One grid in the first slot is all that there is at the start. -/
theorem Uniform.holds_single (hr : r.Uniform width height) (h0 : r.current = 0) :
    r.Holds [r.currentGrid] := by
  refine ⟨h0.trans (Nat.zero_mod _).symm, fun age _ g hg => ?_⟩
  cases age with
  | zero =>
    obtain rfl : r.currentGrid = g := Option.some.inj hg
    rw [hr.shaped.behind_zero]
    rfl
  | succ age => cases hg

/-- **A step** adds a generation. -/
theorem Holds.advanced (hh : r.Holds (g :: past)) (hr : r.Uniform width height) (law : Law) :
    (r.advanced law).Holds ((r.advanced law).currentGrid :: g :: past) := by
  constructor
  · change r.nextIndex = (past.length + 1) % r.mode.slots
    rw [nextIndex, hr.size_slots, hh.current_eq]
    exact Nat.mod_add_mod _ _ _
  · intro age hage k hk
    cases age with
    | zero =>
      obtain rfl : (r.advanced law).currentGrid = k := Option.some.inj hk
      rw [(hr.advanced law).shaped.behind_zero]
      rfl
    | succ age =>
      -- what was of this age less one is not in the slot that has been written
      have hage' : age + 1 < r.mode.slots := hage
      rw [hr.behind_advanced law hage']
      refine (slot_withSlot_of_ne (hr.shaped.behind_ne_nextIndex hage').symm r _).trans ?_
      exact hh.slot_eq age (Nat.lt_of_succ_lt hage') k hk

/-- **An edit** changes the newest generation. -/
theorem Holds.replaceCurrent (hh : r.Holds (g :: past)) (hr : r.Uniform width height) (k : Grid) :
    (r.replaceCurrent k).Holds (k :: past) := by
  have hcurrent : r.current < r.slots.size := hr.size_slots ▸ hr.current_lt
  have hbehind : ∀ age, (r.replaceCurrent k).behind age = r.behind age := fun age => by
    rw [behind, Ring.replaceCurrent, size_slots_withSlot]
    rfl
  refine ⟨hh.current_eq, fun age hage l hl => ?_⟩
  rw [hbehind]
  cases age with
  | zero =>
    obtain rfl : k = l := Option.some.inj hl
    rw [hr.shaped.behind_zero]
    exact slot_withSlot_self hcurrent k
  | succ age =>
    have hne := hr.shaped.behind_ne_current (Nat.succ_pos age) hage
    exact (slot_withSlot_of_ne hne.symm r k).trans (hh.slot_eq (age + 1) hage l hl)

/-- **One operation** leaves the slots holding the generations of the run that it ends. -/
theorem Holds.perform (hh : (r.run ops).Holds (r.generations ops))
    (hr : (r.run ops).Uniform width height) (hop : (r.run ops).KeepsSize op) :
    (∃ w h, (r.run (ops ++ [op])).Uniform w h) ∧
      (r.run (ops ++ [op])).mode = (r.run ops).mode ∧
      (r.run (ops ++ [op])).Holds (r.generations (ops ++ [op])) := by
  have hcurrent := hr.currentGrid
  rw [run_concat]
  cases op with
  | step law =>
    have hturn : (r.run ops).perform (.step law) = ((r.run ops).advanced law, none) :=
      hr.turn_eq law
    have hadvances : ((r.run ops).moment (.step law)).advances = true := by
      rw [Moment.advances, moment, hturn]
      rfl
    rw [generations_of_advances rfl hadvances, hturn]
    exact ⟨⟨_, _, hr.advanced law⟩, rfl, hh.advanced hr law⟩
  | resetTo g =>
    by_cases hg : g.width = width ∧ g.height = height
    · have hsize : g.HasSize width height := Grid.IsFull.hasSize hop hg.1 hg.2
      have hreset : (r.run ops).perform (.resetTo g) = ((r.run ops).reseed fun _ => g, none) :=
        hr.resetTo_eq hsize
      have hrefills : ((r.run ops).moment (.resetTo g)).refills = true := by
        rw [Moment.refills, moment, hreset]
        rfl
      have hfilled := hr.reseed (f := fun _ => g) hsize
      rw [generations_of_refills hrefills, hreset]
      exact ⟨⟨_, _, hfilled⟩, rfl, hfilled.holds_single rfl⟩
    · -- the first slot refuses the grid, and nothing has changed
      have hreset : (r.run ops).perform (.resetTo g) = (r.run ops, some _) :=
        hr.resetTo_refused hg
      have hrefills : ((r.run ops).moment (.resetTo g)).refills = false := by
        rw [Moment.refills, moment, hreset]
        rfl
      rw [generations_of_not hrefills rfl, hreset]
      exact ⟨⟨_, _, hr⟩, rfl, hh⟩
  | reseed fill =>
    have hfilled := hr.reseed (f := fill) hop
    rw [generations_of_refills rfl]
    exact ⟨⟨_, _, hfilled⟩, rfl, hfilled.holds_single rfl⟩
  | edit change =>
    have hsize : (change (r.run ops).currentGrid).HasSize width height :=
      Grid.IsFull.hasSize (Grid.HasSize.isFull hop) (hop.width_eq.trans hcurrent.width_eq)
        (hop.height_eq.trans hcurrent.height_eq)
    have hedited : ((r.run ops).perform (.edit change)).1.currentGrid =
        change (r.run ops).currentGrid :=
      currentGrid_replaceCurrent (hr.size_slots ▸ hr.current_lt) _
    rw [generations_of_not rfl rfl, hedited]
    exact ⟨⟨_, _, hr.replaceCurrent hsize⟩, rfl, hh.replaceCurrent hr _⟩

/-- **A whole run** leaves the slots holding its generations. -/
theorem Uniform.holds_run (hr : r.Uniform width height) (h0 : r.current = 0)
    (hops : r.KeepsSizes ops) :
    (∃ w h, (r.run ops).Uniform w h) ∧ (r.run ops).mode = r.mode ∧
      (r.run ops).Holds (r.generations ops) := by
  induction ops using List.reverseRecOn with
  | nil => exact ⟨⟨_, _, hr⟩, rfl, hr.holds_single h0⟩
  | append_singleton ops op ih =>
    obtain ⟨hops, hop⟩ := keepsSizes_concat.mp hops
    obtain ⟨⟨w, h, huniform⟩, hmode, hholds⟩ := ih hops
    obtain ⟨hnext, hmode', hholds'⟩ := hholds.perform huniform hop
    exact ⟨hnext, hmode'.trans hmode, hholds'⟩

/-- Once there are as many generations as slots, the slots read backwards are the latest of them. -/
theorem Holds.backwards_eq {gs : List Grid} (hh : r.Holds gs)
    (hr : r.Shaped) (hmany : r.mode.slots ≤ gs.length) : r.backwards = gs.take r.mode.slots := by
  refine List.ext_getElem ?_ fun age h₁ h₂ => ?_
  · rw [backwards, List.length_map, List.length_range, List.length_take, hr.size_slots,
      Nat.min_eq_left hmany]
  · have hage : age < r.mode.slots := Nat.lt_of_lt_of_le h₂ (List.length_take_le _ _)
    simp only [backwards, List.getElem_map, List.getElem_range, List.getElem_take]
    exact hh.slot_eq age hage _ (List.getElem?_eq_getElem (Nat.lt_of_lt_of_le hage hmany))

theorem Begins.current_eq {h : History} (hr : Begins r h) : r.current = 0 := by
  cases hr with
  | black hg hr =>
    obtain ⟨k, -, rfl⟩ := black_eq_ok_iff.mp hr
    rfl
  | pair ha hb hr =>
    obtain ⟨-, rfl⟩ := ofGrids_pair_eq_ok_iff.mp hr
    rfl
  | triple ha hb hc hr =>
    obtain ⟨-, -, rfl⟩ := ofGrids_triple_eq_ok_iff.mp hr
    rfl

/-- **The slots of a ring rotate.** After any run from a new ring in which the slots stay of one
size, the current slot is numbered by the steps taken since all slots were filled, modulo the number
of slots. A further step is not refused, makes the next slot current and changes no other slot. Read
backwards from the current one, in an order that has each of them once, the slots hold the latest
generations, the newest first, as soon as there are as many generations as slots. -/
theorem slots_rotate {h : History} (hr : Begins r h) (hops : r.KeepsSizes ops) :
    (r.run ops).slots.size = r.mode.slots ∧
      (r.run ops).current = r.stepsSince ops % r.mode.slots ∧
      (∀ law, ∃ after, (r.run ops).turn law = (after, none) ∧
        after.current = ((r.run ops).current + 1) % r.mode.slots ∧
        after.slot after.current =
          (r.run ops).currentGrid.generation (r.run ops).previousGrid law ∧
        ∀ i, i ≠ after.current → after.slot i = (r.run ops).slot i) ∧
      ((List.range r.mode.slots).map (r.run ops).behind).Perm (List.range r.mode.slots) ∧
      (r.mode.slots - 1 ≤ r.stepsSince ops →
        (r.run ops).backwards = (r.generations ops).take r.mode.slots) := by
  obtain ⟨⟨width, height, huniform⟩, hmode, hholds⟩ :=
    hr.shows.uniform.holds_run hr.current_eq hops
  have hlength := r.length_generations ops
  have hcurrent := hholds.current_eq
  rw [hlength, Nat.add_sub_cancel] at hcurrent
  rw [← hmode]
  refine ⟨huniform.size_slots, hcurrent, fun law => ?_, huniform.shaped.perm_behind,
    fun hmany => hholds.backwards_eq huniform.shaped (by omega)⟩
  refine ⟨_, huniform.turn_eq law, ?_, huniform.currentGrid_advanced law, fun i hi => ?_⟩
  · exact congrArg (((r.run ops).current + 1) % ·) huniform.size_slots
  · exact slot_withSlot_of_ne (Ne.symm hi) _ _

/-- **Three steps, with an edit after the first** and a grid of another size that is refused before
the last. What was current when the first step was taken is no longer held, and neither is what the
edit replaced. -/
theorem slots_rotate_edited :
    let lone (v : Float32) : Grid := ⟨1, 1, #[.splat v]⟩
    let law : Law := ⟨⟨1, 1⟩, some fun s => s.cell + .splat 0.25⟩
    let ops : List Operation := [.step law, .edit fun g => g.fill (.splat 0.5), .step law,
      .resetTo ⟨2, 1, #[.black, .black]⟩, .step law]
    let ring : Ring := ⟨.lookback, #[lone 0, lone 0.125, lone 0.375], 0⟩
    Begins ring ⟨lone 0, some (lone 0.375)⟩ ∧ ring.KeepsSizes ops ∧
      ring.mode.slots - 1 ≤ ring.stepsSince ops ∧
      ring.generations ops = [lone 1, lone 0.75, lone 0.5, lone 0] ∧
      (ring.run ops).current = 3 % 3 ∧
      (ring.run ops).backwards = [lone 1, lone 0.75, lone 0.5] := by
  intro lone law ops ring
  have hbegins : Begins ring ⟨lone 0, some (lone 0.375)⟩ :=
    .triple (b := lone 0.125) ⟨rfl, rfl, rfl⟩ ⟨rfl, rfl, rfl⟩ ⟨rfl, rfl, rfl⟩ rfl
  have hkeeps : ring.KeepsSizes ops :=
    ⟨trivial, ⟨by decide, by decide, by decide⟩, trivial, ⟨rfl, rfl, rfl⟩, trivial, trivial⟩
  have hsteps : ring.stepsSince ops = 3 := by decide +kernel
  have hmany : ring.mode.slots - 1 ≤ ring.stepsSince ops := by
    rw [hsteps]
    decide
  have hgenerations : ring.generations ops = [lone 1, lone 0.75, lone 0.5, lone 0] := by
    decide +kernel
  obtain ⟨-, hcurrent, -, -, hbackwards⟩ := slots_rotate hbegins hkeeps
  refine ⟨hbegins, hkeeps, hmany, hgenerations, ?_, ?_⟩
  · rw [hcurrent, hsteps]
    rfl
  · rw [hbackwards hmany, hgenerations]
    rfl

end Ring

end Moorland
