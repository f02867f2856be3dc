import Moorland.Proofs.Ring.Uniform
/-!
# Rings as histories

All that can be seen of a ring is its current generation and, with three slots, the generation
before it. This file shows that a ring is nothing more than these two: it behaves as a machine
without slots, `Moorland.History`, in which a step makes the current generation the one before and
puts the generation after the two in its place.

The main statement is `Moorland.Ring.history_run`. It speaks of every run, from every way to make a
ring, and says that ring and history agree after each of its operations and that none of them is
refused. What a slot held before it is written, and the placeholder that stands in for it, are thus
never seen; and an edit of the current generation is what the next step reads and keeps.

The relation between the two machines is that the ring is uniform, of the size of the current
generation, and shows the history (`Moorland.Ring.Shows`). Each operation keeps it.
-/

namespace Moorland

/-- **A history**: the current generation, and the one before it if that is kept. -/
structure History where
  /-- The current generation. -/
  current : Grid
  /-- The generation before the current one, if it is kept. -/
  previous : Option Grid
deriving DecidableEq

namespace Ring

/-! ### Operations -/

/-- **An operation on a ring.** -/
inductive Operation
  /-- Advance one generation. -/
  | step (law : Law)
  /-- Copy a grid over every slot. -/
  | resetTo (g : Grid)
  /-- Fill every slot anew. -/
  | reseed (fill : Grid → Grid)
  /-- Edit the current grid. -/
  | edit (change : Grid → Grid)

/-- The ring after an operation, and why the operation was refused if it was. -/
def perform (r : Ring) : Operation → Ring × Option Refusal
  | .step law => r.turn law
  | .resetTo g => r.resetTo g
  | .reseed fill => (r.reseed fill, none)
  | .edit change => (r.replaceCurrent (change r.currentGrid), none)

/-- The ring after a list of operations, refused ones included. -/
def run (r : Ring) (ops : List Operation) : Ring := ops.foldl (fun r op => (r.perform op).1) r

/-- **What can be seen of a ring.** -/
def history (r : Ring) : History := ⟨r.currentGrid, r.previousGrid⟩

end Ring

namespace History

/-- **The history after an operation.** A step moves the current generation to where the one before
it is kept, an edit leaves that one alone, and any other operation replaces both. -/
def perform (h : History) : Ring.Operation → History
  | .step law => ⟨h.current.generation h.previous law, h.previous.map fun _ => h.current⟩
  | .resetTo g => ⟨g, h.previous.map fun _ => g⟩
  | .reseed fill => ⟨fill h.current, h.previous.map fun _ => fill h.current⟩
  | .edit change => ⟨change h.current, h.previous⟩

/-- The history after a list of operations. -/
def run (h : History) (ops : List Ring.Operation) : History := ops.foldl perform h

/-- **The operation can be applied**: a given grid has the size of the current one, and so has an
edited one; and what is filled in does not depend on what was there. -/
def Admits (h : History) : Ring.Operation → Prop
  | .step _ => True
  | .resetTo g => g.HasSize h.current.width h.current.height
  | .reseed fill => (fill h.current).IsFull ∧
      ∀ g : Grid, g.HasSize h.current.width h.current.height → fill g = fill h.current
  | .edit change => (change h.current).HasSize h.current.width h.current.height

/-- **Every operation of a run can be applied** when its turn comes. -/
def AdmitsRun (h : History) : List Ring.Operation → Prop
  | [] => True
  | op :: ops => h.Admits op ∧ (h.perform op).AdmitsRun ops

variable {h : History} {ops : List Ring.Operation}

theorem AdmitsRun.take (hops : h.AdmitsRun ops) (n : Nat) : h.AdmitsRun (ops.take n) := by
  induction ops generalizing h n with
  | nil => rwa [List.take_nil]
  | cons op ops ih =>
    cases n with
    | zero => trivial
    | succ n => exact ⟨hops.1, ih hops.2 n⟩

theorem AdmitsRun.admits (hops : h.AdmitsRun ops) {n : Nat} {op : Ring.Operation}
    (hn : ops[n]? = some op) : (h.run (ops.take n)).Admits op := by
  induction ops generalizing h n with
  | nil => cases hn
  | cons first ops ih =>
    cases n with
    | zero =>
      obtain rfl : first = op := Option.some.inj hn
      exact hops.1
    | succ n => exact ih hops.2 hn

end History

namespace Ring

/-! ### A ring shows a history -/

/-- **The ring shows the history**, and has its size. -/
structure Shows (r : Ring) (h : History) : Prop where
  /-- The ring is uniform. -/
  uniform : r.Uniform h.current.width h.current.height
  /-- It shows the history. -/
  history_eq : r.history = h

variable {r : Ring} {h : History}

/-- A uniform ring shows its history. -/
theorem Uniform.shows {width height : Nat} (hr : r.Uniform width height) (hh : r.history = h) :
    r.Shows h := by
  subst hh
  have hc := hr.currentGrid
  refine ⟨?_, rfl⟩
  change r.Uniform r.currentGrid.width r.currentGrid.height
  rwa [hc.width_eq, hc.height_eq]

/-- **One operation** that can be applied is not refused, and afterwards the ring shows the history
after it. -/
theorem Shows.perform (hr : r.Shows h) {op : Operation} (hop : h.Admits op) :
    (r.perform op).2 = none ∧ (r.perform op).1.Shows (h.perform op) := by
  obtain ⟨hu, rfl⟩ := hr
  change r.Uniform r.currentGrid.width r.currentGrid.height at hu
  cases op with
  | step law =>
    rw [Ring.perform, hu.turn_eq]
    refine ⟨rfl, (hu.advanced law).shows ?_⟩
    rw [history, hu.currentGrid_advanced, hu.previousGrid_advanced]
    rfl
  | resetTo g =>
    have hg : g.HasSize r.currentGrid.width r.currentGrid.height := hop
    rw [Ring.perform, hu.resetTo_eq hg]
    refine ⟨rfl, (hu.reseed (f := fun _ => g) hg).shows ?_⟩
    rw [history, hu.currentGrid_reseed, hu.previousGrid_reseed]
    rfl
  | reseed fill =>
    obtain ⟨hfull, hconst⟩ := hop
    have hfill : fill (r.slot 0) = fill r.currentGrid := hconst _ (hu.hasSize 0 (slots_pos _))
    refine ⟨rfl, (hu.reseed (f := fill) (hfill ▸ hfull)).shows ?_⟩
    rw [history, hu.currentGrid_reseed, hu.previousGrid_reseed, hfill]
    rfl
  | edit change =>
    have hg : (change r.currentGrid).HasSize r.currentGrid.width r.currentGrid.height := hop
    refine ⟨rfl, (hu.replaceCurrent hg).shows ?_⟩
    rw [history, currentGrid_replaceCurrent (hu.size_slots ▸ hu.current_lt),
      hu.previousGrid_replaceCurrent]
    rfl

/-- **A whole run** leads from a ring that shows a history to one that shows the history after the
run. -/
theorem Shows.run (hr : r.Shows h) {ops : List Operation} (hops : h.AdmitsRun ops) :
    (r.run ops).Shows (h.run ops) := by
  induction ops generalizing r h with
  | nil => exact hr
  | cons op ops ih => exact ih (hr.perform hops.1).2 hops.2

/-! ### Where a run begins -/

/-- The generation before a grid without population, if the mode keeps it: another one. -/
def keptBefore : BufferMode → Grid → Option Grid
  | .double, _ => none
  | .lookback, g => some g

/-- **The history that a new ring begins with.** A ring without population begins with black grids.
One of given grids begins with the first of them and, where the generation before is kept, with the
last. -/
inductive Begins : Ring → History → Prop
  /-- A ring without population. -/
  | black {r : Ring} {g : Grid} {width height : Nat} {mode : BufferMode}
      (hg : Grid.black width height = .ok g) (hr : Ring.black width height mode = .ok r) :
      Begins r ⟨g, keptBefore mode g⟩
  /-- A ring of two grids. -/
  | pair {r : Ring} {a b : Grid} (ha : a.IsFull) (hb : b.IsFull)
      (hr : ofGrids [a, b] = .ok r) : Begins r ⟨a, none⟩
  /-- A ring of three grids. -/
  | triple {r : Ring} {a b c : Grid} (ha : a.IsFull) (hb : b.IsFull) (hc : c.IsFull)
      (hr : ofGrids [a, b, c] = .ok r) : Begins r ⟨a, some c⟩

theorem Begins.shows (hr : Begins r h) : r.Shows h := by
  cases hr with
  | @black g width height mode hg hr =>
    refine (uniform_black hr).shows ?_
    obtain ⟨k, hk, rfl⟩ := black_eq_ok_iff.mp hr
    obtain rfl : g = k := Except.ok.inj (hg.symm.trans hk)
    cases mode <;> rfl
  | @pair a b ha hb hr =>
    obtain ⟨hab, rfl⟩ := ofGrids_pair_eq_ok_iff.mp hr
    obtain ⟨hw, hh⟩ := Grid.sameSize_iff.mp hab
    exact ⟨uniform_pair ha (hb.hasSize hw hh), rfl⟩
  | @triple a b c ha hb hc hr =>
    obtain ⟨hab, hac, rfl⟩ := ofGrids_triple_eq_ok_iff.mp hr
    obtain ⟨hw, hh⟩ := Grid.sameSize_iff.mp hab
    obtain ⟨hv, hk⟩ := Grid.sameSize_iff.mp hac
    exact ⟨uniform_triple ha (hb.hasSize hw hh) (hc.hasSize hv hk), rfl⟩

/-! ### The refinement -/

/-- **A ring behaves as its history.** After any number of operations of a run in which each can be
applied, the ring shows the history after these operations, and the operation that follows is not
refused. -/
theorem history_run {ops : List Operation} (hr : Begins r h) (hops : h.AdmitsRun ops) (n : Nat) :
    (r.run (ops.take n)).history = h.run (ops.take n) ∧
      ∀ op ∈ ops[n]?, ((r.run (ops.take n)).perform op).2 = none := by
  have hshows := hr.shows.run (hops.take n)
  exact ⟨hshows.history_eq, fun op hop => (hshows.perform (hops.admits hop)).1⟩

/-- **A run that looks back.** By a rule that takes the cell of the generation before, the black
grid turns white and, edited to grey in between, black again; the grey grid is kept. -/
theorem history_run_looking_back :
    let lone (v : Float32) : Grid := ⟨1, 1, #[.splat v]⟩
    let law : Law := ⟨⟨1, 1⟩, some fun s => s.previous.getD .black⟩
    let ops : List Operation := [.step law, .edit fun g => g.fill (.splat 0.5), .step law]
    let ring : Ring := ⟨.lookback, #[lone 0, lone 0.25, lone 1], 0⟩
    let start : History := ⟨lone 0, some (lone 1)⟩
    Begins ring start ∧ start.AdmitsRun ops ∧
      (ring.run (ops.take 3)).history = ⟨lone 0, some (lone 0.5)⟩ := by
  intro lone law ops ring start
  have hbegins : Begins ring start :=
    .triple (b := lone 0.25) ⟨rfl, rfl, rfl⟩ ⟨rfl, rfl, rfl⟩ ⟨rfl, rfl, rfl⟩ rfl
  have hadmits : start.AdmitsRun ops := ⟨trivial, ⟨rfl, rfl, rfl⟩, trivial, trivial⟩
  exact ⟨hbegins, hadmits, (history_run hbegins hadmits 3).1.trans (by decide)⟩

end Ring

end Moorland
