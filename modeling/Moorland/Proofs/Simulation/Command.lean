import Moorland.Proofs.Ring.Uniform
import Moorland.Simulation
/-!
# Commands

A **command** is one operation of a simulation with its arguments, so that a run of a simulation is
a list of commands (`Moorland.Simulation.perform`, `Moorland.Simulation.run`). Failing commands are
performed too, and leave whatever trace they leave.

The other half of this file says what the operations do to a ring that is uniform. A step is never
refused (`Moorland.Simulation.step_eq`), and no command makes the ring anything but uniform of the
same size (`Moorland.Simulation.uniform_perform`), whether it fails or not and whatever the mode was
or becomes.
-/

namespace Moorland

namespace Simulation

/-! ### Commands and runs -/

/-- **An operation of a simulation with its arguments.** -/
inductive Command
  /-- Replace both thresholds. -/
  | setThresholds (lower upper : Float32)
  /-- Replace the lower threshold. -/
  | setLower (lower : Float32)
  /-- Replace the upper threshold. -/
  | setUpper (upper : Float32)
  /-- Put the thresholds of a preset into effect. -/
  | applyPreset (preset : Preset)
  /-- Put a rule into effect, or take it away. -/
  | setRule (rule : Option Rule)
  /-- Skip the pixels of another mode. -/
  | withStampMode (mode : StampMode)
  /-- Draw random numbers from the stream of a seed. -/
  | withSeed (seed : UInt64)
  /-- Keep another number of generations. -/
  | withBufferMode (mode : BufferMode)
  /-- Seed all grids. -/
  | randomize (intensity : Intensity)
  /-- Take the population from all grids. -/
  | clear
  /-- Replace all grids by a given one. -/
  | resetTo (g : Grid)
  /-- Advance one generation. -/
  | step
  /-- Advance a number of generations. -/
  | steps (n : Nat)
  /-- Paint a brush. -/
  | stamp (b : Brush) (x y : Int)
  /-- Read a region. -/
  | capture (r : Region)
  /-- Read a region around a point. -/
  | captureCentered (cx cy : Int) (width height : Nat)

/-- **What a command that succeeds answers.** -/
inductive Reply
  /-- It has been done. -/
  | done
  /-- A brush has been painted. -/
  | stamped (report : StampReport)
  /-- A region has been read. -/
  | captured (b : Brush)
deriving DecidableEq

/-- The answer with its value made into a reply. -/
def Answer.reply {α : Type} (make : α → Reply) (a : Answer α) : Answer Reply := (a.1.map make, a.2)

/-- **Perform a command.** Where only the simulation after it is given, the old one stays if there
is none. -/
def perform (s : Simulation) : Command → Answer Reply
  | .setThresholds lower upper => Answer.reply (fun _ => .done) (s.setThresholds lower upper)
  | .setLower lower => Answer.reply (fun _ => .done) (s.setLower lower)
  | .setUpper upper => Answer.reply (fun _ => .done) (s.setUpper upper)
  | .applyPreset preset => (.ok .done, s.applyPreset preset)
  | .setRule rule => (.ok .done, s.setRule rule)
  | .withStampMode mode => (.ok .done, s.withStampMode mode)
  | .withSeed seed => (.ok .done, s.withSeed seed)
  | .withBufferMode mode =>
    match s.withBufferMode mode with
    | .ok t => (.ok .done, t)
    | .error refusal => (.error refusal, s)
  | .randomize intensity => (.ok .done, s.randomize intensity)
  | .clear => (.ok .done, s.clear)
  | .resetTo g => Answer.reply (fun _ => .done) (s.resetTo g)
  | .step => Answer.reply (fun _ => .done) s.step
  | .steps n => Answer.reply (fun _ => .done) (s.steps n)
  | .stamp b x y => Answer.reply .stamped (s.stamp b x y)
  | .capture r => Answer.reply .captured (s.capture r)
  | .captureCentered cx cy width height =>
    Answer.reply .captured (s.captureCentered cx cy width height)

/-- The simulation after a list of commands, failing ones included. -/
def run (s : Simulation) (commands : List Command) : Simulation :=
  commands.foldl (fun s c => (s.perform c).2) s

/-- **What can be seen of a simulation** without asking how many generations it keeps. -/
structure Observation where
  /-- The width of the grids. -/
  width : Nat
  /-- The height of the grids. -/
  height : Nat
  /-- The current generation. -/
  grid : Grid
  /-- Its statistics. -/
  statistics : Statistics
  /-- The number of the generation. -/
  generation : UInt64
  /-- The thresholds in effect. -/
  thresholds : Thresholds
  /-- There is a rule. -/
  hasRule : Bool
  /-- The seed of the stream, if it was given. -/
  seed : Option UInt64
  /-- The number of steps that have been counted. -/
  steps : UInt64
  /-- The number of cells with population when they were last counted. -/
  live : UInt64
  /-- The number of steps between summaries. -/
  interval : UInt64
  /-- The counters, by name. -/
  counters : List (String × UInt64)
deriving DecidableEq

/-- **Look at a simulation.** -/
def observe (s : Simulation) : Observation where
  width := s.width
  height := s.height
  grid := s.currentGrid
  statistics := s.statistics
  generation := s.generation
  thresholds := s.thresholds
  hasRule := s.rule.isSome
  seed := s.seed
  steps := s.metrics.steps
  live := s.metrics.live
  interval := s.metrics.interval
  counters := s.metrics.counters

/-- **The trace of a list of commands**: what each of them answers, and what is seen after it. -/
def trace (s : Simulation) : List Command → List (Except Refusal Reply × Observation)
  | [] => []
  | c :: commands =>
    ((s.perform c).1, (s.perform c).2.observe) :: (s.perform c).2.trace commands

/-- **The arguments of a command are well formed**: a given grid has as many cells as its size asks
for, as every grid has that can be obtained (`Moorland.Grid.Obtained.valid`). -/
def Command.WellFormed : Command → Prop
  | .resetTo g => g.IsFull
  | _ => True

variable {s t : Simulation} {width height : Nat}

/-! ### Making simulations -/

/-- **A simulation is made** from accepted thresholds and a ring without population. -/
theorem make_eq_ok_iff {stream : Stream} {journal : Journal} {lower upper : Float32} :
    make stream journal width height lower upper = .ok s ↔
      ∃ thresholds ring, Thresholds.check lower upper = .ok thresholds ∧
        Ring.black width height .double = .ok ring ∧
        s = ⟨ring, thresholds, none, .alphaOnly, stream, none, 0, .standard, journal⟩ := by
  rw [make, bind_eq_ok_iff]
  constructor
  · rintro ⟨thresholds, ht, hs⟩
    obtain ⟨ring, hr, hs⟩ := bind_eq_ok_iff.mp hs
    exact ⟨thresholds, ring, ht, hr, (Except.ok.inj hs).symm⟩
  · rintro ⟨thresholds, ring, ht, hr, rfl⟩
    exact ⟨thresholds, ht, bind_eq_ok_iff.mpr ⟨ring, hr, rfl⟩⟩

/-- **Every size without a zero**, with thresholds that pass the check, has a simulation. -/
theorem exists_make {stream : Stream} {journal : Journal} {lower upper : Float32}
    {thresholds : Thresholds} (hw : 0 < width) (hh : 0 < height)
    (ht : Thresholds.check lower upper = .ok thresholds) :
    ∃ ring, make stream journal width height lower upper =
      .ok ⟨ring, thresholds, none, .alphaOnly, stream, none, 0, .standard, journal⟩ := by
  obtain ⟨ring, hring⟩ := Ring.exists_black hw hh .double
  exact ⟨ring, make_eq_ok_iff.mpr ⟨thresholds, ring, ht, hring, rfl⟩⟩

/-- **All that the mode decides** when a simulation is made is the ring without population: it is
made with two slots, and gets another ring only if it is to have three. -/
theorem exists_made (hw : 0 < width) (hh : 0 < height) {lower upper : Float32}
    {thresholds : Thresholds} (ht : Thresholds.check lower upper = .ok thresholds) (stream : Stream)
    (journal : Journal) (mode : BufferMode) :
    ∃ first ring, make stream journal width height lower upper =
        .ok ⟨first, thresholds, none, .alphaOnly, stream, none, 0, .standard, journal⟩ ∧
      Ring.black width height mode = .ok ring ∧
      withBufferMode ⟨first, thresholds, none, .alphaOnly, stream, none, 0, .standard, journal⟩
          mode =
        .ok ⟨ring, thresholds, none, .alphaOnly, stream, none, 0, .standard, journal⟩ := by
  obtain ⟨first, hfirst⟩ := Ring.exists_black hw hh .double
  obtain ⟨ring, hring⟩ := Ring.exists_black hw hh mode
  have hsize : (first.slot 0).HasSize width height :=
    (Ring.uniform_black hfirst).hasSize 0 (Ring.slots_pos _)
  refine ⟨first, ring, make_eq_ok_iff.mpr ⟨thresholds, first, ht, hfirst, rfl⟩, hring, ?_⟩
  rw [withBufferMode, Simulation.width, Simulation.height, Ring.width, Ring.height, hsize.width_eq,
    hsize.height_eq, hring, Ring.mode_black hfirst]
  by_cases hm : mode = .double
  · subst hm
    rw [if_pos rfl, Except.ok.inj (hring.symm.trans hfirst)]
  · rw [if_neg hm]
    rfl

/-! ### The mode -/

theorem ring_settle (s : Simulation) (a : Ring × Option Refusal) : (s.settle a).2.ring = a.1 := by
  rcases a with ⟨ring, _ | refusal⟩ <;> rfl

theorem mode_step (s : Simulation) : s.step.2.ring.mode = s.ring.mode := by
  rw [step, ring_settle, Ring.mode_turn]

/-- **What every step keeps is kept by any number of them**, up to the first that is refused. -/
theorem steps_keeps {P : Simulation → Prop} (hstep : ∀ s, P s → P s.step.2) (hs : P s) (n : Nat) :
    P (s.steps n).2 := by
  induction n generalizing s with
  | zero => exact hs
  | succ n ih =>
    have hnext := hstep s hs
    rw [steps]
    split
    · next hok =>
      rw [hok] at hnext
      exact ih hnext
    · next hrefused =>
      rw [hrefused] at hnext
      exact hnext

theorem mode_steps (s : Simulation) (n : Nat) : (s.steps n).2.ring.mode = s.ring.mode :=
  steps_keeps (P := fun t => t.ring.mode = s.ring.mode) (fun t ht => (mode_step t).trans ht) rfl n

theorem ring_resetTo (s : Simulation) (g : Grid) :
    (s.resetTo g).2.ring = (s.ring.resetTo g).1 := by
  rw [resetTo]
  rcases s.ring.resetTo g with ⟨ring, _ | refusal⟩ <;> rfl

theorem mode_stamp (s : Simulation) (b : Brush) (x y : Int) :
    (s.stamp b x y).2.ring.mode = s.ring.mode := by
  rw [stamp]
  split
  · rfl
  · dsimp only
    split <;> rfl

theorem ring_capture (s : Simulation) (r : Region) : (s.capture r).2.ring = s.ring := by
  rw [capture]
  split <;> rfl

theorem ring_captureCentered (s : Simulation) (cx cy : Int) (width height : Nat) :
    (s.captureCentered cx cy width height).2.ring = s.ring := by
  rw [captureCentered]
  split
  · rfl
  · exact ring_capture s _

theorem ring_setThresholds (s : Simulation) (lower upper : Float32) :
    (s.setThresholds lower upper).2.ring = s.ring := by
  rw [setThresholds]
  split <;> rfl

/-- **Only one command changes the mode.** -/
theorem mode_perform {c : Command} (hc : ∀ mode, c ≠ .withBufferMode mode) :
    (s.perform c).2.ring.mode = s.ring.mode := by
  cases c with
  | setThresholds lower upper => exact congrArg Ring.mode (ring_setThresholds s lower upper)
  | setLower lower => exact congrArg Ring.mode (ring_setThresholds s lower s.thresholds.upper)
  | setUpper upper => exact congrArg Ring.mode (ring_setThresholds s s.thresholds.lower upper)
  | withBufferMode mode => exact absurd rfl (hc mode)
  | resetTo g => exact (congrArg Ring.mode (ring_resetTo s g)).trans (Ring.mode_resetTo s.ring g)
  | step => exact mode_step s
  | steps n => exact mode_steps s n
  | stamp b x y => exact mode_stamp s b x y
  | capture r => exact congrArg Ring.mode (ring_capture s r)
  | captureCentered cx cy w l => exact congrArg Ring.mode (ring_captureCentered s cx cy w l)
  | applyPreset | setRule | withStampMode | withSeed | randomize | clear => rfl

theorem mode_run {commands : List Command} (hc : ∀ c ∈ commands, ∀ mode, c ≠ .withBufferMode mode) :
    (s.run commands).ring.mode = s.ring.mode := by
  induction commands generalizing s with
  | nil => rfl
  | cons c commands ih =>
    have hstep : (s.perform c).2.ring.mode = s.ring.mode := mode_perform (hc c List.mem_cons_self)
    exact (ih fun d hd => hc d (List.mem_cons_of_mem c hd)).trans hstep

/-! ### On a uniform ring -/

theorem width_eq (hs : s.ring.Uniform width height) : s.width = width :=
  (hs.hasSize 0 (Ring.slots_pos _)).width_eq

theorem height_eq (hs : s.ring.Uniform width height) : s.height = height :=
  (hs.hasSize 0 (Ring.slots_pos _)).height_eq

/-- **A step is never refused.** -/
theorem step_eq (hs : s.ring.Uniform width height) :
    s.step = s.settle (s.ring.advanced s.law, none) := by
  rw [step, hs.turn_eq]

theorem uniform_step (hs : s.ring.Uniform width height) : s.step.2.ring.Uniform width height := by
  rw [step_eq hs, ring_settle]
  exact hs.advanced s.law

/-- The steps after the first are those of the simulation after it. -/
theorem steps_succ (hs : s.ring.Uniform width height) (n : Nat) :
    s.steps (n + 1) = s.step.2.steps n := by
  rw [steps, step_eq hs]
  rfl

theorem uniform_steps (hs : s.ring.Uniform width height) (n : Nat) :
    (s.steps n).2.ring.Uniform width height :=
  steps_keeps (P := fun t => t.ring.Uniform width height) (fun _ => uniform_step) hs n

/-- **No number of steps is refused.** -/
theorem fst_steps (hs : s.ring.Uniform width height) (n : Nat) : (s.steps n).1 = .ok () := by
  induction n generalizing s with
  | zero => rfl
  | succ n ih =>
    rw [steps_succ hs]
    exact ih (uniform_step hs)

/-- **Replacing all grids succeeds** with a grid of the size of the ring. -/
theorem resetTo_eq (hs : s.ring.Uniform width height) {g : Grid} (hg : g.HasSize width height) :
    s.resetTo g = (.ok (), s.restart (s.ring.reseed fun _ => g)) := by
  rw [resetTo, hs.resetTo_eq hg]

/-- **Replacing all grids is refused** with a grid of another size, and changes nothing. -/
theorem resetTo_refused (hs : s.ring.Uniform width height) {g : Grid}
    (hg : ¬(g.width = width ∧ g.height = height)) :
    s.resetTo g = (.error (.sizeMismatch (.copy g.width g.height width height)), s) := by
  rw [resetTo, hs.resetTo_refused hg]

/-- **Painting keeps a ring uniform**: a brush is painted on the current grid only, and keeps its
size. -/
theorem uniform_stamp (hs : s.ring.Uniform width height) (b : Brush) (x y : Int) :
    (s.stamp b x y).2.ring.Uniform width height := by
  rw [stamp]
  split
  · exact hs
  · next hg =>
    have hring := hs.replaceCurrent (hs.currentGrid.stamp hg)
    split
    · exact hring
    · exact hring

/-- **Keeping another number of generations** makes a ring of the same size. -/
theorem uniform_withBufferMode {mode : BufferMode}
    (hs : s.ring.Uniform width height) (ht : s.withBufferMode mode = .ok t) :
    t.ring.Uniform width height := by
  rw [withBufferMode, width_eq hs, height_eq hs] at ht
  split at ht
  · cases ht
    exact hs
  · obtain ⟨ring, hr, ht⟩ := bind_eq_ok_iff.mp ht
    cases ht
    exact Ring.uniform_black hr

/-- **Every command keeps a ring uniform and its size.** -/
theorem uniform_perform (hs : s.ring.Uniform width height) {c : Command} (hc : c.WellFormed) :
    (s.perform c).2.ring.Uniform width height := by
  cases c with
  | setThresholds lower upper => exact (ring_setThresholds s lower upper).symm ▸ hs
  | setLower lower => exact (ring_setThresholds s lower s.thresholds.upper).symm ▸ hs
  | setUpper upper => exact (ring_setThresholds s s.thresholds.lower upper).symm ▸ hs
  | applyPreset preset => exact hs
  | setRule rule => exact hs
  | withStampMode mode => exact hs
  | withSeed seed => exact hs
  | withBufferMode mode =>
    rw [perform]
    split
    · next ht => exact uniform_withBufferMode hs ht
    · exact hs
  | randomize intensity =>
    -- the grid that is seeded is that of the first slot, so its size is that of the ring
    have hseeded := (hs.hasSize 0 (Ring.slots_pos _)).randomize intensity s.stream
    exact hs.reseed (f := fun _ => _) hseeded
  | clear => exact hs.reseed ((hs.hasSize 0 (Ring.slots_pos _)).fill .black)
  | resetTo g =>
    change (s.resetTo g).2.ring.Uniform width height
    -- a grid of another size is refused by the first slot, and nothing has been overwritten then
    by_cases hg : g.width = width ∧ g.height = height
    · have hsize := Grid.IsFull.hasSize hc hg.1 hg.2
      rw [resetTo_eq hs hsize]
      exact hs.reseed (f := fun _ => g) hsize
    · rw [resetTo_refused hs hg]
      exact hs
  | step => exact uniform_step hs
  | steps n => exact uniform_steps hs n
  | stamp b x y => exact uniform_stamp hs b x y
  | capture r => exact (ring_capture s r).symm ▸ hs
  | captureCentered cx cy w h => exact (ring_captureCentered s cx cy w h).symm ▸ hs

end Simulation

end Moorland
