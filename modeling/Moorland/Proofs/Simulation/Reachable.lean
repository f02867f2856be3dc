import Moorland.Proofs.Configuration.Faults
import Moorland.Proofs.Guarded
/-!
# Reachable simulations

A simulation is **reachable** if it comes from one that was made, with a number of cells that fits
in a word, or set up from a configuration, by performing commands
(`Moorland.Simulation.Reachable`). Commands that fail count too.

Whatever was done to a simulation before, it can be advanced. The main statement,
`Moorland.Simulation.Reachable.steps_succeed`, gives the shape of the ring and the thresholds in
effect, and says that no number of steps is refused and that the guarded steps go through, in which
no cell and no grid is missing. The invariant that it rests on is `Moorland.Simulation.Ready`, and
each command keeps it.
-/

namespace Moorland

namespace Simulation

variable {s t : Simulation} {width height : Nat}

/-! ### What most commands leave alone -/

/-- **The thresholds and the interval of the summaries are the same** on both sides. -/
structure Steady (s t : Simulation) : Prop where
  /-- The thresholds are the same. -/
  thresholds_eq : t.thresholds = s.thresholds
  /-- The interval is the same. -/
  interval_eq : t.metrics.interval = s.metrics.interval

theorem Steady.trans {u : Simulation} (h : Steady s t) (k : Steady t u) : Steady s u :=
  ⟨k.thresholds_eq.trans h.thresholds_eq, k.interval_eq.trans h.interval_eq⟩

theorem steady_settle (s : Simulation) (a : Ring × Option Refusal) : Steady s (s.settle a).2 := by
  rcases a with ⟨ring, _ | refusal⟩
  · exact ⟨rfl, Metrics.interval_recordStep _ _ _ _⟩
  · exact ⟨rfl, rfl⟩

theorem steady_steps (s : Simulation) (n : Nat) : Steady s (s.steps n).2 :=
  steps_keeps (P := Steady s) (fun t ht => ht.trans (steady_settle t _)) ⟨rfl, rfl⟩ n

theorem steady_resetTo (s : Simulation) (g : Grid) : Steady s (s.resetTo g).2 := by
  rw [resetTo]
  split <;> exact ⟨rfl, rfl⟩

theorem steady_stamp (s : Simulation) (b : Brush) (x y : Int) : Steady s (s.stamp b x y).2 := by
  rw [stamp]
  split
  · exact ⟨rfl, rfl⟩
  · dsimp only
    split <;> exact ⟨rfl, rfl⟩

theorem steady_capture (s : Simulation) (r : Region) : Steady s (s.capture r).2 := by
  rw [capture]
  split <;> exact ⟨rfl, rfl⟩

theorem steady_captureCentered (s : Simulation) (cx cy : Int) (w l : Nat) :
    Steady s (s.captureCentered cx cy w l).2 := by
  rw [captureCentered]
  split
  · exact ⟨rfl, rfl⟩
  · exact steady_capture s _

theorem steady_withBufferMode {mode : BufferMode} (ht : s.withBufferMode mode = .ok t) :
    Steady s t := by
  rw [withBufferMode] at ht
  split at ht
  · cases ht
    exact ⟨rfl, rfl⟩
  · obtain ⟨ring, -, ht⟩ := bind_eq_ok_iff.mp ht
    cases ht
    exact ⟨rfl, rfl⟩

/-! ### Setting up -/

/-- **A simulation comes from another one by setting it up**: its metrics are new, and the stamp
mode, the seed and the journal may be others. -/
structure SetUp (interval : UInt64) (s t : Simulation) : Prop where
  /-- The grids are the same. -/
  ring_eq : t.ring = s.ring
  /-- The thresholds are the same. -/
  thresholds_eq : t.thresholds = s.thresholds
  /-- The generation is the same. -/
  generation_eq : t.generation = s.generation
  /-- The metrics have seen nothing. -/
  metrics_eq : t.metrics = .ofInterval interval

/-- **What a configuration sets up** has been made of its size and brought to its mode, and the
configuration has no fault. -/
theorem setUp_of_ofConfiguration {stream : Stream} {journal : Journal} {c : Configuration}
    (hs : ofConfiguration stream journal c = .ok s) :
    c.fault? = none ∧ ∃ lower upper made kept,
      make stream journal c.grid.width c.grid.height lower upper = .ok made ∧
        made.withBufferMode c.grid.buffering = .ok kept ∧ SetUp c.logInterval kept s := by
  -- the check, the thresholds, the simulation and the change of its mode have all gone through
  obtain ⟨d, hd, hs⟩ := bind_eq_ok_iff.mp hs
  obtain ⟨hfault, rfl⟩ := Configuration.check_eq_ok_iff.mp hd
  obtain ⟨thresholds, -, hs⟩ := bind_eq_ok_iff.mp hs
  obtain ⟨made, hmade, hs⟩ := bind_eq_ok_iff.mp hs
  obtain ⟨kept, hkept, hs⟩ := bind_eq_ok_iff.mp hs
  refine ⟨hfault, _, _, made, kept, mapError_eq_ok_iff.mp hmade, mapError_eq_ok_iff.mp hkept, ?_⟩
  cases hs
  rcases c.seed with _ | seed
  · exact ⟨rfl, rfl, rfl, rfl⟩
  · exact ⟨rfl, rfl, rfl, rfl⟩

/-! ### Simulations that can be advanced -/

/-- **A simulation is ready** to be advanced. -/
structure Ready (width height : Nat) (s : Simulation) : Prop where
  /-- The ring is uniform. -/
  uniform : s.ring.Uniform width height
  /-- The thresholds are sound. -/
  sound : s.thresholds.Sound
  /-- The interval of the summaries is not zero. -/
  interval_ne : s.metrics.interval ≠ 0
  /-- There is a column. -/
  width_pos : 0 < width
  /-- There is a row. -/
  height_pos : 0 < height
  /-- The number of cells fits in a word. -/
  size_lt : width * height < UInt64.size

namespace Ready

theorem of_steady (h : Ready width height s) (hu : t.ring.Uniform width height)
    (hs : Steady s t) : Ready width height t :=
  ⟨hu, hs.thresholds_eq ▸ h.sound, hs.interval_eq ▸ h.interval_ne, h.width_pos, h.height_pos,
    h.size_lt⟩

theorem setThresholds (h : Ready width height s) (lower upper : Float32) :
    Ready width height (s.setThresholds lower upper).2 := by
  rw [Simulation.setThresholds]
  rcases hc : Thresholds.check lower upper with refusal | thresholds
  · exact h
  · exact ⟨h.uniform, Thresholds.sound_of_check hc, h.interval_ne, h.width_pos, h.height_pos,
      h.size_lt⟩

theorem withBufferMode (h : Ready width height s) {mode : BufferMode}
    (ht : s.withBufferMode mode = .ok t) : Ready width height t :=
  h.of_steady (uniform_withBufferMode h.uniform ht) (steady_withBufferMode ht)

/-- **Every command keeps a simulation ready**, whether it fails or not. -/
theorem perform (h : Ready width height s) {c : Command} (hc : c.WellFormed) :
    Ready width height (s.perform c).2 := by
  have hu := uniform_perform h.uniform hc
  cases c with
  | setThresholds lower upper => exact h.setThresholds lower upper
  | setLower lower => exact h.setThresholds lower s.thresholds.upper
  | setUpper upper => exact h.setThresholds s.thresholds.lower upper
  | applyPreset preset =>
    exact ⟨hu, preset.sound_thresholds, h.interval_ne, h.width_pos, h.height_pos, h.size_lt⟩
  | withBufferMode mode =>
    rw [Simulation.perform]
    split
    · next ht => exact h.withBufferMode ht
    · exact h
  | resetTo g => exact h.of_steady hu (steady_resetTo s g)
  | step => exact h.of_steady hu (steady_settle s _)
  | steps n => exact h.of_steady hu (steady_steps s n)
  | stamp b x y => exact h.of_steady hu (steady_stamp s b x y)
  | capture r => exact h.of_steady hu (steady_capture s r)
  | captureCentered cx cy w l => exact h.of_steady hu (steady_captureCentered s cx cy w l)
  | setRule | withStampMode | withSeed | randomize | clear => exact h.of_steady hu ⟨rfl, rfl⟩

/-- **A simulation that has been made is ready.** -/
theorem of_make {stream : Stream} {journal : Journal} {lower upper : Float32}
    (hsize : width * height < UInt64.size)
    (hs : make stream journal width height lower upper = .ok s) : Ready width height s := by
  obtain ⟨thresholds, ring, ht, hr, rfl⟩ := make_eq_ok_iff.mp hs
  obtain ⟨g, hg, -⟩ := Ring.black_eq_ok_iff.mp hr
  obtain ⟨hw, hh, -⟩ := Grid.filled_eq_ok_iff.mp hg
  exact ⟨Ring.uniform_black hr, Thresholds.sound_of_check ht, Metrics.interval_ofInterval_ne 1000,
    hw, hh, hsize⟩

/-- **A simulation that a configuration has set up is ready.** -/
theorem of_ofConfiguration {stream : Stream} {journal : Journal} {c : Configuration}
    (hs : ofConfiguration stream journal c = .ok s) : Ready c.grid.width c.grid.height s := by
  obtain ⟨hfault, lower, upper, made, kept, hmade, hkept, hset⟩ := setUp_of_ofConfiguration hs
  have hready : Ready c.grid.width c.grid.height made :=
    of_make (Configuration.size_lt hfault) hmade
  have hbuffered : Ready c.grid.width c.grid.height kept := hready.withBufferMode hkept
  exact ⟨hset.ring_eq ▸ hbuffered.uniform, hset.thresholds_eq ▸ hbuffered.sound,
    hset.metrics_eq ▸ Metrics.interval_ofInterval_ne c.logInterval, hready.width_pos,
    hready.height_pos, hready.size_lt⟩

end Ready

/-! ### Reachable simulations -/

/-- **The simulations that can be reached**, with the size that they were made with. -/
inductive Reachable (width height : Nat) : Simulation → Prop
  /-- One that has been made, with a number of cells that fits in a word. -/
  | made {s : Simulation} {stream : Stream} {journal : Journal} {lower upper : Float32}
      (hsize : width * height < UInt64.size)
      (hs : make stream journal width height lower upper = .ok s) : Reachable width height s
  /-- One that has been set up from a configuration. -/
  | configured {s : Simulation} {stream : Stream} {journal : Journal} {c : Configuration}
      (hw : c.grid.width = width) (hh : c.grid.height = height)
      (hs : ofConfiguration stream journal c = .ok s) : Reachable width height s
  /-- One on which a command has been performed, whether that failed or not. -/
  | performed {s : Simulation} {c : Command} (hs : Reachable width height s) (hc : c.WellFormed) :
      Reachable width height (s.perform c).2

namespace Reachable

/-- **Reachable simulations are ready.** -/
theorem ready (hs : Reachable width height s) : Ready width height s := by
  induction hs with
  | made hsize hs => exact .of_make hsize hs
  | configured hw hh hs => exact hw ▸ hh ▸ .of_ofConfiguration hs
  | performed _ hc ih => exact ih.perform hc

theorem run (hs : Reachable width height s) {commands : List Command}
    (hc : ∀ c ∈ commands, c.WellFormed) : Reachable width height (s.run commands) := by
  induction commands generalizing s with
  | nil => exact hs
  | cons c commands ih =>
    exact ih (.performed hs (hc c List.mem_cons_self)) fun d hd => hc d (List.mem_cons_of_mem c hd)

/-- **A reachable simulation can always be advanced.** Its ring has the slots of its mode, one of
them current, and in each of them a grid of the size that it was made with; its thresholds are
finite and in order, from zero on, and the upper one is above zero; and no number of steps is
refused, or comes upon a cell or a grid that is missing. -/
theorem steps_succeed (hs : Reachable width height s) :
    s.ring.slots.size = s.ring.mode.slots ∧ s.ring.current < s.ring.slots.size ∧
      (∀ g ∈ s.ring.slots, g.width = width ∧ g.height = height ∧ g.cells.size = width * height) ∧
      (s.thresholds.lower.isFinite = true ∧ s.thresholds.upper.isFinite = true ∧
        0 ≤ s.thresholds.lower ∧ s.thresholds.lower ≤ s.thresholds.upper ∧
        0 < s.thresholds.upper) ∧
      (∃ t, s.step = (.ok (), t) ∧ s.guardedStep = some (.ok (), t)) ∧
      ∀ n, ∃ t, s.steps n = (.ok (), t) ∧ s.guardedSteps n = some (.ok (), t) := by
  have hr := hs.ready
  refine ⟨hr.uniform.size_slots, hr.uniform.size_slots ▸ hr.uniform.current_lt, ?_, ?_, ?_, ?_⟩
  · intro g hg
    have hsize := hr.uniform.hasSize_of_mem hg
    exact ⟨hsize.width_eq, hsize.height_eq, hsize.size_cells⟩
  · exact ⟨hr.sound.lower_finite, hr.sound.upper_finite, hr.sound.lower_nonneg, hr.sound.lower_le,
      hr.sound.upper_pos⟩
  · have hstep : s.step = (.ok (), s.step.2) := by
      rw [step_eq hr.uniform]
      rfl
    refine ⟨_, hstep, ?_⟩
    rw [guardedStep_eq hr.uniform hr.interval_ne hr.width_pos hr.size_lt]
    exact congrArg some hstep
  · intro n
    have hsteps : s.steps n = (.ok (), (s.steps n).2) := Prod.ext (fst_steps hr.uniform n) rfl
    refine ⟨_, hsteps, ?_⟩
    rw [guardedSteps_eq hr.uniform hr.interval_ne hr.width_pos hr.size_lt]
    exact congrArg some hsteps

/-- A simulation that has changed its mode, has refused a grid and a threshold, and has taken a
preset and a rule. -/
theorem steps_succeed_after_refusals :
    ∃ s, make (.ofSeed 1) .off 2 1 2 3 = .ok s ∧
      let t := s.run [.withBufferMode .lookback, .resetTo ⟨1, 1, #[.white]⟩, .setLower 5,
        .applyPreset .trip, .setRule (some fun s => s.previous.getD s.sums)]
      t.ring.slots.size = t.ring.mode.slots ∧
        ∀ n, ∃ u, t.steps n = (.ok (), u) ∧ t.guardedSteps n = some (.ok (), u) := by
  obtain ⟨ring, hring⟩ := Ring.exists_black (by decide : 0 < 2) (by decide : 0 < 1) .double
  have hmade : make (.ofSeed 1) .off 2 1 2 3 =
      .ok ⟨ring, ⟨2, 3⟩, none, .alphaOnly, .ofSeed 1, none, 0, .standard, .off⟩ :=
    make_eq_ok_iff.mpr ⟨_, ring, rfl, hring, rfl⟩
  refine ⟨_, hmade, ?_⟩
  intro t
  have hreach : Reachable 2 1 t :=
    (Reachable.made (by decide) hmade).run (by simp [Command.WellFormed, Grid.isFull_iff])
  exact ⟨hreach.steps_succeed.1, hreach.steps_succeed.2.2.2.2.2⟩

end Reachable

end Simulation

end Moorland
