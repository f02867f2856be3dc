import Moorland.Proofs.Configuration.Faults
import Moorland.Proofs.Simulation.Reachable
/-!
# Setting up

Setting a simulation up from a configuration checks the configuration first and then builds in steps
each of which checks again: the thresholds are resolved, the pair is checked once more, grids are
made, and the ring is made anew if it is to have three slots. None of the later checks finds
anything that the first has not found. So a configuration is accepted exactly when it passes the
check, and its simulation is blank and just as the configuration says
(`Moorland.Simulation.exists_ofConfiguration`).

The main statement is `Moorland.Configuration.accepted_iff_runnable`, which says this together with
what follows: a simulation that has been set up can be seeded and advanced for ever.
-/

namespace Moorland

namespace Simulation

/-- **The simulation is blank, and as the configuration says.** Its stream is that of the seed, or a
given one if there is no seed. -/
structure AsConfigured (stream : Stream) (c : Configuration) (s : Simulation) : Prop where
  /-- The width of the grids. -/
  width_eq : s.width = c.grid.width
  /-- The height of the grids. -/
  height_eq : s.height = c.grid.height
  /-- The mode. -/
  mode_eq : s.ring.mode = c.grid.buffering
  /-- In all slots of the mode there is the black grid of the size. -/
  slots_eq : s.ring.slots = Array.replicate c.grid.buffering.slots
    ⟨c.grid.width, c.grid.height, Array.replicate (c.grid.width * c.grid.height) .black⟩
  /-- The first slot is current. -/
  current_eq : s.ring.current = 0
  /-- The stamp mode. -/
  stampMode_eq : s.stampMode = c.grid.stampMode
  /-- The thresholds are the resolved ones. -/
  resolve_eq : c.thresholds.resolve = .ok s.thresholds
  /-- There is no rule. -/
  rule_eq : s.rule = none
  /-- The seed. -/
  seed_eq : s.seed = c.seed
  /-- The stream is that of the seed, if there is one. -/
  stream_eq : s.stream = (c.seed.map Stream.ofSeed).getD stream
  /-- No generation has been computed. -/
  generation_eq : s.generation = 0
  /-- No step has been counted. -/
  steps_eq : s.metrics.steps = 0
  /-- The interval of the summaries. -/
  interval_eq : s.metrics.interval = c.logInterval

variable {c : Configuration}

/-- **A configuration without a fault is set up.** -/
theorem exists_ofConfiguration (hc : c.fault? = none) (stream : Stream) (journal : Journal) :
    ∃ s, ofConfiguration stream journal c = .ok s ∧ AsConfigured stream c s := by
  obtain ⟨⟨hw, -⟩, ⟨hh, -⟩, ⟨thresholds, ht⟩, -, hinterval⟩ :=
    Configuration.fault?_eq_none_iff.mp hc
  obtain ⟨first, ring, hmade, hring, hkept⟩ := exists_made hw hh
    (ThresholdSection.check_of_resolve ht) stream journal c.grid.buffering
  obtain ⟨g, hg, rfl⟩ := Ring.black_eq_ok_iff.mp hring
  obtain ⟨-, -, rfl⟩ := Grid.filled_eq_ok_iff.mp hg
  have hslot := Ring.slot_replicate c.grid.buffering
    ⟨c.grid.width, c.grid.height, Array.replicate (c.grid.width * c.grid.height) Cell.black.clamped⟩
    0 (Ring.slots_pos _)
  have hmetrics : (Metrics.ofInterval c.logInterval).interval = c.logInterval := if_neg hinterval
  refine ⟨_, bind_eq_ok_iff.mpr ⟨c, Configuration.check_eq_ok_iff.mpr ⟨hc, rfl⟩,
    bind_eq_ok_iff.mpr ⟨thresholds, mapError_eq_ok_iff.mpr ht,
      bind_eq_ok_iff.mpr ⟨_, mapError_eq_ok_iff.mpr hmade,
        bind_eq_ok_iff.mpr ⟨_, mapError_eq_ok_iff.mpr hkept, rfl⟩⟩⟩⟩, ?_⟩
  -- the seed is given after the grids have been made, and touches the stream only
  rcases hseed : c.seed with _ | seed
  · exact ⟨congrArg Grid.width hslot, congrArg Grid.height hslot, rfl, rfl, rfl, rfl, ht, rfl,
      hseed.symm, by rw [hseed]; rfl, rfl, rfl, hmetrics⟩
  · exact ⟨congrArg Grid.width hslot, congrArg Grid.height hslot, rfl, rfl, rfl, rfl, ht, rfl,
      hseed.symm, by rw [hseed]; rfl, rfl, rfl, hmetrics⟩

/-- **Only the check refuses a configuration**, and with the fault that it has found. -/
theorem ofConfiguration_eq_error_iff {stream : Stream} {journal : Journal}
    {fault : ConfigurationFault} :
    ofConfiguration stream journal c = .error fault ↔ c.check = .error fault := by
  rcases hfault : c.fault? with _ | found
  · obtain ⟨s, hs, -⟩ := exists_ofConfiguration hfault stream journal
    rw [hs, Configuration.check_eq_ok_iff.mpr ⟨hfault, rfl⟩]
    exact ⟨nofun, nofun⟩
  · have hcheck : c.check = .error found := Configuration.check_eq_error_iff.mpr hfault
    have hset : ofConfiguration stream journal c = .error found := by
      rw [ofConfiguration, hcheck]
      rfl
    rw [hset, hcheck]
    exact ⟨congrArg _ ∘ Except.error.inj, congrArg _ ∘ Except.error.inj⟩

/-- **A simulation that has been set up** is as its configuration says. -/
theorem asConfigured_of_ofConfiguration {s : Simulation} {stream : Stream} {journal : Journal}
    (hs : ofConfiguration stream journal c = .ok s) : AsConfigured stream c s := by
  obtain ⟨hfault, -⟩ := setUp_of_ofConfiguration hs
  obtain ⟨t, ht, has⟩ := exists_ofConfiguration hfault stream journal
  obtain rfl : t = s := Except.ok.inj (ht.symm.trans hs)
  exact has

/-- **A ready simulation can be seeded and then advanced** by any number of generations, and no cell
and no grid is missing. -/
theorem Ready.steps_randomize {s : Simulation} {width height : Nat} (hs : Ready width height s)
    (i : Intensity) (n : Nat) :
    ∃ t, (s.randomize i).steps n = (.ok (), t) ∧
      (s.randomize i).guardedSteps n = some (.ok (), t) := by
  have hseeded : Ready width height (s.randomize i) := hs.perform (c := .randomize i) trivial
  have hsteps : (s.randomize i).steps n = (.ok (), ((s.randomize i).steps n).2) :=
    Prod.ext (fst_steps hseeded.uniform n) rfl
  refine ⟨_, hsteps, ?_⟩
  rw [guardedSteps_eq hseeded.uniform hseeded.interval_ne hseeded.width_pos hseeded.size_lt]
  exact congrArg some hsteps

end Simulation

namespace Configuration

/-- **A configuration is accepted exactly when it can be run.** It is set up if and only if it
passes the check, and otherwise refused for the same fault. What is set up is blank and as the
configuration says, with the thresholds of the preset if there is one, whatever the pair beside it
may be; and once seeded it can be advanced by any number of generations. The configurations that
texts give pass the check. -/
theorem accepted_iff_runnable (stream : Stream) (journal : Journal) (c : Configuration) :
    ((∃ s, Simulation.ofConfiguration stream journal c = .ok s) ↔ c.check = .ok c) ∧
      (∀ fault, Simulation.ofConfiguration stream journal c = .error fault ↔
        c.check = .error fault) ∧
      (∀ s, Simulation.ofConfiguration stream journal c = .ok s →
        Simulation.AsConfigured stream c s ∧
          (∀ p, c.thresholds.preset = some p → s.thresholds = p.thresholds) ∧
          ∀ i n, ∃ t, (s.randomize i).steps n = (.ok (), t) ∧
            (s.randomize i).guardedSteps n = some (.ok (), t)) ∧
      ∀ text, ofToml text = .ok c → c.check = .ok c := by
  refine ⟨⟨?_, fun hcheck => ?_⟩, fun fault => Simulation.ofConfiguration_eq_error_iff,
    fun s hs => ⟨Simulation.asConfigured_of_ofConfiguration hs, fun p hp => ?_, fun i n => ?_⟩,
    fun text => check_of_ofToml⟩
  · rintro ⟨s, hs⟩
    exact check_eq_ok_iff.mpr ⟨(Simulation.setUp_of_ofConfiguration hs).1, rfl⟩
  · obtain ⟨s, hs, -⟩ :=
      Simulation.exists_ofConfiguration (check_eq_ok_iff.mp hcheck).1 stream journal
    exact ⟨s, hs⟩
  · have hresolve := (Simulation.asConfigured_of_ofConfiguration hs).resolve_eq
    exact Except.ok.inj (hresolve.symm.trans (ThresholdSection.resolve_of_preset hp))
  · exact (Simulation.Ready.of_ofConfiguration hs).steps_randomize i n

/-- A preset beside a pair of a NaN and a number below zero, in the mode that is not the one that
simulations are made with. -/
theorem accepted_iff_runnable_of_preset :
    let c : Configuration := { Configuration.standard with
      grid := ⟨3, 2, .lookback, .voidColor⟩
      thresholds := ⟨0 / 0, -1, some .trip⟩
      seed := some 5 }
    c.check = .ok c ∧ ∃ s, Simulation.ofConfiguration (.ofSeed 7) .off c = .ok s ∧
      Simulation.AsConfigured (.ofSeed 7) c s ∧ s.thresholds = ⟨1, 1⟩ ∧
      ∀ n, ∃ t, (s.randomize c.init).steps n = (.ok (), t) := by
  intro c
  have hcheck : c.check = .ok c := check_eq_ok_iff.mpr ⟨by decide, rfl⟩
  obtain ⟨haccepted, -, hrunnable, -⟩ := accepted_iff_runnable (.ofSeed 7) .off c
  obtain ⟨s, hs⟩ := haccepted.mpr hcheck
  obtain ⟨has, hpreset, hsteps⟩ := hrunnable s hs
  refine ⟨hcheck, s, hs, has, hpreset .trip rfl, fun n => ?_⟩
  obtain ⟨t, ht, -⟩ := hsteps c.init n
  exact ⟨t, ht⟩

end Configuration

end Moorland
