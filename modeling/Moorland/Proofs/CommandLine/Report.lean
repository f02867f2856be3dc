import Moorland.CommandLine
import Moorland.Proofs.Configuration.Setup
import Moorland.Proofs.Configuration.Variants
import Moorland.Proofs.Ring.Population
import Moorland.Proofs.Simulation.Modes
import Moorland.Proofs.Simulation.Seeded
/-!
# What a report depends on

Once a seed is fixed there is nothing left to chance in a run. A configuration has one grid that its
seed gives, the thresholds lead from there to one grid after any number of generations
(`Moorland.Simulation.grown_run`), and this grid and the number of its generation are all that a
report is about.

Nor does a report depend on more than that. The main statement is
`Moorland.Options.report_of_fixed_seed`: a report is on the simulation that the configuration of the
file leads to with the options put over it one after the other, whatever the stream was and whoever
listens; its lines are written out there. And it stays the same – or the run fails for the same
reason – whether the generation before is kept or not, and if the file has other valid modes or
another interval of the summaries.
-/

namespace Moorland

/-! ### Grown grids -/

/-- **The grid after a number of generations** by the thresholds alone. -/
def Grid.grown (t : Thresholds) (g : Grid) : Nat → Grid
  | 0 => g
  | n + 1 => grown t (g.generation none t.alone) n

namespace Simulation

variable {s t : Simulation} {width height : Nat}

/-- **Steps without a rule grow the current grid**, whatever was kept of the generation before. -/
theorem grown_steps (hs : s.ring.Uniform width height) (hrule : s.rule = none) (n : Nat) :
    (s.steps n).2.currentGrid = Grid.grown s.thresholds s.currentGrid n ∧
      (s.steps n).2.generation = s.generation + .ofNat n := by
  induction n generalizing s with
  | zero => exact ⟨rfl, (UInt64.add_zero _).symm⟩
  | succ n ih =>
    have hgrid : s.step.2.currentGrid = s.currentGrid.generation none s.thresholds.alone := by
      have hring : s.step.2.ring = s.ring.advanced s.law := by
        rw [step_eq hs, ring_settle]
      have hlaw : s.law = s.thresholds.alone := congrArg (Law.mk _) hrule
      rw [currentGrid, hring, hs.currentGrid_advanced, hlaw]
      have hmemory : ∀ rule ∈ s.thresholds.alone.rule, Rule.IgnoresPrevious rule := by
        rintro rule ⟨⟩
      exact Grid.generation_congr hmemory _ _ _
    have hrest : s.step.2.rule = none ∧ s.step.2.thresholds = s.thresholds ∧
        s.step.2.generation = s.generation + 1 := by
      rw [step_eq hs]
      exact ⟨hrule, rfl, rfl⟩
    obtain ⟨hnext, hthresholds, hgeneration⟩ := hrest
    obtain ⟨hgrown, hcount⟩ := ih (uniform_step hs) hnext
    rw [steps_succ hs]
    refine ⟨?_, ?_⟩
    · rw [hgrown, hthresholds, hgrid]
      rfl
    · rw [hcount, hgeneration, UInt64.ofNat_add, UInt64.add_assoc, UInt64.add_comm 1]
      rfl

/-- **The grid at the end of a run** has grown from the one that its stream has seeded. -/
theorem grown_run {c : Configuration} {stream : Stream} {journal : Journal}
    (hs : ofConfiguration stream journal c = .ok s) (n : Nat) :
    (s.run [.randomize c.init, .steps n]).currentGrid = Grid.grown s.thresholds
        (Grid.seeded c.grid.width c.grid.height c.init s.stream) n ∧
      (s.run [.randomize c.init, .steps n]).generation = .ofNat n := by
  have hready : Ready c.grid.width c.grid.height s := .of_ofConfiguration hs
  have hseeded : Ready c.grid.width c.grid.height (s.randomize c.init) :=
    hready.perform (c := .randomize c.init) trivial
  have hrule : (s.randomize c.init).rule = none := (asConfigured_of_ofConfiguration hs).rule_eq
  have hgrid : (s.randomize c.init).currentGrid =
      Grid.seeded c.grid.width c.grid.height c.init s.stream := by
    rw [currentGrid, (randomize_eq hready.uniform c.init).2]
    exact Ring.slot_replicate _ _ _ (Ring.slots_pos _)
  obtain ⟨hgrown, hcount⟩ := grown_steps hseeded.uniform hrule n
  rw [hgrid] at hgrown
  exact ⟨hgrown, hcount.trans (UInt64.zero_add _)⟩

/-- **Configurations that run alike** and have a seed end with the same grid, and the same number of
its generation. -/
theorem run_eq_of_runsAlike {c d : Configuration} (h : c.RunsAlike d) (hseed : c.seed.isSome)
    {e f : Stream} {j k : Journal} (hs : ofConfiguration e j c = .ok s)
    (ht : ofConfiguration f k d = .ok t) (n : Nat) :
    (t.run [.randomize d.init, .steps n]).currentGrid =
        (s.run [.randomize c.init, .steps n]).currentGrid ∧
      (t.run [.randomize d.init, .steps n]).generation =
        (s.run [.randomize c.init, .steps n]).generation := by
  have has := asConfigured_of_ofConfiguration hs
  have hat := asConfigured_of_ofConfiguration ht
  have hthresholds : t.thresholds = s.thresholds := by
    have hresolve := hat.resolve_eq
    rw [h.thresholds_eq, has.resolve_eq] at hresolve
    exact (Except.ok.inj hresolve).symm
  have hstream : t.stream = s.stream := by
    obtain ⟨seed, hc⟩ := Option.isSome_iff_exists.mp hseed
    rw [hat.stream_eq, has.stream_eq, h.seed_eq, hc]
    rfl
  obtain ⟨hsgrid, hscount⟩ := grown_run hs n
  obtain ⟨htgrid, htcount⟩ := grown_run ht n
  rw [h.width_eq, h.height_eq, hthresholds, hstream] at htgrid
  rw [h.init_eq] at htgrid htcount ⊢
  exact ⟨htgrid.trans hsgrid.symm, htcount.trans hscount.symm⟩

end Simulation

/-! ### Options put over a configuration -/

/-- **A value of a configuration that an option puts in its place.** -/
inductive Override
  /-- The seed. -/
  | seed (n : UInt64)
  /-- The preset. -/
  | preset (p : Preset)
  /-- The width of the grid. -/
  | width (n : Nat)
  /-- The height of the grid. -/
  | height (n : Nat)
  /-- The generation before is kept. -/
  | lookback

/-- **The configuration with one value in its place.** -/
def Configuration.overridden (c : Configuration) : Override → Configuration
  | .seed n => { c with seed := some n }
  | .preset p => { c with thresholds := { c.thresholds with preset := some p } }
  | .width n => { c with grid := { c.grid with width := n } }
  | .height n => { c with grid := { c.grid with height := n } }
  | .lookback => { c with grid := { c.grid with buffering := .lookback } }

namespace Options

/-- The values that are given by options. -/
def overrides (o : Options) : List Override :=
  (o.seed.map .seed).toList ++ (o.preset.map .preset).toList ++ (o.width.map .width).toList ++
    (o.height.map .height).toList ++ if o.lookback then [.lookback] else []

/-- **Options are put over a configuration one after the other.** -/
theorem apply_eq_foldl (o : Options) (c : Configuration) :
    o.apply c = o.overrides.foldl Configuration.overridden c := by
  obtain ⟨config, steps, seed, preset, width, height, lookback, print⟩ := o
  simp only [overrides, List.foldl_append]
  cases seed <;> cases preset <;> cases width <;> cases height <;> cases lookback <;> rfl

/-- The configuration of the file, or the default one if no file is asked for. -/
def load (o : Options) (found : String → FileContent) : Except FileFault Configuration :=
  match o.config with
  | .none => .ok .standard
  | some path => Configuration.ofFile path (found path)

theorem configuration_eq (o : Options) (found : String → FileContent) :
    o.configuration found = (o.load found).map o.apply := by
  rw [configuration, load]
  rcases o.config with _ | path
  · rfl
  · rfl

/-- **The seed of a run is fixed**, by the options or by the file – if that gives a configuration at
all. -/
def FixesSeed (o : Options) (found : String → FileContent) : Prop :=
  ∀ c, o.load found = .ok c → o.seed.isSome ∨ c.seed.isSome

variable {o : Options} {c d : Configuration} {found changed : String → FileContent}

theorem FixesSeed.isSome_seed (h : o.FixesSeed found) (hc : o.configuration found = .ok c) :
    c.seed.isSome := by
  rw [configuration_eq] at hc
  rcases hload : o.load found with fault | loaded
  · rw [hload] at hc
    cases hc
  · rw [hload] at hc
    obtain rfl : o.apply loaded = c := Except.ok.inj hc
    rw [apply, Option.isSome_or, Bool.or_eq_true]
    exact h loaded hload

/-- **Whether the generation before is kept** makes no other difference to a configuration. -/
theorem runsAlike_apply (h : c.RunsAlike d) (lookback : Bool) :
    (o.apply c).RunsAlike ({ o with lookback }.apply d) :=
  ⟨congrArg o.width.getD h.width_eq, congrArg o.height.getD h.height_eq,
    congrArg (fun t : ThresholdSection => { t with preset := o.preset.or t.preset })
      h.thresholds_eq,
    h.init_eq, congrArg o.seed.or h.seed_eq, h.interval_iff⟩

theorem sameOutcome_configuration (h : ∀ path ∈ o.config, (found path).Variant (changed path))
    (lookback : Bool) : SameOutcome Configuration.RunsAlike (o.configuration found)
      ({ o with lookback }.configuration changed) := by
  have hload : SameOutcome Configuration.RunsAlike (o.load found) (o.load changed) := by
    rw [load, load]
    rcases hpath : o.config with _ | path
    · exact .ok (.refl _)
    · exact (h path hpath).sameOutcome path
  rw [configuration_eq, configuration_eq]
  exact hload.map fun _ _ halike => runsAlike_apply halike lookback

/-! ### Reports -/

/-- **The simulation that a configuration leads to**: it is set up, seeded with the intensity of the
configuration, and advanced. -/
def simulateOn (o : Options) (stream : Stream) (journal : Journal) (c : Configuration) :
    Except RunFault Simulation :=
  ((Simulation.ofConfiguration stream journal c).mapError .configuration).map fun s =>
    s.run [.randomize c.init, .steps (o.steps.getD defaultSteps).toNat]

/-- **The report that a configuration leads to.** -/
def reportOn (o : Options) (stream : Stream) (journal : Journal) (c : Configuration) :
    Except RunFault Report :=
  (o.simulateOn stream journal c).map o.describeRun

/-- **No step of a run is refused**, so that only the file or the configuration can be at fault. -/
theorem simulate_eq (o : Options) (stream : Stream) (found : String → FileContent) :
    o.simulate stream found =
      (o.configuration found).mapError .file >>= o.simulateOn stream .off := by
  rw [simulate]
  refine bind_congr fun c => ?_
  rw [simulateOn]
  generalize (o.steps.getD defaultSteps).toNat = n
  rcases hs : Simulation.ofConfiguration stream .off c with fault | s
  · rfl
  · have hready := Simulation.Ready.of_ofConfiguration hs
    obtain ⟨t, ht, -⟩ := hready.steps_randomize c.init n
    have hrun : s.run [.randomize c.init, .steps n] = t := congrArg Prod.snd ht
    simp only [Except.mapError, Except.map, bind, Except.bind, ht, hrun]
    rfl

theorem report_eq (o : Options) (stream : Stream) (found : String → FileContent) :
    o.report stream found =
      (o.configuration found).mapError .file >>= o.reportOn stream .off := by
  rw [report, simulate_eq]
  rcases (o.configuration found).mapError RunFault.file with fault | c
  · rfl
  · rfl

/-- **A report is about the current grid and the number of its generation.** -/
theorem describeRun_eq {s t : Simulation} (hgrid : t.currentGrid = s.currentGrid)
    (hcount : t.generation = s.generation) (lookback : Bool) :
    o.describeRun s = { o with lookback }.describeRun t := by
  have hstatistics : t.statistics = s.statistics := congrArg Grid.statistics hgrid
  have hsummary : t.summary = s.summary := by
    unfold Simulation.summary
    rw [hstatistics, hcount]
  unfold describeRun
  rw [hsummary, hgrid]

/-- **Configurations that run alike** and have a seed lead to the same report. -/
theorem reportOn_eq_of_runsAlike (h : c.RunsAlike d) (hseed : c.seed.isSome) (lookback : Bool)
    (e f : Stream) (j k : Journal) :
    o.reportOn e j c = { o with lookback }.reportOn f k d := by
  rw [reportOn, reportOn, simulateOn, simulateOn]
  dsimp only
  generalize (o.steps.getD defaultSteps).toNat = n
  rcases hfault : c.fault? with _ | fault
  · obtain ⟨s, hs, -⟩ := Simulation.exists_ofConfiguration hfault e j
    obtain ⟨t, ht, -⟩ := Simulation.exists_ofConfiguration (h.fault?_eq.trans hfault) f k
    obtain ⟨hgrid, hcount⟩ := Simulation.run_eq_of_runsAlike h hseed hs ht n
    rw [hs, ht]
    exact congrArg Except.ok (describeRun_eq hgrid hcount lookback)
  · have hc : c.check = .error fault := Configuration.check_eq_error_iff.mpr hfault
    have hd : d.check = .error fault :=
      Configuration.check_eq_error_iff.mpr (h.fault?_eq.trans hfault)
    rw [Simulation.ofConfiguration_eq_error_iff.mpr hc,
      Simulation.ofConfiguration_eq_error_iff.mpr hd]
    simp only [Except.mapError, Except.map]

/-- **What the report of a run with a fixed seed depends on.** A simulation is made on the
configuration of the file with the given options put over it, by whatever stream and for whatever
journal; it is seeded and advanced; and the report is on its current grid: the number of the
generation, the live cells among all, and the mean levels with four places; the digest; and the
lines of the picture, if one is asked for. And the report is the same, as is the reason if there is
none, whether the generation before is kept or not, whatever the stream, and for every variant of
the file. -/
theorem report_of_fixed_seed (hseed : o.FixesSeed found) (stream : Stream) :
    (∀ other journal, o.report stream found = do
      let loaded ← (o.load found).mapError .file
      let c := o.overrides.foldl Configuration.overridden loaded
      let s ← (Simulation.ofConfiguration other journal c).mapError .configuration
      let t := s.run [.randomize c.init, .steps (o.steps.getD defaultSteps).toNat]
      let stats := t.currentGrid.statistics
      let mean := stats.mean
      return {
        summary :=
          s!"generation {t.generation.toNat}: {stats.live}/{stats.total} live cells, mean rgb " ++
            s!"({fixedFour mean.red}, {fixedFour mean.green}, {fixedFour mean.blue})"
        digest := "digest " ++ t.currentGrid.digest
        picture := o.print.elim [] t.currentGrid.lines }) ∧
      ∀ lookback other changed, (∀ path ∈ o.config, (found path).Variant (changed path)) →
        { o with lookback }.report other changed = o.report stream found := by
  have hfile : ∀ c, (o.configuration found).mapError RunFault.file = .ok c → c.seed.isSome :=
    fun c hc => hseed.isSome_seed (mapError_eq_ok_iff.mp hc)
  refine ⟨fun other journal => ?_, fun lookback other changed hchanged => ?_⟩
  · have hload : (o.configuration found).mapError RunFault.file >>= o.reportOn other journal =
        (o.load found).mapError .file >>= fun c =>
          o.reportOn other journal (o.overrides.foldl Configuration.overridden c) := by
      simp only [configuration_eq, mapError_map_bind, apply_eq_foldl]
    have hreport : o.report stream found =
        (o.configuration found).mapError .file >>= o.reportOn other journal := by
      rw [report_eq]
      refine SameOutcome.bind_eq (.refl Configuration.RunsAlike.refl _) fun c d hc halike => ?_
      exact reportOn_eq_of_runsAlike halike (hfile c hc) o.lookback stream other .off journal
    rw [hreport, hload]
    refine bind_congr fun loaded => ?_
    rw [reportOn, simulateOn]
    dsimp only
    rcases (Simulation.ofConfiguration other journal _).mapError RunFault.configuration with f | s
    · rfl
    · refine congrArg Except.ok ?_
      rw [describeRun]
      rcases o.print with _ | columns
      · rfl
      · rfl
  · rw [report_eq, report_eq]
    have houtcome := (sameOutcome_configuration (o := o) hchanged lookback).mapError RunFault.file
    refine (houtcome.bind_eq fun c d hc halike => ?_).symm
    exact reportOn_eq_of_runsAlike halike (hfile c hc) lookback stream other .off .off

/-- A seed in the file, a preset put over it, and a variant of the file with all three values that
do not matter: four of the six cells live on after one generation, two of them in the row that the
picture shows. -/
theorem report_of_fixed_seed_in_file :
    let o : Options := { Options.none with
      config := some "run.toml", steps := some 1, preset := some .gameOfLife, print := some 4 }
    let found : String → FileContent := fun _ => .text "seed = 9\n[grid]\nwidth = 3\nheight = 2\n"
    let changed : String → FileContent := fun _ => .text ("log_interval = 5\nseed = 9\n[grid]\n" ++
      "stamp_mode = \"void_color\"\nbuffering = \"lookback\"\nheight = 2\nwidth = 3\n")
    let r : Report := {
      summary := "generation 1: 4/6 live cells, mean rgb (0.6325, 0.6325, 0.6325)"
      digest := "digest 6677960afcc7297a9131fae026d62d22c290ac2bc36a850b2345a4958be5381d"
      picture := ["@ @"] }
    o.report (.ofSeed 1) found = .ok r ∧
      { o with lookback := true }.report (.ofSeed 3) changed = .ok r := by
  intro o found changed r
  let c : Configuration :=
    { Configuration.standard with grid := ⟨3, 2, .double, .alphaOnly⟩, seed := some 9 }
  let es : List (String × Document) := [("seed", .integer 9),
    ("grid", .table [("width", .integer 3), ("height", .integer 2)])]
  let fs : List (String × Document) := [("log_interval", .integer 5), ("seed", .integer 9),
    ("grid", .table [("stamp_mode", .text "void_color"), ("buffering", .text "lookback"),
      ("height", .integer 2), ("width", .integer 3)])]
  have hes : Toml.read? "seed = 9\n[grid]\nwidth = 3\nheight = 2\n" = some (.table es) := by
    decide +kernel
  have hfs : Toml.read? ("log_interval = 5\nseed = 9\n[grid]\n" ++
      "stamp_mode = \"void_color\"\nbuffering = \"lookback\"\nheight = 2\nwidth = 3\n") =
        some (.table fs) := by
    decide +kernel
  have hload : o.load found = .ok c := by
    change (Configuration.ofToml _).mapError _ = _
    rw [Configuration.ofToml, hes]
    rfl
  have hchanged : ∀ path ∈ o.config, (found path).Variant (changed path) := by
    intro path hpath
    refine .text hes hfs ⟨?_, ?_, ?_⟩
    · grind [Document.find?]
    · refine .inr ⟨_, _, rfl, rfl, ?_, ?_, ?_⟩
      · grind [Document.find?]
      · exact .of_added rfl rfl (a := .lookback) rfl trivial
      · exact .of_added rfl rfl (a := .voidColor) rfl trivial
    · exact .of_added rfl rfl (a := 5) rfl (by decide)
  have hseed : o.FixesSeed found := by
    intro d hd
    obtain rfl : c = d := Except.ok.inj (hload.symm.trans hd)
    exact .inr rfl
  obtain ⟨hreport, hsame⟩ := report_of_fixed_seed hseed (.ofSeed 1)
  have hfound : o.report (.ofSeed 1) found = .ok r := by
    rw [hreport (.ofSeed 2) .off, hload]
    exact toOption_eq_some_iff.mp (by decide +kernel)
  exact ⟨hfound, (hsame true (.ofSeed 3) changed hchanged).trans hfound⟩

end Options

end Moorland
