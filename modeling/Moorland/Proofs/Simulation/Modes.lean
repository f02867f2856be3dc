import Moorland.Proofs.Simulation.Command
/-!
# The number of generations kept cannot be seen

Whether a simulation keeps one generation or two makes no difference to anybody who does not ask for
the generation before. The main statement, `Moorland.Simulation.trace_double_eq_trace_lookback`,
is about two simulations made in the same way but for this: any list of commands is answered alike
by both, and what can be seen after each of the commands is the same. Only rules that look at the
generation before are left out, and the command that would change the number itself.

The relation behind it is `Moorland.Simulation.Alike`: two simulations are equal but for their rings
and journals, the rings are uniform of one size and have the same current grid, and the journals
listen to the same levels. Nothing else of a ring or of a journal is read by any command. New grids
depend on the old ones by their size only, so that seeding takes the same draws from the stream
however many slots there are to fill.
-/

namespace Moorland

/-! ### Rules without a memory -/

/-- **The rule does not look at the generation before.** -/
def Rule.IgnoresPrevious (rule : Rule) : Prop :=
  ∀ (site : Site) (previous : Option Cell), rule { site with previous } = rule site

namespace Grid

/-- **Without a rule that looks at the generation before**, the next generation does not depend on
it. -/
theorem generation_congr {law : Law} (hl : ∀ rule ∈ law.rule, Rule.IgnoresPrevious rule) (g : Grid)
    (p q : Option Grid) : g.generation p law = g.generation q law := by
  have hcell : ∀ x y, g.nextCell p law x y = g.nextCell q law x y := by
    intro x y
    rw [nextCell, nextCell]
    rcases hr : law.rule with _ | rule
    · rfl
    · exact hl rule hr ⟨_, _, _, _, _, q.map fun g => g.cell x y⟩ (p.map fun g => g.cell x y)
  simp only [generation, hcell]

variable {g h : Grid} {width height : Nat}

/-- **Filling a grid** forgets all of it but its size. -/
theorem HasSize.fill_eq (hg : g.HasSize width height) (hh : h.HasSize width height) (c : Cell) :
    g.fill c = h.fill c := by
  simp only [Grid.fill, hg.width_eq, hg.height_eq, hg.size_cells, hh.width_eq, hh.height_eq,
    hh.size_cells]

/-- **Seeding a grid** forgets all of it but its size. -/
theorem HasSize.randomize_eq (hg : g.HasSize width height) (hh : h.HasSize width height)
    (i : Intensity) (s : Stream) : g.randomize i s = h.randomize i s := by
  simp only [Grid.randomize, hg.width_eq, hg.height_eq, hg.size_cells, hh.width_eq, hh.height_eq,
    hh.size_cells]

end Grid

namespace Simulation

/-! ### Simulations that look alike -/

/-- **Two simulations look alike**: they differ in what their rings keep and in what their journals
have heard, and in nothing else. -/
structure Alike (width height : Nat) (s t : Simulation) : Prop where
  /-- The one ring is uniform. -/
  left : s.ring.Uniform width height
  /-- The other ring is uniform, with grids of the same size. -/
  right : t.ring.Uniform width height
  /-- The current grids are the same. -/
  currentGrid_eq : s.ring.currentGrid = t.ring.currentGrid
  /-- The journals listen to the same levels. -/
  threshold_eq : s.journal.threshold = t.journal.threshold
  /-- The rule, if there is one, does not look at the generation before. -/
  ignoresPrevious : ∀ rule ∈ s.rule, Rule.IgnoresPrevious rule
  /-- All the rest is the same. -/
  rest_eq : t = { s with ring := t.ring, journal := t.journal }

/-- Two answers are the same, and the simulations after them look alike. -/
structure Answer.Alike {α : Type} (width height : Nat) (a b : Answer α) : Prop where
  /-- The answers are the same. -/
  answer_eq : a.1 = b.1
  /-- The simulations look alike. -/
  alike : Simulation.Alike width height a.2 b.2

/-- **The command does not ask for the generation before**, nor does a rule that it puts into
effect; and a grid that it gives is full, as every grid is that can be obtained. -/
def Command.IgnoresPrevious : Command → Prop
  | .withBufferMode _ => False
  | .setRule rule => ∀ r ∈ rule, Rule.IgnoresPrevious r
  | .resetTo g => g.IsFull
  | _ => True

variable {s t : Simulation} {width height : Nat}

theorem Answer.Alike.reply {α : Type} {a b : Answer α} (h : Answer.Alike width height a b)
    (make : α → Reply) : Answer.Alike width height (a.reply make) (b.reply make) :=
  ⟨congrArg (Except.map make) h.answer_eq, h.alike⟩

namespace Alike

theorem exists_eq (h : Alike width height s t) : ∃ ring journal, t = { s with ring, journal } :=
  ⟨t.ring, t.journal, h.rest_eq⟩

/-- **Simulations that look alike** are not told apart by looking at them. -/
theorem observe_eq (h : Alike width height s t) : s.observe = t.observe := by
  obtain ⟨ring, journal, rfl⟩ := h.exists_eq
  have hgrid : s.currentGrid = ring.currentGrid := h.currentGrid_eq
  rw [observe, observe, width_eq h.left, height_eq h.left, width_eq h.right, height_eq h.right,
    statistics, hgrid]
  rfl

theorem report (h : Alike width height s t) (level : Level) (message : String)
    (fields : List (String × FieldValue)) :
    Alike width height (s.report level message fields) (t.report level message fields) := by
  obtain ⟨ring, journal, rfl⟩ := h.exists_eq
  refine ⟨h.left, h.right, h.currentGrid_eq, ?_, h.ignoresPrevious, rfl⟩
  simp only [Simulation.report, Journal.threshold_add, h.threshold_eq]

/-- **What leaves rings, journals and rules alone** keeps simulations alike. -/
theorem map (h : Alike width height s t) {f : Simulation → Simulation}
    (hf : ∀ (u : Simulation) ring journal, f { u with ring, journal } = { f u with ring, journal })
    (hrule : (f s).rule = s.rule) : Alike width height (f s) (f t) := by
  obtain ⟨ring, journal, rfl⟩ := h.exists_eq
  -- with its own ring and journal for the new ones, the first side has the form of the second
  have hs : f s = { f s with ring := s.ring, journal := s.journal } := hf s s.ring s.journal
  have hring : (f s).ring = s.ring := by rw [hs]
  have hjournal : (f s).journal = s.journal := by rw [hs]
  rw [hf s ring journal]
  refine ⟨hring.symm ▸ h.left, h.right, ?_, ?_, hrule.symm ▸ h.ignoresPrevious, rfl⟩
  · rw [hring]
    exact h.currentGrid_eq
  · rw [hjournal]
    exact h.threshold_eq

theorem count (h : Alike width height s t) (name : String) :
    Alike width height (s.count name) (t.count name) :=
  h.map (f := fun u => u.count name) (fun _ _ _ => rfl) rfl

/-! ### The law -/

theorem thresholds_eq (h : Alike width height s t) : t.thresholds = s.thresholds := by
  rw [h.rest_eq]

theorem withThresholds (h : Alike width height s t) (thresholds : Thresholds) :
    Alike width height { s with thresholds } { t with thresholds } :=
  h.map (f := fun u => { u with thresholds }) (fun _ _ _ => rfl) rfl

theorem setThresholds (h : Alike width height s t) (lower upper : Float32) :
    Answer.Alike width height (s.setThresholds lower upper) (t.setThresholds lower upper) := by
  rw [Simulation.setThresholds, Simulation.setThresholds]
  rcases Thresholds.check lower upper with refusal | thresholds
  · exact ⟨rfl, h⟩
  · exact ⟨rfl, (h.withThresholds thresholds).report _ _ _⟩

theorem setRule (h : Alike width height s t) {rule : Option Rule}
    (hrule : ∀ r ∈ rule, Rule.IgnoresPrevious r) :
    Alike width height (s.setRule rule) (t.setRule rule) := by
  obtain ⟨ring, journal, rfl⟩ := h.exists_eq
  have hset : Alike width height { s with rule } { s with ring, journal, rule } :=
    ⟨h.left, h.right, h.currentGrid_eq, h.threshold_eq, hrule, rfl⟩
  exact hset.report _ _ _

theorem withStampMode (h : Alike width height s t) (mode : StampMode) :
    Alike width height (s.withStampMode mode) (t.withStampMode mode) :=
  h.map (f := fun u => u.withStampMode mode) (fun _ _ _ => rfl) rfl

theorem withSeed (h : Alike width height s t) (seed : UInt64) :
    Alike width height (s.withSeed seed) (t.withSeed seed) :=
  h.map (f := fun u => u.withSeed seed) (fun _ _ _ => rfl) rfl

/-! ### Replacing the grids -/

/-- **Filling the slots of both rings with the same grid** leaves no difference in the current
one. -/
theorem restart (h : Alike width height s t) {f k : Grid → Grid}
    (hf : (f (s.ring.slot 0)).HasSize width height) (hfk : f (s.ring.slot 0) = k (t.ring.slot 0)) :
    Alike width height (s.restart (s.ring.reseed f)) (t.restart (t.ring.reseed k)) := by
  obtain ⟨ring, journal, rfl⟩ := h.exists_eq
  have hk : (k (ring.slot 0)).HasSize width height := hfk ▸ hf
  have hcurrent : (s.ring.reseed f).currentGrid = (ring.reseed k).currentGrid := by
    rw [h.left.currentGrid_reseed, h.right.currentGrid_reseed]
    exact hfk
  exact ⟨h.left.reseed hf, h.right.reseed hk, hcurrent, h.threshold_eq, h.ignoresPrevious, rfl⟩

theorem randomize (h : Alike width height s t) (intensity : Intensity) :
    Alike width height (s.randomize intensity) (t.randomize intensity) := by
  obtain ⟨ring, journal, rfl⟩ := h.exists_eq
  have hs := h.left.hasSize 0 (Ring.slots_pos _)
  have hdraw : (s.ring.slot 0).randomize intensity s.stream =
      (ring.slot 0).randomize intensity s.stream :=
    hs.randomize_eq (h.right.hasSize 0 (Ring.slots_pos _)) intensity s.stream
  have hstream : Alike width height
      { s with stream := ((s.ring.slot 0).randomize intensity s.stream).2 }
      { s with ring, journal, stream := ((ring.slot 0).randomize intensity s.stream).2 } := by
    -- as many numbers are drawn on both sides, from the same stream
    rw [hdraw]
    exact h.map (f := fun u => { u with stream := _ }) (fun _ _ _ => rfl) rfl
  have hseeded := hstream.restart (f := fun _ => ((s.ring.slot 0).randomize intensity s.stream).1)
    (k := fun _ => ((ring.slot 0).randomize intensity s.stream).1)
    (hs.randomize intensity s.stream) (congrArg Prod.fst hdraw)
  exact hseeded.report _ _ _

theorem clear (h : Alike width height s t) : Alike width height s.clear t.clear :=
  have hs := h.left.hasSize 0 (Ring.slots_pos _)
  h.restart (hs.fill .black) (hs.fill_eq (h.right.hasSize 0 (Ring.slots_pos _)) .black)

theorem resetTo (h : Alike width height s t) {g : Grid} (hg : g.IsFull) :
    Answer.Alike width height (s.resetTo g) (t.resetTo g) := by
  by_cases hsize : g.width = width ∧ g.height = height
  · have hsize := hg.hasSize hsize.1 hsize.2
    rw [resetTo_eq h.left hsize, resetTo_eq h.right hsize]
    exact ⟨rfl, h.restart (f := fun _ => g) (k := fun _ => g) hsize rfl⟩
  · rw [resetTo_refused h.left hsize, resetTo_refused h.right hsize]
    exact ⟨rfl, h⟩

/-! ### Steps -/

/-- **A step shows the same generation on both sides**, whatever was kept of the one before. -/
theorem step (h : Alike width height s t) : Answer.Alike width height s.step t.step := by
  obtain ⟨ring, journal, rfl⟩ := h.exists_eq
  have hcurrent : (s.ring.advanced s.law).currentGrid = (ring.advanced s.law).currentGrid := by
    have hgrid : s.ring.currentGrid = ring.currentGrid := h.currentGrid_eq
    rw [h.left.currentGrid_advanced, h.right.currentGrid_advanced, hgrid]
    exact Grid.generation_congr h.ignoresPrevious _ _ _
  -- statistics are taken of the same grid, and at the same steps
  have hmetrics : (s.metrics.recordStep s.journal 0 (s.ring.advanced s.law).currentGrid).1 =
      (s.metrics.recordStep journal 0 (ring.advanced s.law).currentGrid).1 := by
    rw [hcurrent]
    exact Metrics.recordStep_congr h.threshold_eq _ _ _
  rw [step_eq h.left, step_eq h.right]
  refine ⟨rfl, h.left.advanced s.law, h.right.advanced s.law, hcurrent, ?_, h.ignoresPrevious, ?_⟩
  · change (s.metrics.recordStep s.journal 0 _).2.threshold =
      (s.metrics.recordStep journal 0 _).2.threshold
    rw [Metrics.threshold_recordStep, Metrics.threshold_recordStep]
    exact h.threshold_eq
  · simp only [settle, hmetrics]
    rfl

theorem steps (h : Alike width height s t) (n : Nat) :
    Answer.Alike width height (s.steps n) (t.steps n) := by
  induction n generalizing s t with
  | zero => exact ⟨rfl, h⟩
  | succ n ih =>
    rw [steps_succ h.left, steps_succ h.right]
    exact ih h.step.alike

/-! ### Painting and reading -/

theorem replaceCurrent (h : Alike width height s t) {g : Grid} (hg : g.HasSize width height) :
    Alike width height { s with ring := s.ring.replaceCurrent g }
      { t with ring := t.ring.replaceCurrent g } := by
  obtain ⟨ring, journal, rfl⟩ := h.exists_eq
  have hcurrent : (s.ring.replaceCurrent g).currentGrid = (ring.replaceCurrent g).currentGrid := by
    rw [Ring.currentGrid_replaceCurrent (h.left.size_slots ▸ h.left.current_lt),
      Ring.currentGrid_replaceCurrent (h.right.size_slots ▸ h.right.current_lt)]
  exact ⟨h.left.replaceCurrent hg, h.right.replaceCurrent hg, hcurrent, h.threshold_eq,
    h.ignoresPrevious, rfl⟩

theorem stamp (h : Alike width height s t) (b : Brush) (x y : Int) :
    Answer.Alike width height (s.stamp b x y) (t.stamp b x y) := by
  -- the outcome of painting depends on the current grid and the stamp mode only
  have hpainted : t.currentGrid.stamp b x y t.stampMode =
      s.currentGrid.stamp b x y s.stampMode := by
    rw [h.rest_eq]
    exact congrArg (fun g => g.stamp b x y s.stampMode) h.currentGrid_eq.symm
  rw [Simulation.stamp, Simulation.stamp, hpainted]
  rcases hs : s.currentGrid.stamp b x y s.stampMode with refusal | ⟨g, done⟩
  · exact ⟨rfl, (h.count _).report _ _ _⟩
  · have hcounted := (h.replaceCurrent (h.left.currentGrid.stamp hs)).count "stamp"
    refine ⟨rfl, ?_⟩
    dsimp only
    split
    · exact hcounted.report _ _ _
    · exact hcounted

theorem capture (h : Alike width height s t) (r : Region) :
    Answer.Alike width height (s.capture r) (t.capture r) := by
  have hgrid : t.currentGrid = s.currentGrid := h.currentGrid_eq.symm
  rw [Simulation.capture, Simulation.capture, hgrid]
  rcases s.currentGrid.capture r with refusal | b
  · exact ⟨rfl, h⟩
  · exact ⟨rfl, h.count _⟩

theorem captureCentered (h : Alike width height s t) (cx cy : Int) (w l : Nat) :
    Answer.Alike width height (s.captureCentered cx cy w l) (t.captureCentered cx cy w l) := by
  rw [Simulation.captureCentered, Simulation.captureCentered, width_eq h.left, height_eq h.left,
    width_eq h.right, height_eq h.right]
  rcases centeredCorner cx cy w l with _ | ⟨x, y⟩
  · exact ⟨rfl, h⟩
  · exact h.capture ⟨x, y, w, l⟩

/-! ### Runs -/

/-- **Every command is answered alike** on both sides, and they look alike after it. -/
theorem perform (h : Alike width height s t) {c : Command} (hc : c.IgnoresPrevious) :
    Answer.Alike width height (s.perform c) (t.perform c) := by
  cases c with
  | setThresholds lower upper => exact (h.setThresholds lower upper).reply _
  | setLower lower =>
    rw [Simulation.perform, Simulation.perform, setLower, setLower, h.thresholds_eq]
    exact (h.setThresholds lower s.thresholds.upper).reply _
  | setUpper upper =>
    rw [Simulation.perform, Simulation.perform, setUpper, setUpper, h.thresholds_eq]
    exact (h.setThresholds s.thresholds.lower upper).reply _
  | applyPreset preset => exact ⟨rfl, (h.withThresholds preset.thresholds).report _ _ _⟩
  | setRule rule => exact ⟨rfl, h.setRule hc⟩
  | withStampMode mode => exact ⟨rfl, h.withStampMode mode⟩
  | withSeed seed => exact ⟨rfl, h.withSeed seed⟩
  | withBufferMode mode => exact absurd hc id
  | randomize intensity => exact ⟨rfl, h.randomize intensity⟩
  | clear => exact ⟨rfl, h.clear⟩
  | resetTo g => exact (h.resetTo hc).reply _
  | step => exact h.step.reply _
  | steps n => exact (h.steps n).reply _
  | stamp b x y => exact (h.stamp b x y).reply _
  | capture r => exact (h.capture r).reply _
  | captureCentered cx cy w l => exact (h.captureCentered cx cy w l).reply _

/-- **The traces of any list of commands are the same.** -/
theorem trace_eq (h : Alike width height s t) {commands : List Command}
    (hc : ∀ c ∈ commands, c.IgnoresPrevious) : s.trace commands = t.trace commands := by
  induction commands generalizing s t with
  | nil => rfl
  | cons c commands ih =>
    -- the invariant of the induction is that the two look alike
    have hstep := h.perform (hc c List.mem_cons_self)
    rw [trace, trace, hstep.answer_eq, hstep.alike.observe_eq,
      ih hstep.alike fun d hd => hc d (List.mem_cons_of_mem c hd)]

end Alike

/-! ### One generation or two -/

/-- **A simulation made in a mode and with a seed.** -/
def build (stream : Stream) (journal : Journal) (width height : Nat) (lower upper : Float32)
    (mode : BufferMode) (seed : UInt64) : Except Refusal Simulation := do
  let s ← make stream journal width height lower upper
  let s ← s.withBufferMode mode
  return s.withSeed seed

/-- **A ring without population is all that the mode decides** when a simulation is made. -/
theorem exists_build (hw : 0 < width) (hh : 0 < height) {lower upper : Float32}
    {thresholds : Thresholds} (ht : Thresholds.check lower upper = .ok thresholds) (stream : Stream)
    (journal : Journal) (mode : BufferMode) (seed : UInt64) :
    ∃ ring, Ring.black width height mode = .ok ring ∧
      build stream journal width height lower upper mode seed = .ok
        ⟨ring, thresholds, none, .alphaOnly, .ofSeed seed, some seed, 0, .standard, journal⟩ := by
  obtain ⟨first, ring, hmade, hring, hkept⟩ := exists_made hw hh ht stream journal mode
  refine ⟨ring, hring, ?_⟩
  rw [build, hmade]
  change (withBufferMode _ mode).bind _ = _
  rw [hkept]
  rfl

/-- **Two simulations that are made in the same way, one to keep one generation and the other to
keep two, have the same traces**: whatever their streams were before they were given the seed, every
command of any list of commands that do not ask for the generation before is answered alike by both,
and what can be seen after it is the same. -/
theorem trace_double_eq_trace_lookback (hw : 0 < width) (hh : 0 < height) {lower upper : Float32}
    {thresholds : Thresholds} (ht : Thresholds.check lower upper = .ok thresholds) (seed : UInt64)
    (e f : Stream) {j k : Journal} (hj : j.threshold = k.threshold) {commands : List Command}
    (hc : ∀ c ∈ commands, c.IgnoresPrevious) :
    ∃ d l, build e j width height lower upper .double seed = .ok d ∧
      build f k width height lower upper .lookback seed = .ok l ∧
      (d.run commands).ring.mode = .double ∧ (l.run commands).ring.mode = .lookback ∧
      d.observe = l.observe ∧ d.trace commands = l.trace commands := by
  obtain ⟨r, hr, hd⟩ := exists_build hw hh ht e j .double seed
  obtain ⟨q, hq, hl⟩ := exists_build hw hh ht f k .lookback seed
  have hcurrent : r.currentGrid = q.currentGrid := by
    have hsame := (Ring.currentGrid_black hr).symm.trans (Ring.currentGrid_black hq)
    exact Except.ok.inj hsame
  have halike : Alike width height
      ⟨r, thresholds, none, .alphaOnly, .ofSeed seed, some seed, 0, .standard, j⟩
      ⟨q, thresholds, none, .alphaOnly, .ofSeed seed, some seed, 0, .standard, k⟩ :=
    ⟨Ring.uniform_black hr, Ring.uniform_black hq, hcurrent, hj, nofun, rfl⟩
  have hmode : ∀ c ∈ commands, ∀ mode, c ≠ .withBufferMode mode := by
    rintro _ hmem mode rfl
    exact hc _ hmem
  exact ⟨_, _, hd, hl, (mode_run hmode).trans (Ring.mode_black hr),
    (mode_run hmode).trans (Ring.mode_black hq), halike.observe_eq, halike.trace_eq hc⟩

/-- A run with a rule, seeding, steps, a refused threshold, a grid of the wrong size and a stamp. -/
theorem trace_double_eq_trace_lookback_of_rule :
    let commands : List Command := [.setRule (some fun s => s.sums + s.proposed), .randomize .full,
      .steps 3, .setLower 5, .resetTo ⟨1, 1, #[.white]⟩, .stamp ⟨1, 1, #[⟨.white, 1⟩]⟩ 1 0, .step]
    ∃ d l, build (.ofSeed 1) .off 2 1 2 3 .double 7 = .ok d ∧
      build (.ofSeed 2) (.cleared .off) 2 1 2 3 .lookback 7 = .ok l ∧
      (d.run commands).ring.mode = .double ∧ (l.run commands).ring.mode = .lookback ∧
      d.observe = l.observe ∧ d.trace commands = l.trace commands := by
  have hcheck : Thresholds.check 2 3 = .ok ⟨2, 3⟩ := rfl
  refine trace_double_eq_trace_lookback (by decide) (by decide) hcheck 7 _ _ rfl ?_
  intro c hc
  simp only [List.mem_cons, List.not_mem_nil, or_false] at hc
  rcases hc with rfl | rfl | rfl | rfl | rfl | rfl | rfl
  · intro rule hrule site previous
    cases hrule
    rfl
  · trivial
  · trivial
  · trivial
  · exact Grid.isFull_iff.mpr rfl
  · trivial
  · trivial

/-- A rule that looks at the generation before can tell the two apart. -/
example :
    let commands : List Command := [.setRule (some fun s => s.previous.getD .white), .step]
    let grid (mode : BufferMode) : Option Grid :=
      (build (.ofSeed 1) .off 1 1 2 3 mode 7).toOption.map fun s => (s.run commands).currentGrid
    grid .double = some ⟨1, 1, #[.white]⟩ ∧ grid .lookback = some ⟨1, 1, #[.black]⟩ := by
  decide

end Simulation

end Moorland
