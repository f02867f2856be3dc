import Moorland.Proofs.Configuration.Setup
/-!
# Keeping account does not steer a simulation

Next to its grids a simulation keeps account of itself: it reports to a journal, and every so many
steps it counts the cells with population for a summary. How long that interval is, what was counted
and what the journal holds is its **account** (`Moorland.Simulation.withAccount`).

No command reads the account. Two simulations that are equal but for it answer every command alike
and stay equal but for it (`Moorland.Simulation.SameCourse.perform`), so they take the same course
for ever (`Moorland.Simulation.SameCourse.course_eq`). Configurations with one seed, one grid
section and thresholds that resolve alike set up two such simulations
(`Moorland.Simulation.sameCourse_of_ofConfiguration`), whatever their intervals are.
-/

namespace Moorland

/-- **Recording a step** counts it and takes its time; of the rest only the number of cells with
population may change. -/
theorem Metrics.exists_recordStep (m : Metrics) (j : Journal) (nanoseconds : Nat) (g : Grid) :
    ∃ live, (m.recordStep j nanoseconds g).1 =
      { m with steps := m.steps + 1, lastMicros := .ofNat (nanoseconds / 1000), live } := by
  rw [recordStep]
  dsimp only
  split
  · exact ⟨_, rfl⟩
  · exact ⟨m.live, rfl⟩

namespace Simulation

/-! ### Accounts -/

/-- **The simulation with another account**: another number of cells when they were last counted,
another interval of the summaries, and another journal. -/
def withAccount (s : Simulation) (live interval : UInt64) (journal : Journal) : Simulation :=
  { s with metrics := { s.metrics with live, interval }, journal }

/-- **Two simulations are on the same course** if they are equal but for their accounts. -/
def SameCourse (s t : Simulation) : Prop :=
  ∃ live interval journal, t = s.withAccount live interval journal

/-- **Two answers agree**: the answers are the same, and the simulations with them are on the same
course. -/
structure Agree {α : Type} (a b : Answer α) : Prop where
  /-- The answers are the same. -/
  answer_eq : b.1 = a.1
  /-- The simulations are on the same course. -/
  sameCourse : SameCourse a.2 b.2

variable {s t : Simulation}

/-- A step that is not refused is counted, and what else is recorded belongs to the account. -/
theorem exists_settle (s : Simulation) (ring : Ring) : ∃ live journal,
    s.settle (ring, none) = (.ok (), { s with
      ring, generation := s.generation + 1, journal,
      metrics := { s.metrics with
        steps := s.metrics.steps + 1, lastMicros := .ofNat (0 / 1000), live } }) := by
  obtain ⟨live, hrecord⟩ := s.metrics.exists_recordStep s.journal 0 ring.currentGrid
  refine ⟨live, (s.metrics.recordStep s.journal 0 ring.currentGrid).2, ?_⟩
  rw [← hrecord]
  rfl

namespace SameCourse

theorem ring_eq (h : SameCourse s t) : t.ring = s.ring := by
  obtain ⟨live, interval, journal, rfl⟩ := h
  rfl

theorem width_eq (h : SameCourse s t) : t.width = s.width := congrArg Ring.width h.ring_eq

theorem height_eq (h : SameCourse s t) : t.height = s.height := congrArg Ring.height h.ring_eq

theorem currentGrid_eq (h : SameCourse s t) : t.currentGrid = s.currentGrid :=
  congrArg Ring.currentGrid h.ring_eq

theorem thresholds_eq (h : SameCourse s t) : t.thresholds = s.thresholds := by
  obtain ⟨live, interval, journal, rfl⟩ := h
  rfl

theorem stampMode_eq (h : SameCourse s t) : t.stampMode = s.stampMode := by
  obtain ⟨live, interval, journal, rfl⟩ := h
  rfl

theorem withRing (h : SameCourse s t) (ring : Ring) :
    SameCourse { s with ring } { t with ring } := by
  obtain ⟨live, interval, journal, rfl⟩ := h
  exact ⟨live, interval, journal, rfl⟩

theorem report (h : SameCourse s t) (level : Level) (message : String)
    (fields : List (String × FieldValue)) :
    SameCourse (s.report level message fields) (t.report level message fields) := by
  obtain ⟨live, interval, journal, rfl⟩ := h
  exact ⟨live, interval, _, rfl⟩

theorem count (h : SameCourse s t) (name : String) : SameCourse (s.count name) (t.count name) := by
  obtain ⟨live, interval, journal, rfl⟩ := h
  exact ⟨live, interval, journal, rfl⟩

theorem restart (h : SameCourse s t) (ring : Ring) :
    SameCourse (s.restart ring) (t.restart ring) := by
  obtain ⟨live, interval, journal, rfl⟩ := h
  exact ⟨live, interval, journal, rfl⟩

theorem setThresholds (h : SameCourse s t) (lower upper : Float32) :
    Agree (s.setThresholds lower upper) (t.setThresholds lower upper) := by
  rw [Simulation.setThresholds, Simulation.setThresholds]
  rcases Thresholds.check lower upper with refusal | thresholds
  · exact ⟨rfl, h⟩
  · obtain ⟨live, interval, journal, rfl⟩ := h
    exact ⟨rfl, live, interval, _, rfl⟩

theorem settle (h : SameCourse s t) (a : Ring × Option Refusal) :
    Agree (s.settle a) (t.settle a) := by
  obtain ⟨live, interval, journal, rfl⟩ := h
  rcases a with ⟨ring, _ | refusal⟩
  · obtain ⟨counted, reported, hs⟩ := exists_settle s ring
    obtain ⟨recounted, rereported, ht⟩ := exists_settle (s.withAccount live interval journal) ring
    rw [hs, ht]
    exact ⟨rfl, recounted, interval, rereported, rfl⟩
  · exact ⟨rfl, live, interval, journal, rfl⟩

theorem step (h : SameCourse s t) : Agree s.step t.step := by
  have hlaw : t.ring.turn t.law = s.ring.turn s.law := by
    obtain ⟨live, interval, journal, rfl⟩ := h
    rfl
  rw [Simulation.step, Simulation.step, hlaw]
  exact h.settle _

/-- **Any number of steps** is answered alike. -/
theorem steps (h : SameCourse s t) (n : Nat) : Agree (s.steps n) (t.steps n) := by
  induction n generalizing s t with
  | zero => exact ⟨rfl, h⟩
  | succ n ih =>
    have hstep := h.step
    rw [Simulation.steps, Simulation.steps]
    rcases hs : s.step with ⟨refusal | _, s'⟩ <;> rcases ht : t.step with ⟨refusal' | _, t'⟩ <;>
      rw [hs, ht] at hstep
    · obtain ⟨heq, hcourse⟩ := hstep
      cases heq
      exact ⟨rfl, hcourse⟩
    · cases hstep.answer_eq
    · cases hstep.answer_eq
    · exact ih hstep.sameCourse

/-- **Keeping another number of generations** is refused to both, or leaves both on one course. -/
theorem withBufferMode (h : SameCourse s t) (mode : BufferMode) :
    (∃ refusal, s.withBufferMode mode = .error refusal ∧ t.withBufferMode mode = .error refusal) ∨
      ∃ s' t', s.withBufferMode mode = .ok s' ∧ t.withBufferMode mode = .ok t' ∧
        SameCourse s' t' := by
  rw [Simulation.withBufferMode, Simulation.withBufferMode, h.width_eq, h.height_eq, h.ring_eq]
  by_cases hm : mode = s.ring.mode
  · rw [if_pos hm, if_pos hm]
    exact .inr ⟨s, t, rfl, rfl, h⟩
  · rw [if_neg hm, if_neg hm]
    rcases Ring.black s.width s.height mode with refusal | ring
    · exact .inl ⟨refusal, rfl, rfl⟩
    · obtain ⟨live, interval, journal, rfl⟩ := h
      exact .inr ⟨_, _, rfl, rfl, live, interval, journal, rfl⟩

theorem resetTo (h : SameCourse s t) (g : Grid) : Agree (s.resetTo g) (t.resetTo g) := by
  rw [Simulation.resetTo, Simulation.resetTo, h.ring_eq]
  rcases s.ring.resetTo g with ⟨ring, _ | refusal⟩
  · exact ⟨rfl, h.restart ring⟩
  · exact ⟨rfl, h.withRing ring⟩

theorem stamp (h : SameCourse s t) (b : Brush) (x y : Int) :
    Agree (s.stamp b x y) (t.stamp b x y) := by
  have hstamp : t.currentGrid.stamp b x y t.stampMode = s.currentGrid.stamp b x y s.stampMode := by
    rw [h.currentGrid_eq, h.stampMode_eq]
  rw [Simulation.stamp, Simulation.stamp, hstamp, h.ring_eq]
  rcases s.currentGrid.stamp b x y s.stampMode with refusal | ⟨g, done⟩
  · exact ⟨rfl, (h.count _).report _ _ _⟩
  · have hpainted := (h.withRing (s.ring.replaceCurrent g)).count "stamp"
    dsimp only
    split
    · exact ⟨rfl, hpainted.report _ _ _⟩
    · exact ⟨rfl, hpainted⟩

theorem capture (h : SameCourse s t) (r : Region) : Agree (s.capture r) (t.capture r) := by
  rw [Simulation.capture, Simulation.capture, h.currentGrid_eq]
  rcases s.currentGrid.capture r with refusal | brush
  · exact ⟨rfl, h⟩
  · exact ⟨rfl, h.count _⟩

theorem captureCentered (h : SameCourse s t) (cx cy : Int) (w l : Nat) :
    Agree (s.captureCentered cx cy w l) (t.captureCentered cx cy w l) := by
  rw [Simulation.captureCentered, Simulation.captureCentered, h.width_eq, h.height_eq]
  rcases centeredCorner cx cy w l with _ | ⟨x, y⟩
  · exact ⟨rfl, h⟩
  · exact h.capture _

end SameCourse

theorem Agree.reply {α : Type} {a b : Answer α} (h : Agree a b) (make : α → Reply) :
    Agree (a.reply make) (b.reply make) :=
  ⟨congrArg (Except.map make) h.answer_eq, h.sameCourse⟩

/-! ### Courses -/

/-- **Every command is answered alike** on one course, and leaves it the same course. -/
theorem SameCourse.perform (h : SameCourse s t) (c : Command) :
    Agree (s.perform c) (t.perform c) := by
  cases c with
  | setThresholds lower upper => exact (h.setThresholds lower upper).reply _
  | setLower lower =>
    change Agree (Answer.reply _ (s.setThresholds lower s.thresholds.upper))
      (Answer.reply _ (t.setThresholds lower t.thresholds.upper))
    rw [h.thresholds_eq]
    exact (h.setThresholds _ _).reply _
  | setUpper upper =>
    change Agree (Answer.reply _ (s.setThresholds s.thresholds.lower upper))
      (Answer.reply _ (t.setThresholds t.thresholds.lower upper))
    rw [h.thresholds_eq]
    exact (h.setThresholds _ _).reply _
  | withBufferMode mode =>
    rw [Simulation.perform, Simulation.perform]
    rcases h.withBufferMode mode with ⟨refusal, hs, ht⟩ | ⟨s', t', hs, ht, hcourse⟩ <;> rw [hs, ht]
    · exact ⟨rfl, h⟩
    · exact ⟨rfl, hcourse⟩
  | resetTo g => exact (h.resetTo g).reply _
  | step => exact h.step.reply _
  | steps n => exact (h.steps n).reply _
  | stamp b x y => exact (h.stamp b x y).reply _
  | capture r => exact (h.capture r).reply _
  | captureCentered cx cy w l => exact (h.captureCentered cx cy w l).reply _
  | applyPreset | setRule | withStampMode | withSeed | randomize | clear =>
    obtain ⟨live, interval, journal, rfl⟩ := h
    exact ⟨rfl, live, interval, _, rfl⟩

/-- **The course of a list of commands**: what each of them answers, and the grids after it. -/
def course (s : Simulation) : List Command → List (Except Refusal Reply × Ring)
  | [] => []
  | c :: commands => ((s.perform c).1, (s.perform c).2.ring) :: (s.perform c).2.course commands

/-- **The courses are the same**, however long, and do not part at their end. -/
theorem SameCourse.course_eq (h : SameCourse s t) (commands : List Command) :
    s.course commands = t.course commands ∧ SameCourse (s.run commands) (t.run commands) := by
  induction commands generalizing s t with
  | nil => exact ⟨rfl, h⟩
  | cons c commands ih =>
    obtain ⟨hanswer, hcourse⟩ := h.perform c
    obtain ⟨hrest, hend⟩ := ih hcourse
    refine ⟨?_, hend⟩
    rw [course, course, hanswer, hcourse.ring_eq, hrest]

/-! ### Setting up -/

/-- **Configurations with one seed, one grid section and the same resolved thresholds** set up
simulations on the same course, if there is a seed or the given streams are the same. -/
theorem sameCourse_of_ofConfiguration {c d : Configuration} {e f : Stream} {j k : Journal}
    (hgrid : c.grid = d.grid) (hresolve : c.thresholds.resolve = d.thresholds.resolve)
    (hseed : c.seed = d.seed) (hdrawn : c.seed = none → e = f)
    (hs : ofConfiguration e j c = .ok s) (ht : ofConfiguration f k d = .ok t) :
    SameCourse s t := by
  have has := asConfigured_of_ofConfiguration hs
  have hat := asConfigured_of_ofConfiguration ht
  obtain ⟨-, _, _, _, _, -, -, hset⟩ := setUp_of_ofConfiguration hs
  obtain ⟨-, _, _, _, _, -, -, hsett⟩ := setUp_of_ofConfiguration ht
  have hring : t.ring = s.ring := by
    rw [Ring.mk.injEq, hat.mode_eq, hat.slots_eq, hat.current_eq, has.mode_eq, has.slots_eq,
      has.current_eq, hgrid]
    exact ⟨rfl, rfl, rfl⟩
  have hthresholds : t.thresholds = s.thresholds :=
    (Except.ok.inj (has.resolve_eq.symm.trans (hresolve.trans hat.resolve_eq))).symm
  have hstamp : t.stampMode = s.stampMode := by rw [hat.stampMode_eq, has.stampMode_eq, hgrid]
  have hstream : t.stream = s.stream := by
    rw [hat.stream_eq, has.stream_eq, ← hseed]
    rcases hc : c.seed with _ | seed
    · exact (hdrawn hc).symm
    · rfl
  have hmetrics : t.metrics = { s.metrics with
      live := t.metrics.live, interval := t.metrics.interval } := by
    rw [hset.metrics_eq, hsett.metrics_eq]
    rfl
  have hrule : t.rule = s.rule := hat.rule_eq.trans has.rule_eq.symm
  have hseeds : t.seed = s.seed := by rw [hat.seed_eq, has.seed_eq, hseed]
  have hgeneration : t.generation = s.generation := hat.generation_eq.trans has.generation_eq.symm
  refine ⟨t.metrics.live, t.metrics.interval, t.journal, ?_⟩
  rw [withAccount, ← hmetrics, ← hring, ← hthresholds, ← hrule, ← hstamp, ← hstream, ← hseeds,
    ← hgeneration]

end Simulation

end Moorland
