import Mathlib.Algebra.GroupWithZero.Nat
import Mathlib.Data.List.Induction
import Moorland.Proofs.Simulation.Counts
import Moorland.Proofs.Simulation.Course
/-!
# Bookkeeping

A simulation says how many generations it has advanced, and counts the brushes that have been
painted on it, those that have been rejected, and the regions that have been read. This file says
that these numbers are right, whatever has been done to the simulation and however it ended.

What has been done is told by the **moments** of a run (`Moorland.Simulation.moments`): the commands
that were given, what they answered, and the modes before and after them. Nothing in a moment is a
number that the simulation keeps. The number of the generation is that of the steps since the latest
moment that restarts it (`Moorland.Simulation.stepsSince`), and each counter is the number of the
moments that it is for.

One command writes one entry, or none: `Moorland.Simulation.Ready.books_perform` says which, with
one case for each command. The main statement is `Moorland.Simulation.Fresh.bookkeeping`.
-/

namespace Moorland

/-- A counter among bumped ones is one that was there before, or the one that is bumped. -/
theorem Metrics.mem_bump {name : String} {cs : List (String × UInt64)} {c : String × UInt64}
    (h : c ∈ bump name cs) : c.1 = name ∨ ∃ d ∈ cs, d.1 = c.1 := by
  induction cs with
  | nil => exact .inl (congrArg Prod.fst (List.mem_singleton.mp h))
  | cons d cs ih =>
    rw [bump] at h
    split at h
    · next hname =>
      rcases List.mem_cons.mp h with rfl | h
      · exact .inl hname
      · exact .inr ⟨c, List.mem_cons_of_mem _ h, rfl⟩
    · rcases List.mem_cons.mp h with rfl | h
      · exact .inr ⟨_, List.mem_cons_self, rfl⟩
      · obtain hname | ⟨e, he, hec⟩ := ih h
        · exact .inl hname
        · exact .inr ⟨e, List.mem_cons_of_mem _ he, hec⟩

namespace Simulation

variable {s t : Simulation} {c : Command} {commands : List Command} {width height : Nat}

/-! ### Moments -/

/-- The command paints a brush. -/
def Command.isStamp : Command → Bool
  | .stamp _ _ _ => true
  | _ => false

/-- The command reads a region. -/
def Command.isCapture : Command → Bool
  | .capture _ | .captureCentered _ _ _ _ => true
  | _ => false

/-- **A moment of a run**: a command, what it answered, and the modes before and after it. -/
structure Moment where
  /-- The command. -/
  command : Command
  /-- What it answered. -/
  answer : Except Refusal Reply
  /-- The mode before it. -/
  before : BufferMode
  /-- The mode after it. -/
  after : BufferMode

namespace Moment

/-- **The generations are counted anew** from the moment on: all grids have been replaced, or the
mode has become another one. -/
def restarts (m : Moment) : Bool :=
  match m.command with
  | .randomize _ | .clear => true
  | .resetTo _ => m.answer.isOk
  | .withBufferMode _ => m.after ≠ m.before
  | _ => false

/-- **The number of steps** that are taken at the moment. -/
def advances (m : Moment) : Nat :=
  match m.command with
  | .step => if m.answer.isOk then 1 else 0
  | .steps n => if m.answer.isOk then n else 0
  | _ => 0

/-- A brush is painted at the moment. -/
def stamps (m : Moment) : Bool := m.command.isStamp && m.answer.isOk

/-- A brush is rejected at the moment. -/
def rejects (m : Moment) : Bool := m.command.isStamp && !m.answer.isOk

/-- A region is read at the moment. -/
def captures (m : Moment) : Bool := m.command.isCapture && m.answer.isOk

/-- The name under which the moment is counted, if it is. -/
def counter? (m : Moment) : Option String :=
  if m.stamps then some "stamp"
  else if m.rejects then some "stamp_rejected"
  else if m.captures then some "capture"
  else none

/-- No command both paints a brush and reads a region. -/
theorem isCapture_of_isStamp {c : Command} (h : c.isStamp = true) : c.isCapture = false := by
  cases c with
  | stamp => rfl
  | _ => cases h

/-- **A moment is for one counter at most.** -/
theorem counter?_eq_some_iff {m : Moment} {name : String} : m.counter? = some name ↔
    name = "stamp" ∧ m.stamps = true ∨ name = "stamp_rejected" ∧ m.rejects = true ∨
      name = "capture" ∧ m.captures = true := by
  rw [counter?, stamps, rejects, captures]
  rcases hstamp : m.command.isStamp with _ | _
  · rcases m.command.isCapture && m.answer.isOk with _ | _ <;> simp [eq_comm]
  · rw [isCapture_of_isStamp hstamp]
    rcases m.answer.isOk with _ | _ <;> simp [eq_comm]

end Moment

/-- The moment at which a command is given to a simulation. -/
def moment (s : Simulation) (c : Command) : Moment :=
  ⟨c, (s.perform c).1, s.ring.mode, (s.perform c).2.ring.mode⟩

/-- **The moments of a run**, the latest first. -/
def moments (s : Simulation) : List Command → List Moment
  | [] => []
  | c :: commands => (s.perform c).2.moments commands ++ [s.moment c]

/-- **The number of steps since the generations were last counted anew**, or since the simulation
was made. -/
def stepsSince (s : Simulation) (commands : List Command) : Nat :=
  (((s.moments commands).takeWhile fun m => !m.restarts).map Moment.advances).sum

theorem run_concat (s : Simulation) (commands : List Command) (c : Command) :
    s.run (commands ++ [c]) = ((s.run commands).perform c).2 := by
  rw [run, List.foldl_append]
  rfl

theorem moments_concat (s : Simulation) (commands : List Command) (c : Command) :
    s.moments (commands ++ [c]) = (s.run commands).moment c :: s.moments commands := by
  induction commands generalizing s with
  | nil => rfl
  | cons first commands ih =>
    change (s.perform first).2.moments (commands ++ [c]) ++ [s.moment first] = _
    rw [ih]
    rfl

theorem stepsSince_concat (s : Simulation) (commands : List Command) (c : Command) :
    s.stepsSince (commands ++ [c]) =
      if ((s.run commands).moment c).restarts then 0
      else s.stepsSince commands + ((s.run commands).moment c).advances := by
  rw [stepsSince, moments_concat]
  by_cases h : ((s.run commands).moment c).restarts = true
  · simp [h]
  · simp [h, stepsSince, Nat.add_comm]

/-! ### What one command writes -/

/-- **The books of a simulation before and after a moment**: the number of the generation has gone
up by the steps that were taken, or restarts, and the counter that the moment is for has gone up by
one. -/
structure Books (m : Moment) (s t : Simulation) : Prop where
  /-- The number of the generation. -/
  generation_eq : t.generation = if m.restarts then 0 else s.generation + .ofNat m.advances
  /-- The counters. -/
  counters_eq : t.metrics.counters =
    m.counter?.elim s.metrics.counters fun name => Metrics.bump name s.metrics.counters

/-- A moment that neither takes a step nor is counted leaves the books as they were. -/
theorem Books.of_eq {m : Moment} (hrestarts : m.restarts = false) (hadvances : m.advances = 0)
    (hcounter : m.counter? = none) (hg : t.generation = s.generation)
    (hc : t.metrics.counters = s.metrics.counters) : Books m s t := by
  refine ⟨?_, ?_⟩
  · rw [hrestarts, hadvances]
    exact hg.trans (UInt64.add_zero _).symm
  · rw [hcounter]
    exact hc

theorem counters_settle (s : Simulation) (a : Ring × Option Refusal) :
    (s.settle a).2.metrics.counters = s.metrics.counters := by
  rcases a with ⟨ring, _ | refusal⟩
  · obtain ⟨live, journal, h⟩ := exists_settle s ring
    rw [h]
  · rfl

theorem counters_steps (s : Simulation) (n : Nat) :
    (s.steps n).2.metrics.counters = s.metrics.counters :=
  steps_keeps (P := fun t => t.metrics.counters = s.metrics.counters)
    (fun _ ht => (counters_settle _ _).trans ht) rfl n

theorem generation_step (hs : s.ring.Uniform width height) :
    s.step.2.generation = s.generation + 1 := by
  rw [step_eq hs]
  rfl

theorem generation_steps (hs : s.ring.Uniform width height) (n : Nat) :
    (s.steps n).2.generation = s.generation + .ofNat n := by
  induction n generalizing s with
  | zero => exact (UInt64.add_zero _).symm
  | succ n ih =>
    rw [steps_succ hs, ih (uniform_step hs), generation_step hs, UInt64.ofNat_add, UInt64.add_assoc,
      UInt64.add_comm 1]
    rfl

theorem setThresholds_eq (s : Simulation) (lower upper : Float32) :
    (s.setThresholds lower upper).2.generation = s.generation ∧
      (s.setThresholds lower upper).2.metrics = s.metrics := by
  rw [setThresholds]
  split <;> exact ⟨rfl, rfl⟩

/-- **A region is read and counted**, or it is refused and nothing happens. -/
theorem capture_cases (s : Simulation) (r : Region) :
    (∃ refusal, s.capture r = (.error refusal, s)) ∨
      ∃ b, s.capture r = (.ok b, s.count "capture") := by
  rw [capture]
  rcases s.currentGrid.capture r with refusal | b
  · exact .inl ⟨refusal, rfl⟩
  · exact .inr ⟨b, rfl⟩

theorem captureCentered_cases (s : Simulation) (cx cy : Int) (w l : Nat) :
    (∃ refusal, s.captureCentered cx cy w l = (.error refusal, s)) ∨
      ∃ b, s.captureCentered cx cy w l = (.ok b, s.count "capture") := by
  rw [captureCentered]
  rcases centeredCorner cx cy w l with _ | ⟨x, y⟩
  · exact .inl ⟨_, rfl⟩
  · exact s.capture_cases _

theorem mode_withBufferMode {mode : BufferMode} (ht : s.withBufferMode mode = .ok t) :
    t.ring.mode = mode := by
  rw [withBufferMode] at ht
  split at ht
  · next hm =>
    cases ht
    exact hm.symm
  · obtain ⟨ring, hring, ht⟩ := bind_eq_ok_iff.mp ht
    cases ht
    exact Ring.mode_black hring

theorem Ready.books_withBufferMode (hs : Ready width height s) (mode : BufferMode) :
    Books (s.moment (.withBufferMode mode)) s (s.perform (.withBufferMode mode)).2 := by
  obtain ⟨t, ht⟩ := hs.exists_withBufferMode mode
  have hperform : s.perform (.withBufferMode mode) = (.ok .done, t) := by
    simp only [Simulation.perform, ht]
  have hmode := mode_withBufferMode ht
  rw [moment, hperform]
  by_cases hm : mode = s.ring.mode
  · subst hm
    obtain rfl : s = t := Except.ok.inj (s.withBufferMode_eq_self.symm.trans ht)
    exact .of_eq (by simp [Moment.restarts]) rfl rfl rfl rfl
  · obtain ⟨hgeneration, hmetrics⟩ := counts_withBufferMode hm ht
    have hrestarts : Moment.restarts
        ⟨.withBufferMode mode, .ok .done, s.ring.mode, t.ring.mode⟩ = true := by
      simp [Moment.restarts, hmode, hm]
    exact ⟨by rw [hgeneration, hrestarts, if_pos rfl], congrArg Metrics.counters hmetrics⟩

theorem books_resetTo (s : Simulation) (g : Grid) :
    Books (s.moment (.resetTo g)) s (s.perform (.resetTo g)).2 := by
  rw [moment, perform, resetTo]
  rcases s.ring.resetTo g with ⟨ring, _ | refusal⟩
  · exact ⟨rfl, rfl⟩
  · exact .of_eq rfl rfl rfl rfl rfl

theorem books_stamp (s : Simulation) (b : Brush) (x y : Int) :
    Books (s.moment (.stamp b x y)) s (s.perform (.stamp b x y)).2 := by
  rw [moment, perform, stamp]
  rcases s.currentGrid.stamp b x y s.stampMode with refusal | ⟨g, done⟩
  · exact ⟨(UInt64.add_zero _).symm, rfl⟩
  · dsimp only
    split <;> exact ⟨(UInt64.add_zero _).symm, rfl⟩

/-- **What one command writes into the books.** -/
theorem Ready.books_perform (hs : Ready width height s) (c : Command) :
    Books (s.moment c) s (s.perform c).2 := by
  cases c with
  | setThresholds lower upper =>
    obtain ⟨hg, hm⟩ := s.setThresholds_eq lower upper
    exact .of_eq rfl rfl rfl hg (congrArg Metrics.counters hm)
  | setLower lower =>
    obtain ⟨hg, hm⟩ := s.setThresholds_eq lower s.thresholds.upper
    exact .of_eq rfl rfl rfl hg (congrArg Metrics.counters hm)
  | setUpper upper =>
    obtain ⟨hg, hm⟩ := s.setThresholds_eq s.thresholds.lower upper
    exact .of_eq rfl rfl rfl hg (congrArg Metrics.counters hm)
  | withBufferMode mode => exact hs.books_withBufferMode mode
  | resetTo g => exact s.books_resetTo g
  | step =>
    have hok : (s.perform .step).1 = .ok .done := by
      rw [Simulation.perform, step_eq hs.uniform]
      rfl
    rw [moment, hok]
    exact ⟨generation_step hs.uniform, counters_settle s _⟩
  | steps n =>
    have hok : (s.perform (.steps n)).1 = .ok .done :=
      congrArg (Except.map fun _ => Reply.done) (fst_steps hs.uniform n)
    rw [moment, hok]
    exact ⟨generation_steps hs.uniform n, s.counters_steps n⟩
  | stamp b x y => exact s.books_stamp b x y
  | capture r =>
    rw [moment, Simulation.perform]
    rcases s.capture_cases r with ⟨refusal, h⟩ | ⟨b, h⟩ <;> rw [h]
    · exact .of_eq rfl rfl rfl rfl rfl
    · exact ⟨(UInt64.add_zero _).symm, rfl⟩
  | captureCentered cx cy w l =>
    rw [moment, Simulation.perform]
    rcases s.captureCentered_cases cx cy w l with ⟨refusal, h⟩ | ⟨b, h⟩ <;> rw [h]
    · exact .of_eq rfl rfl rfl rfl rfl
    · exact ⟨(UInt64.add_zero _).symm, rfl⟩
  | randomize | clear => exact ⟨rfl, rfl⟩
  | applyPreset | setRule | withStampMode | withSeed => exact .of_eq rfl rfl rfl rfl rfl

/-! ### What a run writes -/

/-- **A simulation that has just been made** has counted nothing. -/
theorem Fresh.nothing_counted (hs : Fresh width height s) :
    s.generation = 0 ∧ s.metrics.counters = [] := by
  have hagree := hs.countsAgree
  cases hs with
  | made _ hs =>
    obtain ⟨thresholds, ring, -, -, rfl⟩ := make_eq_ok_iff.mp hs
    exact ⟨rfl, rfl⟩
  | configured _ _ hs =>
    obtain ⟨-, _, _, _, _, -, -, hset⟩ := setUp_of_ofConfiguration hs
    rw [CountsAgree, hset.metrics_eq] at hagree
    rw [hset.metrics_eq]
    exact ⟨hagree.symm, rfl⟩

/-- A counter goes up by one at the moments that it is for. -/
theorem Books.counter_eq {m : Moment} (h : Books m s t) (name : String) :
    t.metrics.counter name = s.metrics.counter name + if m.counter? = some name then 1 else 0 := by
  rw [Metrics.counter, h.counters_eq]
  rcases m.counter? with _ | other
  · exact (UInt64.add_zero _).symm
  · rw [Option.elim_some, Metrics.lookup_bump]
    by_cases hname : other = name
    · subst hname
      simp [Metrics.counter]
    · simp [Metrics.counter, hname, Ne.symm hname]

/-- **The books of a run**: the number of the generation, each counter, and no other counters. -/
theorem Fresh.books_run (hs : Fresh width height s) (hc : ∀ c ∈ commands, c.WellFormed) :
    (s.run commands).generation = .ofNat (s.stepsSince commands) ∧
      (∀ name, (s.run commands).metrics.counter name =
        .ofNat ((s.moments commands).countP fun m => m.counter? = some name)) ∧
      ∀ entry ∈ (s.run commands).metrics.counters,
        ∃ m ∈ s.moments commands, m.counter? = some entry.1 := by
  induction commands using List.reverseRecOn with
  | nil =>
    obtain ⟨hgeneration, hcounters⟩ := hs.nothing_counted
    refine ⟨hgeneration, fun name => ?_, fun entry hentry => ?_⟩
    · change s.metrics.counter name = 0
      rw [Metrics.counter, hcounters]
      rfl
    · change entry ∈ s.metrics.counters at hentry
      rw [hcounters] at hentry
      cases hentry
  | append_singleton commands c ih =>
    have hbefore : ∀ c ∈ commands, c.WellFormed := fun d hd => hc d (List.mem_append_left _ hd)
    obtain ⟨hgeneration, hcounter, hothers⟩ := ih hbefore
    have hbooks := (hs.reachable.run hbefore).ready.books_perform c
    rw [run_concat, moments_concat, stepsSince_concat]
    refine ⟨?_, fun name => ?_, fun entry hentry => ?_⟩
    · rw [hbooks.generation_eq, hgeneration]
      split
      · rfl
      · exact (UInt64.ofNat_add _ _).symm
    · rw [hbooks.counter_eq, hcounter, List.countP_cons, UInt64.ofNat_add]
      split <;> simp_all
    · rw [hbooks.counters_eq] at hentry
      rcases hm : ((s.run commands).moment c).counter? with _ | name
      · rw [hm] at hentry
        obtain ⟨m, hmem, hname⟩ := hothers entry hentry
        exact ⟨m, List.mem_cons_of_mem _ hmem, hname⟩
      · rw [hm] at hentry
        obtain hname | ⟨old, hold, hname⟩ := Metrics.mem_bump hentry
        · exact ⟨_, List.mem_cons_self, hname ▸ hm⟩
        · obtain ⟨m, hmem, hcounted⟩ := hothers old hold
          exact ⟨m, List.mem_cons_of_mem _ hmem, hname ▸ hcounted⟩

/-- **The books tell the history.** After any run of a simulation from its making, the number of the
generation is the number of the steps since the latest of its making, a seeding or clearing of its
grids, a replacement of them that was not refused, and a change of the mode that made it another
one; the counters are the numbers of brushes that were painted, of brushes that were rejected, and
of regions that were read; and there are no others. Numbers are kept in words. -/
theorem Fresh.bookkeeping (hs : Fresh width height s) (hc : ∀ c ∈ commands, c.WellFormed) :
    (s.run commands).generation = .ofNat (s.stepsSince commands) ∧
      (s.run commands).metrics.counter "stamp" =
        .ofNat ((s.moments commands).countP Moment.stamps) ∧
      (s.run commands).metrics.counter "stamp_rejected" =
        .ofNat ((s.moments commands).countP Moment.rejects) ∧
      (s.run commands).metrics.counter "capture" =
        .ofNat ((s.moments commands).countP Moment.captures) ∧
      ∀ entry ∈ (s.run commands).metrics.counters,
        entry.1 = "stamp" ∨ entry.1 = "stamp_rejected" ∨ entry.1 = "capture" := by
  obtain ⟨hgeneration, hcounter, hothers⟩ := hs.books_run hc
  have hcounted : ∀ {name : String} {kind : Moment → Bool},
      (∀ m : Moment, m.counter? = some name ↔ kind m = true) →
        (s.run commands).metrics.counter name = .ofNat ((s.moments commands).countP kind) := by
    intro name kind hkind
    rw [hcounter]
    exact congrArg _ (List.countP_congr fun m _ => decide_eq_true_iff.trans (hkind m))
  refine ⟨hgeneration, hcounted fun m => ?_, hcounted fun m => ?_, hcounted fun m => ?_,
    fun entry hentry => ?_⟩
  · simp [Moment.counter?_eq_some_iff]
  · simp [Moment.counter?_eq_some_iff]
  · simp [Moment.counter?_eq_some_iff]
  · obtain ⟨m, -, hm⟩ := hothers entry hentry
    exact (Moment.counter?_eq_some_iff.mp hm).imp And.left (Or.imp And.left And.left)

/-- **A run with every kind of entry.** The mode is set to what it is, which restarts nothing, and
to the other one, which does; a grid of another size is refused; a brush is painted and one without
pixels is rejected; and a region is read after one that has no corner. -/
theorem Fresh.bookkeeping_mixed :
    ∃ s, make (.ofSeed 1) .off 1 1 2 3 = .ok s ∧
      let commands : List Command := [.step, .stamp (.blank 0 1) 0 0, .withBufferMode .lookback,
        .steps 2, .withBufferMode .lookback, .resetTo ⟨2, 1, #[.black, .black]⟩,
        .stamp (.blank 1 1) 0 0, .captureCentered Int64.minValue.toInt 0 3 3,
        .capture ⟨0, 0, 1, 1⟩, .step]
      (∀ c ∈ commands, c.WellFormed) ∧ s.stepsSince commands = 3 ∧
        (s.run commands).generation = 3 ∧ (s.run commands).metrics.counter "stamp" = 1 ∧
        (s.run commands).metrics.counter "stamp_rejected" = 1 ∧
        (s.run commands).metrics.counter "capture" = 1 := by
  have hmade : make (.ofSeed 1) .off 1 1 2 3 =
      .ok ⟨⟨.double, #[⟨1, 1, #[.black]⟩, ⟨1, 1, #[.black]⟩], 0⟩, ⟨2, 3⟩, none, .alphaOnly,
        .ofSeed 1, none, 0, .standard, .off⟩ := rfl
  refine ⟨_, hmade, ?_⟩
  intro commands
  have hformed : ∀ c ∈ commands, c.WellFormed := by
    simp [commands, Command.WellFormed, Grid.isFull_iff]
  obtain ⟨hgeneration, hstamps, hrejects, hcaptures, -⟩ :=
    (Fresh.made (by decide) hmade).bookkeeping hformed
  refine ⟨hformed, ?_, hgeneration.trans ?_, hstamps.trans ?_, hrejects.trans ?_,
    hcaptures.trans ?_⟩ <;> decide

end Simulation

end Moorland
