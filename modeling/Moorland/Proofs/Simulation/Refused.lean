import Moorland.Proofs.Simulation.Reachable
import Moorland.Proofs.Stamp.Cells
/-!
# Refused commands

A command that is refused leaves a simulation as it was, and a rejected stamp is the only refusal
that is counted. The main statement is `Moorland.Simulation.Reachable.refused_leaves`, about every
command and every argument, in every simulation that can be reached.

Two operations write while they can still be refused, and for both the reason lies outside of them.

* Replacing all grids copies over the slots one after the other and stops at the first that refuses
  the grid. Since a ring is uniform, a grid is refused by all slots or by none
  (`Moorland.Ring.Uniform.resetTo_accepted`), so a refusal comes before the first copy.
* Painting a brush writes pixel by pixel, by a check and a write for each pixel.
  `Moorland.Grid.stamp` shows nothing of a grid that is painted in part, so this file has the loop
  over again as it runs on one grid in place, `Moorland.Grid.stampInPlace`, with a refusal that
  leaves behind what has been painted so far. A pixel is written only where its destination is
  inside the grid, so that refusal never comes (`Moorland.Grid.paint_eq`), and the only one left is
  that of a brush without pixels, before the loop.
-/

namespace Moorland

namespace Grid

variable {g : Grid} {mode : StampMode} {corner : Option (Int × Int)} {height : Nat}

/-! ### Painting in place -/

/-- **Paint pixels in place**, each by a checked write, up to the first write that is refused. What
was painted before it stays painted. -/
def paint (mode : StampMode) (corner : Option (Int × Int)) (height : Nat) :
    Grid × StampReport → List ((Nat × Nat) × Pixel) → (Grid × StampReport) × Option Refusal
  | state, [] => (state, none)
  | (g, report), pixel :: pixels =>
    if mode.skips pixel.2 then
      paint mode corner height (g, { report with skipped := report.skipped + 1 }) pixels
    else
      match g.destination corner height pixel.1 with
      | none => paint mode corner height (g, { report with clipped := report.clipped + 1 }) pixels
      | some (x, y) =>
        match g.set x y pixel.2.cell with
        | .ok h =>
          paint mode corner height (h, { report with written := report.written + 1 }) pixels
        | .error refusal => ((g, report), some refusal)

/-- **Paint a brush in place**, centred on a point: the grid as it is left, and the answer. -/
def stampInPlace (g : Grid) (b : Brush) (cx cy : Int) (mode : StampMode) :
    Grid × Except Refusal StampReport :=
  if b.width = 0 ∨ b.height = 0 then
    (g, .error (.sizeMismatch (.emptyBrush b.width b.height)))
  else
    match paint mode (centeredCorner cx cy b.width b.height) b.height (g, ⟨0, 0, 0⟩) b.placed with
    | ((h, report), none) => (h, .ok report)
    | ((h, _), some refusal) => (h, .error refusal)

/-- The grid that an answer comes with, or the grid as it was where there is none. -/
def orAsBefore (g : Grid) : Except Refusal (Grid × StampReport) → Grid × Except Refusal StampReport
  | .ok (h, report) => (h, .ok report)
  | .error refusal => (g, .error refusal)

/-- **A pixel has its destination inside the grid** if it has one. -/
theorem inside_of_destination {place : Nat × Nat} {x y : Nat}
    (h : g.destination corner height place = some (x, y)) : g.inside x y = true :=
  inside_iff.mpr (destination_eq_some_iff.mp h).1

/-- **No write is refused** while pixels are painted. -/
theorem paint_eq (state : Grid × StampReport) (pixels : List ((Nat × Nat) × Pixel)) :
    paint mode corner height state pixels =
      (pixels.foldl (stampPixel mode corner height) state, none) := by
  induction pixels generalizing state with
  | nil => rfl
  | cons pixel pixels ih =>
    obtain ⟨g, report⟩ := state
    rw [paint, List.foldl_cons, stampPixel]
    by_cases hskip : mode.skips pixel.2 = true
    · simp only [hskip, if_true, ih]
    · rcases hd : g.destination corner height pixel.1 with _ | ⟨x, y⟩
      · simp only [hskip, if_false, ih, Bool.false_eq_true]
      · -- the destination has been checked, so the check of the write goes through
        have hset : g.set x y pixel.2.cell = .ok (g.put x y pixel.2.cell) :=
          if_pos (inside_of_destination hd)
        simp only [hskip, if_false, hset, ih, Bool.false_eq_true]

/-- **Painting in place** gives the painted grid, or leaves the grid as it was. -/
theorem stampInPlace_eq (g : Grid) (b : Brush) (cx cy : Int) (mode : StampMode) :
    g.stampInPlace b cx cy mode = g.orAsBefore (g.stamp b cx cy mode) := by
  rw [stampInPlace, stamp, paint_eq]
  split <;> rfl

end Grid

/-! ### Refusals of each operation -/

namespace Simulation

variable {s : Simulation} {width height : Nat} {refusal : Refusal}

theorem setThresholds_refused {lower upper : Float32}
    (h : (s.setThresholds lower upper).1 = .error refusal) :
    (s.setThresholds lower upper).2 = s := by
  rw [setThresholds] at h ⊢
  rcases hc : Thresholds.check lower upper with flaw | thresholds
  · rfl
  · rw [hc] at h
    cases h

theorem resetTo_refused_eq (hs : s.ring.Uniform width height) {g : Grid}
    (h : (s.resetTo g).1 = .error refusal) : (s.resetTo g).2 = s := by
  by_cases hg : g.width = width ∧ g.height = height
  · rw [resetTo, hs.resetTo_accepted hg.1 hg.2] at h
    cases h
  · rw [resetTo_refused hs hg]

/-- The simulation after a brush has been rejected. -/
def rejected (s : Simulation) (x y : Int) (refusal : Refusal) : Simulation :=
  (s.count "stamp_rejected").report .warn "Brush rejected"
    [("x", .coordinate x), ("y", .coordinate y), ("error", .text refusal.message)]

theorem stamp_refused {b : Brush} {x y : Int} (h : (s.stamp b x y).1 = .error refusal) :
    (s.stamp b x y).2 = s.rejected x y refusal := by
  rw [stamp] at h ⊢
  rcases hg : s.currentGrid.stamp b x y s.stampMode with why | ⟨g, done⟩
  · rw [hg] at h
    cases h
    rfl
  · rw [hg] at h
    cases h

theorem capture_refused {r : Region} (h : (s.capture r).1 = .error refusal) :
    (s.capture r).2 = s := by
  rw [capture] at h ⊢
  rcases hb : s.currentGrid.capture r with why | b
  · rfl
  · rw [hb] at h
    cases h

theorem captureCentered_refused {cx cy : Int} {w l : Nat}
    (h : (s.captureCentered cx cy w l).1 = .error refusal) :
    (s.captureCentered cx cy w l).2 = s := by
  rw [captureCentered] at h ⊢
  rcases hcorner : centeredCorner cx cy w l with _ | ⟨x, y⟩
  · rfl
  · rw [hcorner] at h
    exact capture_refused h

theorem Answer.fst_reply_eq_error_iff {α : Type} {make : α → Reply} {a : Answer α} :
    (a.reply make).1 = .error refusal ↔ a.1 = .error refusal := by
  obtain ⟨_ | _, t⟩ := a
  · exact ⟨fun h => congrArg _ (Except.error.inj h), fun h => congrArg _ (Except.error.inj h)⟩
  · exact ⟨nofun, nofun⟩

theorem Ready.exists_withBufferMode (hs : Ready width height s) (mode : BufferMode) :
    ∃ t, s.withBufferMode mode = .ok t := by
  rw [Simulation.withBufferMode, width_eq hs.uniform, height_eq hs.uniform]
  split
  · exact ⟨s, rfl⟩
  · obtain ⟨ring, hring⟩ := Ring.exists_black hs.width_pos hs.height_pos mode
    rw [hring]
    exact ⟨_, rfl⟩

/-! ### Refused commands -/

/-- **The simulation after a refused command**: as it was, unless a brush has been rejected. -/
def afterRefusal (s : Simulation) (refusal : Refusal) : Command → Simulation
  | .stamp _ x y => s.rejected x y refusal
  | _ => s

/-- The counter of the refusals of a command, if they are counted. -/
def Command.refusalCounter : Command → Option String
  | .stamp _ _ _ => some "stamp_rejected"
  | _ => none

/-- **Every refused command** leaves a simulation as it was, or rejects a brush. -/
theorem Ready.perform_refused (hs : Ready width height s) {c : Command}
    (hc : (s.perform c).1 = .error refusal) : (s.perform c).2 = s.afterRefusal refusal c := by
  cases c with
  | setThresholds lower upper => exact setThresholds_refused (Answer.fst_reply_eq_error_iff.mp hc)
  | setLower lower => exact setThresholds_refused (Answer.fst_reply_eq_error_iff.mp hc)
  | setUpper upper => exact setThresholds_refused (Answer.fst_reply_eq_error_iff.mp hc)
  | withBufferMode mode =>
    obtain ⟨t, ht⟩ := hs.exists_withBufferMode mode
    simp only [Simulation.perform, ht] at hc
    cases hc
  | resetTo g => exact resetTo_refused_eq hs.uniform (Answer.fst_reply_eq_error_iff.mp hc)
  | stamp b x y => exact stamp_refused (Answer.fst_reply_eq_error_iff.mp hc)
  | capture r => exact capture_refused (Answer.fst_reply_eq_error_iff.mp hc)
  | captureCentered cx cy w l =>
    exact captureCentered_refused (Answer.fst_reply_eq_error_iff.mp hc)
  | step =>
    have hstep := Answer.fst_reply_eq_error_iff.mp hc
    rw [step_eq hs.uniform] at hstep
    cases hstep
  | steps n =>
    have hsteps := Answer.fst_reply_eq_error_iff.mp hc
    rw [fst_steps hs.uniform n] at hsteps
    cases hsteps
  | applyPreset | setRule | withStampMode | withSeed | randomize | clear => cases hc

theorem counter_rejected (s : Simulation) (x y : Int) (refusal : Refusal) (name : String) :
    (s.rejected x y refusal).metrics.counter name =
      s.metrics.counter name + if "stamp_rejected" = name then 1 else 0 := by
  change (s.metrics.increment "stamp_rejected").counter name = _
  rw [Metrics.counter_increment]
  by_cases hn : name = "stamp_rejected"
  · rw [if_pos hn, if_pos hn.symm, hn]
  · rw [if_neg hn, if_neg (Ne.symm hn), UInt64.add_zero]

namespace Reachable

/-- **A command that is refused leaves a simulation as it was**: the grids in all slots and the
number of the current one, the thresholds, the rule, the stamp mode, the random stream and its
seed, the number of the generation, the steps and cells that have been counted, and every counter.
A rejected stamp adds one to its own counter, and is the only command that leaves a trace. That
painting in place comes to the same says that no brush is rejected half painted. -/
theorem refused_leaves (hs : Reachable width height s) {c : Command}
    (hc : (s.perform c).1 = .error refusal) :
    let t := (s.perform c).2
    t.ring = s.ring ∧ t.thresholds = s.thresholds ∧ t.rule = s.rule ∧ t.stampMode = s.stampMode ∧
      t.stream = s.stream ∧ t.seed = s.seed ∧ t.generation = s.generation ∧
      t.metrics.steps = s.metrics.steps ∧ t.metrics.live = s.metrics.live ∧
      (∀ name, t.metrics.counter name =
        s.metrics.counter name + if c.refusalCounter = some name then 1 else 0) ∧
      (c.refusalCounter = none → t = s) ∧
      ∀ (b : Brush) (x y : Int), s.currentGrid.stampInPlace b x y s.stampMode =
        s.currentGrid.orAsBefore (s.currentGrid.stamp b x y s.stampMode) := by
  intro t
  have ht : t = s.afterRefusal refusal c := hs.ready.perform_refused hc
  have hpaint := s.currentGrid.stampInPlace_eq
  rw [ht]
  cases c with
  | stamp b x y =>
    refine ⟨rfl, rfl, rfl, rfl, rfl, rfl, rfl, rfl, rfl, fun name => ?_, nofun,
      fun b x y => hpaint b x y s.stampMode⟩
    simp only [afterRefusal, counter_rejected, Command.refusalCounter, Option.some.injEq]
  | _ =>
    exact ⟨rfl, rfl, rfl, rfl, rfl, rfl, rfl, rfl, rfl, fun _ => (UInt64.add_zero _).symm,
      fun _ => rfl, fun b x y => hpaint b x y s.stampMode⟩

/-- A brush without pixels, painted on a simulation that has changed its mode, has read a region and
has rejected such a brush before. -/
theorem refused_leaves_empty_brush :
    ∃ s, make (.ofSeed 1) .off 2 1 2 3 = .ok s ∧
      let t := s.run [.withBufferMode .lookback, .capture ⟨0, 0, 1, 1⟩, .stamp (.blank 2 0) 0 0]
      let u := (t.perform (.stamp (.blank 0 1) 1 0)).2
      (t.perform (.stamp (.blank 0 1) 1 0)).1 = .error (.sizeMismatch (.emptyBrush 0 1)) ∧
        u.ring = t.ring ∧ u.generation = t.generation ∧
        u.metrics.counter "capture" = t.metrics.counter "capture" ∧
        u.metrics.counter "stamp_rejected" = t.metrics.counter "stamp_rejected" + 1 := by
  obtain ⟨ring, hmade⟩ : ∃ ring, make (.ofSeed 1) .off 2 1 2 3 =
      .ok ⟨ring, ⟨2, 3⟩, none, .alphaOnly, .ofSeed 1, none, 0, .standard, .off⟩ :=
    exists_make (by decide) (by decide) rfl
  refine ⟨_, hmade, ?_⟩
  intro t u
  have hreach : Reachable 2 1 t :=
    (Reachable.made (by decide) hmade).run (by simp [Command.WellFormed])
  have hrefused : (t.perform (.stamp (.blank 0 1) 1 0)).1 =
      .error (.sizeMismatch (.emptyBrush 0 1)) := rfl
  obtain ⟨hr, -, -, -, -, -, hg, -, -, hcount, -⟩ := hreach.refused_leaves hrefused
  exact ⟨hrefused, hr, hg, (hcount "capture").trans (UInt64.add_zero _), hcount "stamp_rejected"⟩

end Reachable

end Simulation

end Moorland
