import Moorland.Proofs.Simulation.Refused
/-!
# Two counts of the steps

A simulation counts its steps twice: the number of the generation tells its users where it is, and
the metrics number the summaries in the journal. Both go up with each step, and whatever replaces
all grids starts both over – seeding, clearing, and replacing the grids by a given one.

Changing the mode makes new grids too, and starts the number of the generation over, but the metrics
go on counting from where they were. The two differ from then on, until something else replaces the
grids (`Moorland.Simulation.counts_differ_after_mode`). That is the only way for them to part: by
`Moorland.Simulation.Fresh.counts_agree_iff` they agree all through a run exactly if the mode is
never changed while steps have been counted. The step of the induction is
`Moorland.Simulation.Ready.countsAgree_perform_iff`.
-/

namespace Moorland

namespace Simulation

variable {s t : Simulation} {width height : Nat}

/-- **The two counts agree**: the steps that the metrics have counted, and the number of the
generation. -/
def CountsAgree (s : Simulation) : Prop := s.metrics.steps = s.generation

/-! ### Commands other than a change of the mode -/

theorem CountsAgree.settle (h : s.CountsAgree) (a : Ring × Option Refusal) :
    (s.settle a).2.CountsAgree := by
  rcases a with ⟨ring, _ | refusal⟩
  · have hsteps := Metrics.steps_recordStep s.metrics s.journal 0 ring.currentGrid
    exact hsteps.trans (congrArg (· + 1) h)
  · exact h

theorem CountsAgree.setThresholds (h : s.CountsAgree) (lower upper : Float32) :
    (s.setThresholds lower upper).2.CountsAgree := by
  rw [Simulation.setThresholds]
  split <;> exact h

theorem CountsAgree.resetTo (h : s.CountsAgree) (g : Grid) : (s.resetTo g).2.CountsAgree := by
  rw [Simulation.resetTo]
  split
  · rfl
  · exact h

theorem CountsAgree.stamp (h : s.CountsAgree) (b : Brush) (x y : Int) :
    (s.stamp b x y).2.CountsAgree := by
  rw [Simulation.stamp]
  split
  · exact h
  · dsimp only
    split <;> exact h

theorem CountsAgree.capture (h : s.CountsAgree) (r : Region) : (s.capture r).2.CountsAgree := by
  rw [Simulation.capture]
  split <;> exact h

theorem CountsAgree.captureCentered (h : s.CountsAgree) (cx cy : Int) (w l : Nat) :
    (s.captureCentered cx cy w l).2.CountsAgree := by
  rw [Simulation.captureCentered]
  split
  · exact h
  · exact h.capture _

/-- **Only a change of the mode makes the two counts differ.** -/
theorem CountsAgree.perform (h : s.CountsAgree) {c : Command}
    (hc : ∀ mode, c ≠ .withBufferMode mode) : (s.perform c).2.CountsAgree := by
  cases c with
  | setThresholds lower upper => exact h.setThresholds lower upper
  | setLower lower => exact h.setThresholds lower s.thresholds.upper
  | setUpper upper => exact h.setThresholds s.thresholds.lower upper
  | withBufferMode mode => exact absurd rfl (hc mode)
  | resetTo g => exact h.resetTo g
  | step => exact h.settle _
  | steps n => exact steps_keeps (P := CountsAgree) (fun _ ht => ht.settle _) h n
  | stamp b x y => exact h.stamp b x y
  | capture r => exact h.capture r
  | captureCentered cx cy w l => exact h.captureCentered cx cy w l
  | randomize | clear => rfl
  | applyPreset | setRule | withStampMode | withSeed => exact h

/-! ### A change of the mode -/

theorem withBufferMode_eq_self (s : Simulation) : s.withBufferMode s.ring.mode = .ok s := if_pos rfl

/-- **A change of the mode** starts the generations over, and leaves the metrics alone. -/
theorem counts_withBufferMode {mode : BufferMode} (hm : mode ≠ s.ring.mode)
    (ht : s.withBufferMode mode = .ok t) : t.generation = 0 ∧ t.metrics = s.metrics := by
  rw [withBufferMode, if_neg hm] at ht
  obtain ⟨ring, -, ht⟩ := bind_eq_ok_iff.mp ht
  cases ht
  exact ⟨rfl, rfl⟩

/-- **After one command** the counts still agree, unless the mode has been changed and steps had
been counted by then. -/
theorem Ready.countsAgree_perform_iff (hs : Ready width height s) (h : s.CountsAgree)
    {c : Command} : (s.perform c).2.CountsAgree ↔
      ∀ mode, c = .withBufferMode mode → mode ≠ s.ring.mode → s.metrics.steps = 0 := by
  by_cases hc : ∃ mode, c = .withBufferMode mode
  · obtain ⟨mode, rfl⟩ := hc
    obtain ⟨t, ht⟩ := hs.exists_withBufferMode mode
    have hperform : (s.perform (.withBufferMode mode)).2 = t := by
      simp only [Simulation.perform, ht]
    rw [hperform]
    by_cases hm : mode = s.ring.mode
    · subst hm
      obtain rfl : s = t := Except.ok.inj (s.withBufferMode_eq_self.symm.trans ht)
      refine ⟨fun _ mode hmode hne => ?_, fun _ => h⟩
      cases hmode
      exact absurd rfl hne
    · obtain ⟨hgeneration, hmetrics⟩ := counts_withBufferMode hm ht
      rw [CountsAgree, hgeneration, hmetrics]
      refine ⟨fun hzero _ _ _ => hzero, fun hzero => hzero mode rfl hm⟩
  · have hne : ∀ mode, c ≠ .withBufferMode mode := fun mode he => hc ⟨mode, he⟩
    exact ⟨fun _ mode he => absurd he (hne mode), fun _ => h.perform hne⟩

/-! ### Runs -/

/-- **A simulation that has just been made**, or set up from a configuration. -/
inductive Fresh (width height : Nat) : Simulation → Prop
  /-- One that has been made, with a number of cells that fits in a word. -/
  | made {s : Simulation} {stream : Stream} {journal : Journal} {lower upper : Float32}
      (hsize : width * height < UInt64.size)
      (hs : make stream journal width height lower upper = .ok s) : Fresh width height s
  /-- One that has been set up from a configuration. -/
  | configured {s : Simulation} {stream : Stream} {journal : Journal} {c : Configuration}
      (hw : c.grid.width = width) (hh : c.grid.height = height)
      (hs : ofConfiguration stream journal c = .ok s) : Fresh width height s

theorem Fresh.reachable (hs : Fresh width height s) : Reachable width height s := by
  cases hs with
  | made hsize hs => exact .made hsize hs
  | configured hw hh hs => exact .configured hw hh hs

theorem Fresh.countsAgree (hs : Fresh width height s) : s.CountsAgree := by
  cases hs with
  | made _ hs =>
    obtain ⟨thresholds, ring, -, -, rfl⟩ := make_eq_ok_iff.mp hs
    rfl
  | @configured _ _ c _ _ hs =>
    obtain ⟨-, _, _, made, kept, hmade, hkept, hset⟩ := setUp_of_ofConfiguration hs
    have hzero : made.generation = 0 := by
      obtain ⟨_, _, -, -, rfl⟩ := make_eq_ok_iff.mp hmade
      rfl
    rw [CountsAgree, hset.metrics_eq, hset.generation_eq]
    -- the mode of the configuration may be the one that the simulation has been made with
    by_cases hm : c.grid.buffering = made.ring.mode
    · rw [hm, withBufferMode_eq_self] at hkept
      rw [← Except.ok.inj hkept]
      exact hzero.symm
    · exact (counts_withBufferMode hm hkept).1.symm

theorem run_take_succ {commands : List Command} {n : Nat} {c : Command}
    (hn : commands[n]? = some c) :
    s.run (commands.take (n + 1)) = ((s.run (commands.take n)).perform c).2 := by
  rw [List.take_add_one, hn, run, run, List.foldl_append]
  rfl

/-- **The two counts agree all through a run exactly if the mode is never changed while steps have
been counted.** -/
theorem Fresh.counts_agree_iff (hs : Fresh width height s) {commands : List Command}
    (hc : ∀ c ∈ commands, c.WellFormed) :
    (∀ n, (s.run (commands.take n)).metrics.steps = (s.run (commands.take n)).generation) ↔
      ∀ n mode, commands[n]? = some (.withBufferMode mode) →
        mode ≠ (s.run (commands.take n)).ring.mode →
        (s.run (commands.take n)).metrics.steps = 0 := by
  have hready : ∀ n, Ready width height (s.run (commands.take n)) := fun n =>
    (hs.reachable.run fun c hmem => hc c (List.mem_of_mem_take hmem)).ready
  constructor
  · intro hagree n mode hn hm
    have hnext := hagree (n + 1)
    rw [run_take_succ hn] at hnext
    exact ((hready n).countsAgree_perform_iff (hagree n)).mp hnext mode rfl hm
  · intro hmode n
    induction n with
    | zero => exact hs.countsAgree
    | succ n ih =>
      rcases hn : commands[n]? with _ | c
      · -- the run is over
        rwa [List.take_add_one, hn, Option.toList_none, List.append_nil]
      · rw [run_take_succ hn]
        refine ((hready n).countsAgree_perform_iff ih).mpr fun mode he hm => ?_
        subst he
        exact hmode n mode hn hm

/-- A run that changes the mode after it has cleared what had been counted. -/
theorem counts_agree_after_clear :
    ∃ s, make (.ofSeed 1) .off 2 1 2 3 = .ok s ∧
      ∀ n, let t := s.run (List.take n [.step, .clear, .withBufferMode .lookback, .steps 2])
        t.metrics.steps = t.generation := by
  obtain ⟨ring, hmade⟩ : ∃ ring, make (.ofSeed 1) .off 2 1 2 3 =
      .ok ⟨ring, ⟨2, 3⟩, none, .alphaOnly, .ofSeed 1, none, 0, .standard, .off⟩ :=
    exists_make (by decide) (by decide) rfl
  refine ⟨_, hmade, ((Fresh.made (by decide) hmade).counts_agree_iff
    (by simp [Command.WellFormed])).mpr fun n mode hn _ => ?_⟩
  rcases n with _ | _ | _ | _ | n
  · cases hn
  · cases hn
  · rfl
  · cases hn
  · cases hn

/-- **Changing the mode after a step** starts the number of the generation over, but not the count
of the metrics. -/
theorem counts_differ_after_mode :
    ∃ s, make (.ofSeed 1) .off 1 1 2 3 = .ok s ∧
      let t := s.run [.step, .withBufferMode .lookback]
      t.generation = 0 ∧ t.metrics.steps = 1 := by
  have hmade : make (.ofSeed 1) .off 1 1 2 3 =
      .ok ⟨⟨.double, #[⟨1, 1, #[.black]⟩, ⟨1, 1, #[.black]⟩], 0⟩, ⟨2, 3⟩, none, .alphaOnly,
        .ofSeed 1, none, 0, .standard, .off⟩ := rfl
  exact ⟨_, hmade, rfl, rfl⟩

end Simulation

end Moorland
