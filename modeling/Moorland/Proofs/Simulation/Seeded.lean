import Moorland.Proofs.Simulation.Command
/-!
# Seeded runs

Seeding the grids draws from the stream of a simulation, and nothing else does. So between one
seeding and the next the stream stays where it is, whatever is done to the simulation, and a seeding
always takes as many draws as a grid has cells (`Moorland.Simulation.stream_perform`): the grids of
a simulation keep their size when their number changes, and only one of them is seeded, of which the
others are copies.

What is drawn after a seed has been given is then a matter of counting. By
`Moorland.Simulation.randomize_of_withSeed` the grids after a seeding are a function of the seed, of
the number of seedings since it was given, of the number of cells, and of the intensity.
-/

namespace Moorland

/-! ### The position in the stream -/

/-- **The stream after more draws.** -/
def Stream.skip (s : Stream) (n : Nat) : Stream := { s with drawn := s.drawn + n }

theorem Stream.skip_skip (s : Stream) (m n : Nat) : (s.skip m).skip n = s.skip (m + n) := by
  rw [skip, skip, skip, Nat.add_assoc]

/-- **The grid that a seeding gives** at an intensity, from a stream. -/
def Grid.seeded (width height : Nat) (i : Intensity) (s : Stream) : Grid :=
  ⟨width, height, Array.ofFn fun j : Fin (width * height) =>
    (i.scale (Stream.draw s.key (s.drawn + j))).clamped⟩

/-- **Seeding a grid** takes one draw for each of its cells, and forgets what they were. -/
theorem Grid.HasSize.randomize_eq_seeded {g : Grid} {width height : Nat}
    (hg : g.HasSize width height) (i : Intensity) (s : Stream) :
    g.randomize i s = (Grid.seeded width height i s, s.skip (width * height)) := by
  obtain ⟨rfl, rfl, hsize⟩ := hg
  have hrest : (s.draws (g.width * g.height)).2 = s.skip (g.width * g.height) := rfl
  rw [Grid.randomize, hsize]
  simp only [Stream.draws_fst, hrest, Array.map_ofFn]
  rfl

namespace Simulation

variable {s t : Simulation} {width height : Nat}

/-! ### What draws from the stream -/

/-- The command seeds the grids. -/
def Command.seeds : Command → Bool
  | .randomize _ => true
  | _ => false

theorem stream_setThresholds (s : Simulation) (lower upper : Float32) :
    (s.setThresholds lower upper).2.stream = s.stream := by
  rw [setThresholds]
  split <;> rfl

theorem stream_withBufferMode {mode : BufferMode} (ht : s.withBufferMode mode = .ok t) :
    t.stream = s.stream := by
  rw [withBufferMode] at ht
  split at ht
  · cases ht
    rfl
  · obtain ⟨ring, -, ht⟩ := bind_eq_ok_iff.mp ht
    cases ht
    rfl

theorem stream_resetTo (s : Simulation) (g : Grid) : (s.resetTo g).2.stream = s.stream := by
  rw [resetTo]
  split <;> rfl

theorem stream_settle (s : Simulation) (a : Ring × Option Refusal) :
    (s.settle a).2.stream = s.stream := by
  rcases a with ⟨ring, _ | refusal⟩ <;> rfl

theorem stream_steps (s : Simulation) (n : Nat) : (s.steps n).2.stream = s.stream :=
  steps_keeps (P := fun t => t.stream = s.stream) (fun t ht => (stream_settle t _).trans ht) rfl n

theorem stream_stamp (s : Simulation) (b : Brush) (x y : Int) :
    (s.stamp b x y).2.stream = s.stream := by
  rw [stamp]
  split
  · rfl
  · dsimp only
    split <;> rfl

theorem stream_capture (s : Simulation) (r : Region) : (s.capture r).2.stream = s.stream := by
  rw [capture]
  split <;> rfl

theorem stream_captureCentered (s : Simulation) (cx cy : Int) (w l : Nat) :
    (s.captureCentered cx cy w l).2.stream = s.stream := by
  rw [captureCentered]
  split
  · rfl
  · exact stream_capture s _

/-- **Seeding all grids** makes one grid and copies it into every slot. -/
theorem randomize_eq (hs : s.ring.Uniform width height) (i : Intensity) :
    (s.randomize i).stream = s.stream.skip (width * height) ∧
      (s.randomize i).ring = ⟨s.ring.mode,
        Array.replicate s.ring.mode.slots (Grid.seeded width height i s.stream), 0⟩ := by
  have hgrid := (hs.hasSize 0 (Ring.slots_pos _)).randomize_eq_seeded i s.stream
  rw [randomize, hgrid, ← hs.size_slots]
  exact ⟨rfl, rfl⟩

/-- **Only seeding draws from the stream**, and it draws once for each cell. -/
theorem stream_perform (hs : s.ring.Uniform width height) {c : Command}
    (hc : ∀ seed, c ≠ .withSeed seed) : (s.perform c).2.stream =
      if c.seeds then s.stream.skip (width * height) else s.stream := by
  cases c with
  | setThresholds lower upper => exact stream_setThresholds s lower upper
  | setLower lower => exact stream_setThresholds s lower s.thresholds.upper
  | setUpper upper => exact stream_setThresholds s s.thresholds.lower upper
  | withSeed seed => exact absurd rfl (hc seed)
  | withBufferMode mode =>
    rw [perform]
    split
    · next ht => exact stream_withBufferMode ht
    · rfl
  | randomize i => exact (randomize_eq hs i).1
  | resetTo g => exact stream_resetTo s g
  | step => exact stream_settle s _
  | steps n => exact stream_steps s n
  | stamp b x y => exact stream_stamp s b x y
  | capture r => exact stream_capture s r
  | captureCentered cx cy w l => exact stream_captureCentered s cx cy w l
  | applyPreset | setRule | withStampMode | clear => rfl

/-! ### Runs -/

/-- **A run draws as often as it seeds**, and each time once for each cell. -/
theorem stream_run (hs : s.ring.Uniform width height) {commands : List Command}
    (hc : ∀ c ∈ commands, c.WellFormed ∧ ∀ seed, c ≠ .withSeed seed) :
    (s.run commands).ring.Uniform width height ∧ (s.run commands).stream =
      s.stream.skip (commands.countP Command.seeds * (width * height)) := by
  induction commands generalizing s with
  | nil =>
    rw [List.countP_nil, Nat.zero_mul]
    exact ⟨hs, rfl⟩
  | cons c commands ih =>
    obtain ⟨hwell, hseed⟩ := hc c List.mem_cons_self
    obtain ⟨hring, hrest⟩ :=
      ih (uniform_perform hs hwell) fun d hd => hc d (List.mem_cons_of_mem c hd)
    refine ⟨hring, hrest.trans ?_⟩
    rw [stream_perform hs hseed, List.countP_cons]
    rcases c.seeds with _ | _
    · rfl
    · rw [if_pos rfl, if_pos rfl, Stream.skip_skip, Nat.add_mul, Nat.one_mul, Nat.add_comm]

/-- **What is drawn after a seed has been given** depends on nothing that happens in between. If the
grids are seeded, and have been so `k` times since the seed was given, then `k` draws a cell have
been taken from its stream; each cell gets the next draw after these, multiplied on each channel by
the intensity of the channel and clamped, in all slots alike; and the first slot is current. -/
theorem randomize_of_withSeed (hs : s.ring.Uniform width height) (seed : UInt64)
    {commands : List Command} (hc : ∀ c ∈ commands, c.WellFormed ∧ ∀ other, c ≠ .withSeed other)
    (i : Intensity) :
    let t := (s.withSeed seed).run commands
    let k := commands.countP Command.seeds
    t.stream = ⟨(Stream.ofSeed seed).key, k * (width * height)⟩ ∧
      (t.randomize i).stream = ⟨(Stream.ofSeed seed).key, (k + 1) * (width * height)⟩ ∧
      (t.randomize i).ring.current = 0 ∧
      (t.randomize i).ring.slots = Array.replicate t.ring.mode.slots
        ⟨width, height, Array.ofFn fun j : Fin (width * height) =>
          let u := Stream.draw (Stream.ofSeed seed).key (k * (width * height) + j)
          Cell.clamped ⟨u * i.red, u * i.green, u * i.blue⟩⟩ := by
  intro t k
  obtain ⟨hring, hstream⟩ := stream_run (s := s.withSeed seed) hs hc
  have hposition : t.stream = ⟨(Stream.ofSeed seed).key, k * (width * height)⟩ :=
    hstream.trans (congrArg (Stream.mk _) (Nat.zero_add _))
  obtain ⟨hdrawn, hgrids⟩ := randomize_eq hring i
  refine ⟨hposition, ?_, congrArg Ring.current hgrids, ?_⟩
  · rw [hdrawn, hposition, Nat.add_mul, Nat.one_mul]
    rfl
  · rw [hgrids, hposition]
    rfl

/-- The second seeding since the seed was given, after a change of the mode, steps, and commands
that are refused: the fifth of the six cells gets the eleventh draw. -/
theorem randomize_of_withSeed_amid :
    let commands : List Command := [.clear, .randomize .full, .withBufferMode .lookback, .steps 2,
      .resetTo ⟨1, 1, #[.white]⟩, .setLower 5, .stamp ⟨0, 0, #[]⟩ 0 0, .capture ⟨0, 0, 1, 1⟩]
    let i : Intensity := ⟨1, 0.5, 2⟩
    ∃ s, make (.ofSeed 7) .off 3 2 2 3 = .ok s ∧
      let t := (s.withSeed 1).run commands
      let u := Stream.draw (Stream.ofSeed 1).key 10
      (t.randomize i).stream = ⟨(Stream.ofSeed 1).key, 12⟩ ∧
        (t.randomize i).ring.slots.size = 3 ∧
        (∀ g ∈ (t.randomize i).ring.slots, g.cell 1 1 = Cell.clamped ⟨u * 1, u * 0.5, u * 2⟩) ∧
        Cell.clamped ⟨u * 1, u * 0.5, u * 2⟩ = ⟨.ofBits 1063903776, .ofBits 1055515168, 1⟩ := by
  intro commands i
  let ring : Ring := ⟨.double, Array.replicate 2 ⟨3, 2, Array.replicate 6 .black⟩, 0⟩
  let s : Simulation := ⟨ring, ⟨2, 3⟩, none, .alphaOnly, .ofSeed 7, none, 0, .standard, .off⟩
  have hring : Ring.black 3 2 .double = .ok ring := rfl
  have hmade : make (.ofSeed 7) .off 3 2 2 3 = .ok s := rfl
  have hc : ∀ c ∈ commands, c.WellFormed ∧ ∀ seed, c ≠ .withSeed seed := by
    simp [commands, Command.WellFormed, Grid.isFull_iff]
  refine ⟨s, hmade, ?_⟩
  intro t u
  obtain ⟨-, hstream, -, hslots⟩ := randomize_of_withSeed (s := s) (Ring.uniform_black hring) 1 hc i
  have hmode : t.ring.mode = .lookback := by decide +kernel
  have hcell : ∀ g ∈ (t.randomize i).ring.slots,
      g.cell 1 1 = Cell.clamped ⟨u * 1, u * 0.5, u * 2⟩ := by
    intro g hg
    rw [hslots] at hg
    obtain ⟨-, rfl⟩ := Array.mem_replicate.mp hg
    rfl
  have hsize : (t.randomize i).ring.slots.size = t.ring.mode.slots :=
    (congrArg Array.size hslots).trans Array.size_replicate
  exact ⟨hstream, hsize.trans (congrArg BufferMode.slots hmode), hcell, by decide +kernel⟩

end Simulation

end Moorland
