import Moorland.Metrics
import Moorland.Preset
import Moorland.Ring
import Moorland.Seeding
import Moorland.Stamp
/-!
# Simulations

A **simulation** is a ring of grids with the law that it follows, a stamp mode, a random stream,
and the account that it keeps of itself: the number of the generation, metrics and a journal.

Operations that cannot fail give a simulation. Operations that can give an answer together with the
simulation after it, because a failure may leave a trace too: a rejected stamp is counted.
-/

namespace Moorland

/-- **A simulation.** -/
structure Simulation where
  /-- The grids. -/
  ring : Ring
  /-- The thresholds in effect. -/
  thresholds : Thresholds
  /-- The rule in effect, if there is one. -/
  rule : Option Rule
  /-- Which pixels a stamp skips. -/
  stampMode : StampMode
  /-- Where random numbers come from. -/
  stream : Stream
  /-- The seed of the stream, if it was given. -/
  seed : Option UInt64
  /-- The number of steps since the simulation was made or its grids were replaced. -/
  generation : UInt64
  /-- What is counted. -/
  metrics : Metrics
  /-- What is reported. -/
  journal : Journal

namespace Simulation

/-- An answer, and the simulation after it. -/
abbrev Answer (α : Type) := Except Refusal α × Simulation

/-! ### Making simulations -/

/-- **A simulation without population** and with two slots. Its random numbers come from the given
stream until it is given a seed. -/
def make (stream : Stream) (journal : Journal) (width height : Nat) (lower upper : Float32) :
    Except Refusal Simulation := do
  let thresholds ← Thresholds.check lower upper
  let ring ← Ring.black width height .double
  return ⟨ring, thresholds, none, .alphaOnly, stream, none, 0, .standard, journal⟩

/-- The width of the grids. -/
def width (s : Simulation) : Nat := s.ring.width

/-- The height of the grids. -/
def height (s : Simulation) : Nat := s.ring.height

/-- The current generation. -/
def currentGrid (s : Simulation) : Grid := s.ring.currentGrid

/-- The generation before the current one, if it is kept. -/
def previousGrid (s : Simulation) : Option Grid := s.ring.previousGrid

/-- The statistics of the current generation. -/
def statistics (s : Simulation) : Statistics := s.currentGrid.statistics

/-- What the next generation is computed by. -/
def law (s : Simulation) : Law := ⟨s.thresholds, s.rule⟩

/-- **Keep another number of generations.** If that changes anything, the grids are made anew,
without population, and the generations are counted from zero. -/
def withBufferMode (s : Simulation) (mode : BufferMode) : Except Refusal Simulation :=
  if mode = s.ring.mode then .ok s
  else do return { s with ring := ← Ring.black s.width s.height mode, generation := 0 }

/-- Draw random numbers from the stream of a seed. -/
def withSeed (s : Simulation) (seed : UInt64) : Simulation :=
  { s with stream := .ofSeed seed, seed := some seed }

/-- Skip the pixels of another mode. -/
def withStampMode (s : Simulation) (mode : StampMode) : Simulation := { s with stampMode := mode }

/-- Report an event. -/
def report (s : Simulation) (level : Level) (message : String)
    (fields : List (String × FieldValue)) : Simulation :=
  { s with journal := s.journal.add level message fields }

/-! ### The law -/

/-- **Replace both thresholds.** A refused pair leaves the old one in effect. -/
def setThresholds (s : Simulation) (lower upper : Float32) : Answer Unit :=
  match Thresholds.check lower upper with
  | .error refusal => (.error refusal, s)
  | .ok thresholds =>
    (.ok (), { s with thresholds }.report .debug "Thresholds updated"
      [("under", .number lower), ("over", .number upper)])

/-- Replace the lower threshold. -/
def setLower (s : Simulation) (lower : Float32) : Answer Unit :=
  s.setThresholds lower s.thresholds.upper

/-- Replace the upper threshold. -/
def setUpper (s : Simulation) (upper : Float32) : Answer Unit :=
  s.setThresholds s.thresholds.lower upper

/-- Put the thresholds of a preset into effect. -/
def applyPreset (s : Simulation) (preset : Preset) : Simulation :=
  { s with thresholds := preset.thresholds }.report .debug "Threshold preset applied"
    [("preset", .text preset.name)]

/-- Put a rule into effect, or take it away. -/
def setRule (s : Simulation) (rule : Option Rule) : Simulation :=
  { s with rule }.report .debug "Custom rule changed" [("enabled", .flag rule.isSome)]

/-! ### Replacing the grids -/

/-- The simulation with a new ring, from which generations and steps are counted anew. -/
def restart (s : Simulation) (ring : Ring) : Simulation :=
  { s with ring, generation := 0, metrics := s.metrics.resetSteps }

/-- **Seed all grids** with the next draws of the stream. -/
def randomize (s : Simulation) (intensity : Intensity) : Simulation :=
  let (seeded, stream) := (s.ring.slot 0).randomize intensity s.stream
  ({ s with stream }.restart (s.ring.reseed fun _ => seeded)).report .debug "Grid randomized"
    [("red", .number intensity.red), ("green", .number intensity.green),
      ("blue", .number intensity.blue)]

/-- Take the population from all grids. -/
def clear (s : Simulation) : Simulation := s.restart (s.ring.reseed Grid.clear)

/-- **Replace all grids** by a given one. -/
def resetTo (s : Simulation) (g : Grid) : Answer Unit :=
  match s.ring.resetTo g with
  | (ring, none) => (.ok (), s.restart ring)
  | (ring, some refusal) => (.error refusal, { s with ring })

/-! ### Steps -/

/-- **Take in what became of the ring** in a step. A refused step is not counted. No clock runs in a
simulation: a step is recorded as taking no time. -/
def settle (s : Simulation) : Ring × Option Refusal → Answer Unit
  | (ring, some refusal) => (.error refusal, { s with ring })
  | (ring, none) =>
    let (metrics, journal) := s.metrics.recordStep s.journal 0 ring.currentGrid
    (.ok (), { s with ring, generation := s.generation + 1, metrics, journal })

/-- **Advance one generation.** -/
def step (s : Simulation) : Answer Unit := s.settle (s.ring.turn s.law)

/-- **Advance `n` generations**, up to the first that is refused. -/
def steps (s : Simulation) : (n : Nat) → Answer Unit
  | 0 => (.ok (), s)
  | n + 1 =>
    match s.step with
    | (.ok (), s) => steps s n
    | (.error refusal, s) => (.error refusal, s)

/-! ### Painting -/

/-- Count a happening. -/
def count (s : Simulation) (name : String) : Simulation :=
  { s with metrics := s.metrics.increment name }

/-- **Paint a brush on the current generation**, centred on a point. -/
def stamp (s : Simulation) (b : Brush) (x y : Int) : Answer StampReport :=
  match s.currentGrid.stamp b x y s.stampMode with
  | .error refusal =>
    (.error refusal, (s.count "stamp_rejected").report .warn "Brush rejected"
      [("x", .coordinate x), ("y", .coordinate y), ("error", .text refusal.message)])
  | .ok (g, done) =>
    let s := { s with ring := s.ring.replaceCurrent g }.count "stamp"
    (.ok done,
      if done.written = 0 ∧ 0 < done.clipped then
        s.report .warn "Stamp fell entirely outside the grid"
          [("x", .coordinate x), ("y", .coordinate y), ("clipped", .count done.clipped)]
      else s)

/-- **Read a region of the current generation.** -/
def capture (s : Simulation) (r : Region) : Answer Brush :=
  match s.currentGrid.capture r with
  | .error refusal => (.error refusal, s)
  | .ok brush => (.ok brush, s.count "capture")

/-- **Read the region that a brush of the given size would cover**, centred on a point. -/
def captureCentered (s : Simulation) (cx cy : Int) (width height : Nat) : Answer Brush :=
  match centeredCorner cx cy width height with
  | none => (.error (.outOfBounds ⟨cx, cy, width, height⟩ s.width s.height), s)
  | some (x, y) => s.capture ⟨x, y, width, height⟩

/-! ### Descriptions -/

/-- The description of a simulation. -/
def describe (s : Simulation) : String :=
  "Simulation \x7b width: " ++ toString s.width ++ ", height: " ++ toString s.height ++
    ", mode: " ++ s.ring.mode.label ++ ", thresholds: " ++ s.thresholds.describe ++
    ", custom_rule: " ++ (if s.rule.isSome then "true" else "false") ++ ", generation: " ++
    toString s.generation.toNat ++ " \x7d"

end Simulation

end Moorland
