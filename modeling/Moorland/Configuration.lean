import Moorland.Sha256
import Moorland.Simulation
/-!
# Configurations

A **configuration** says how to set up a run: the size and the modes of the grid, the thresholds,
the intensity of the seeding, the seed, and the interval of the summaries. Each of its values has
a default, and any value of its type may be written down; `Moorland.Configuration.fault?` names
the first reason why a configuration cannot be run.

The **fingerprint** of a configuration is the digest of a description of the values that influence
results, `Moorland.Configuration.fingerprintText`.
-/

namespace Moorland

/-- The greatest side of a grid that a configuration may ask for. -/
def maxSide : Nat := 8192

/-! ### Sections -/

/-- **The grid section.** -/
structure GridSection where
  /-- The number of columns. -/
  width : Nat
  /-- The number of rows. -/
  height : Nat
  /-- How many generations are kept. -/
  buffering : BufferMode
  /-- Which pixels a stamp skips. -/
  stampMode : StampMode
deriving DecidableEq

/-- **The section of thresholds**: a pair, and perhaps a preset that stands in for it. -/
structure ThresholdSection where
  /-- The lower threshold. -/
  lower : Float32
  /-- The upper threshold. -/
  upper : Float32
  /-- The preset, if there is one. -/
  preset : Option Preset
deriving DecidableEq

/-- **A configuration.** -/
structure Configuration where
  /-- The size and the modes of the grid. -/
  grid : GridSection
  /-- The thresholds. -/
  thresholds : ThresholdSection
  /-- The intensity of the seeding. -/
  init : Intensity
  /-- The seed, if it is fixed. -/
  seed : Option UInt64
  /-- The number of steps between summaries. -/
  logInterval : UInt64
deriving DecidableEq

/-- The default grid section: 256 by 256, with two slots. -/
def GridSection.standard : GridSection := ⟨256, 256, .double, .alphaOnly⟩

/-- The default section of thresholds: the pair of the preset for stable land. -/
def ThresholdSection.standard : ThresholdSection :=
  ⟨Preset.stableLand.thresholds.lower, Preset.stableLand.thresholds.upper, none⟩

/-- **The default configuration.** -/
def Configuration.standard : Configuration :=
  ⟨.standard, .standard, .full, none, 1000⟩

/-- **The thresholds that a section asks for**: those of its preset if it has one, and otherwise its
own pair, which is checked. -/
def ThresholdSection.resolve (t : ThresholdSection) : Except Refusal Thresholds :=
  match t.preset with
  | some preset => .ok preset.thresholds
  | none => Thresholds.check t.lower t.upper

/-! ### Faults -/

/-- **Why a configuration cannot be run.** -/
inductive ConfigurationFault
  /-- The grid has no columns. -/
  | zeroWidth
  /-- The grid has too many columns. -/
  | tooWide
  /-- The grid has no rows. -/
  | zeroHeight
  /-- The grid has too many rows. -/
  | tooHigh
  /-- A refusal of the simulation itself. -/
  | refused (refusal : Refusal)
  /-- The intensity of a channel is below zero, infinite or a NaN. -/
  | badIntensity (channel : Channel)
  /-- Summaries need an interval. -/
  | zeroInterval
deriving DecidableEq

/-- The name of a channel. -/
def Channel.name : Channel → String
  | red => "red"
  | green => "green"
  | blue => "blue"

/-- What a fault says. -/
def ConfigurationFault.message : ConfigurationFault → String
  | zeroWidth => "Grid width must be positive"
  | tooWide => s!"Grid width too large (max {maxSide})"
  | zeroHeight => "Grid height must be positive"
  | tooHigh => s!"Grid height too large (max {maxSide})"
  | refused refusal => refusal.message
  | badIntensity channel => s!"Init {channel.name} intensity must be finite and non-negative"
  | zeroInterval => "Log interval must be positive"

/-- The scale can be used as an intensity. -/
def isIntensity (v : Float32) : Bool := v.isFinite && 0 ≤ v

/-- The fault of a section of thresholds, if it has one. -/
def ThresholdSection.fault? (t : ThresholdSection) : Option ConfigurationFault :=
  match t.resolve with
  | .error refusal => some (.refused refusal)
  | .ok _ => none

namespace Configuration

/-- **The first fault of a configuration**, if it has one. -/
def fault? (c : Configuration) : Option ConfigurationFault :=
  if c.grid.width = 0 then some .zeroWidth
  else if maxSide < c.grid.width then some .tooWide
  else if c.grid.height = 0 then some .zeroHeight
  else if maxSide < c.grid.height then some .tooHigh
  else if let some fault := c.thresholds.fault? then some fault
  else if !isIntensity c.init.red then some (.badIntensity .red)
  else if !isIntensity c.init.green then some (.badIntensity .green)
  else if !isIntensity c.init.blue then some (.badIntensity .blue)
  else if c.logInterval = 0 then some .zeroInterval
  else none

/-- **A configuration without a fault**, or its first one. -/
def check (c : Configuration) : Except ConfigurationFault Configuration :=
  match c.fault? with
  | some fault => .error fault
  | none => .ok c

/-- A configuration passes the check exactly if it has no fault, and then it is kept as it is. -/
theorem check_eq_ok_iff {c d : Configuration} : c.check = .ok d ↔ c.fault? = none ∧ c = d := by
  rw [check]
  split <;> simp [*]

end Configuration

/-! ### Fingerprints -/

/-- The description of a grid section. -/
def GridSection.describe (g : GridSection) : String :=
  "GridConfig \x7b width: " ++ toString g.width ++ ", height: " ++ toString g.height ++
    ", buffering: " ++ g.buffering.label ++ ", stamp_mode: " ++ g.stampMode.label ++ " \x7d"

/-- The description of an optional value from its text. -/
def describeOption : Option String → String
  | none => "None"
  | some text => "Some(" ++ text ++ ")"

/-- The description of a section of thresholds. -/
def ThresholdSection.describe (t : ThresholdSection) : String :=
  "ThresholdConfig \x7b under: " ++ Style.pointed.single t.lower ++ ", over: " ++
    Style.pointed.single t.upper ++ ", preset: " ++ describeOption (t.preset.map Preset.label) ++
    " \x7d"

/-- The description of an intensity. -/
def Intensity.describe (i : Intensity) : String :=
  "Intensity \x7b red: " ++ Style.pointed.single i.red ++ ", green: " ++
    Style.pointed.single i.green ++ ", blue: " ++ Style.pointed.single i.blue ++ " \x7d"

namespace Configuration

/-- **The text of which the fingerprint is the digest**: the descriptions of everything but the
interval of the summaries. -/
def fingerprintText (c : Configuration) : String :=
  c.grid.describe ++ c.thresholds.describe ++ c.init.describe ++
    describeOption (c.seed.map fun n => toString n.toNat)

/-- **The fingerprint of a configuration.** -/
def fingerprint (c : Configuration) : String := Sha256.hexDigest c.fingerprintText.toUTF8

end Configuration

/-! ### Setting up -/

namespace Simulation

/-- **The simulation that a configuration asks for**, without population. Random numbers come from
the given stream unless the configuration has a seed. -/
def ofConfiguration (stream : Stream) (journal : Journal) (c : Configuration) :
    Except ConfigurationFault Simulation := do
  let c ← c.check
  let thresholds ← c.thresholds.resolve.mapError .refused
  let s ← (make stream journal c.grid.width c.grid.height thresholds.lower
    thresholds.upper).mapError .refused
  let s ← (s.withBufferMode c.grid.buffering).mapError .refused
  let s := s.withStampMode c.grid.stampMode
  let s := match c.seed with
    | some seed => s.withSeed seed
    | none => s
  return { s with metrics := .ofInterval c.logInterval }.report .info "Simulation created"
    [("width", .count c.grid.width), ("height", .count c.grid.height),
      ("mode", .text c.grid.buffering.label), ("under", .number thresholds.lower),
      ("over", .number thresholds.upper), ("fingerprint", .text c.fingerprint)]

end Simulation

end Moorland
