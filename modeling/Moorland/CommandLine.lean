import Moorland.Configuration.File
import Moorland.Decimal.Fixed
import Moorland.Grid.Digest
import Moorland.Grid.Picture
/-!
# The command line

A run is asked for by options (`Moorland.Request.parse?`). They are read from left to right; each
may be given once, with its value in the same word or in the next one, and the first request for
help or for the version wins over what follows it.

A run without population is set up from a configuration file, or from the defaults, with the options
put over it (`Moorland.Options.apply`). The grid is seeded, advanced, and reported:
`Moorland.Options.report` gives the lines.
-/

namespace Moorland

/-! ### Options -/

/-- **The options of a run.** -/
structure Options where
  /-- The path of the configuration file. -/
  config : Option String
  /-- The number of generations, if it is given. -/
  steps : Option UInt64
  /-- The seed. -/
  seed : Option UInt64
  /-- The preset. -/
  preset : Option Preset
  /-- The width of the grid. -/
  width : Option Nat
  /-- The height of the grid. -/
  height : Option Nat
  /-- The generation before the current one is kept. -/
  lookback : Bool
  /-- The greatest number of columns of the picture, if one is drawn. -/
  print : Option Nat
deriving DecidableEq, Repr

namespace Options

/-- No options. -/
def none : Options := ⟨.none, .none, .none, .none, .none, .none, false, .none⟩

/-- The number of generations of a run that does not give one. -/
def defaultSteps : UInt64 := 100

/-- A natural number of 64 bits, with a plus sign or without. -/
def word? (s : String) : Option UInt64 :=
  let digits := match s.toList with
    | '+' :: rest => rest
    | all => all
  if digits.isEmpty || !digits.all Char.isDigit then .none
  else
    let n := digits.foldl (fun n c => n * 10 + (c.toNat - 48)) 0
    if n < UInt64.size then some (.ofNat n) else .none

/-- **The value of an option is given**: a fault if it was given before or cannot be read. -/
def once {α : Type} (old : Option α) (value : Option α) : Option (Option α) :=
  match old, value with
  | .none, some a => some (some a)
  | _, _ => .none

/-- **Set an option that has a value**, by its long name. -/
def set? (o : Options) (name value : String) : Option Options :=
  match name with
  | "config" => (once o.config (some value)).map fun v => { o with config := v }
  | "steps" => (once o.steps (word? value)).map fun v => { o with steps := v }
  | "seed" => (once o.seed (word? value)).map fun v => { o with seed := v }
  | "preset" => (once o.preset (Preset.parse? value)).map fun v => { o with preset := v }
  | "width" => (once o.width ((word? value).map UInt64.toNat)).map fun v => { o with width := v }
  | "height" =>
    (once o.height ((word? value).map UInt64.toNat)).map fun v => { o with height := v }
  | "print" => (once o.print ((word? value).map UInt64.toNat)).map fun v => { o with print := v }
  | _ => .none

/-- The options that have a value. -/
def valued : List String := ["config", "steps", "seed", "preset", "width", "height", "print"]

/-- The long name of an option that has a value, from its letter. -/
def longName? : Char → Option String
  | 'c' => some "config"
  | 's' => some "steps"
  | 'p' => some "preset"
  | _ => .none

end Options

/-- **What a command line asks for.** -/
inductive Request
  /-- A run. -/
  | run (options : Options)
  /-- The list of options. -/
  | help
  /-- The version. -/
  | version
deriving DecidableEq, Repr

/-- What one word of a command line comes to. -/
inductive WordMeaning
  /-- Options are set. -/
  | set (options : Options)
  /-- The next word is the value of an option. -/
  | awaits (name : String)
  /-- The rest does not matter. -/
  | done (request : Request)

namespace Request

/-- The meaning of a long option, split at its first equals sign. -/
def long? (o : Options) (name : String) (value : Option String) : Option WordMeaning :=
  match name, value with
  | "lookback", none => if o.lookback then none else some (.set { o with lookback := true })
  | "help", none => some (.done .help)
  | "version", none => some (.done .version)
  | name, some value => (o.set? name value).map .set
  | name, none => if Options.valued.contains name then some (.awaits name) else none

/-- The meaning of an option given by its letter, with the rest of its word. -/
def short? (o : Options) : List Char → Option WordMeaning
  | [] => none
  | 'h' :: _ => some (.done .help)
  | 'V' :: _ => some (.done .version)
  | c :: rest => do
    let name ← Options.longName? c
    match rest with
    | [] => return .awaits name
    | '=' :: value => return .set (← o.set? name (String.ofList value))
    | value => return .set (← o.set? name (String.ofList value))

/-- The meaning of a word that is not the value of an option. -/
def word? (o : Options) (s : String) : Option WordMeaning :=
  match s.toList with
  | '-' :: '-' :: c :: rest =>
    match (c :: rest).span (· ≠ '=') with
    | (name, '=' :: value) => long? o (String.ofList name) (some (String.ofList value))
    | (name, _) => long? o (String.ofList name) none
  | '-' :: c :: rest => short? o (c :: rest)
  | _ => none

/-- The word can be the value of an option: it does not look like an option. -/
def isValue (s : String) : Bool :=
  match s.toList with
  | '-' :: _ :: _ => false
  | _ => true

/-- The request of the words after some options. -/
def parseFrom? (o : Options) : List String → Option Request
  | [] => some (.run o)
  | "--" :: rest => if rest.isEmpty then some (.run o) else none
  | s :: rest =>
    match word? o s, rest with
    | none, _ => none
    | some (.done r), _ => some r
    | some (.set o), rest => parseFrom? o rest
    | some (.awaits name), value :: rest =>
      if isValue value then (o.set? name value).bind fun o => parseFrom? o rest else none
    | some (.awaits _), [] => none

/-- **The request of a command line**, or nothing if its use is wrong. -/
def parse? : List String → Option Request := parseFrom? .none

end Request

/-- The name and the version of the program. -/
def versionLine : String := "ngol 0.0.1"

/-- **The list of options.** -/
def helpLines : List String := [
  "Headless NGOL runner",
  "",
  "Usage: ngol [OPTIONS]",
  "",
  "Options:",
  "  -c, --config <CONFIG>  Config file path (TOML). Defaults apply when omitted",
  "  -s, --steps <STEPS>    Number of generations to run [default: 100]",
  "      --seed <SEED>      RNG seed, overrides the config",
  "  -p, --preset <PRESET>  Threshold preset, overrides the config (e.g. game_of_life, stable_land)",
  "      --width <WIDTH>    Grid width, overrides the config",
  "      --height <HEIGHT>  Grid height, overrides the config",
  "      --lookback         Keep the previous generation for custom rules (three buffers)",
  "      --print <PRINT>    Print the final grid as ASCII, at most this many columns wide",
  "  -h, --help             Print help",
  "  -V, --version          Print version"]

/-! ### Runs -/

/-- **Why a run fails.** -/
inductive RunFault
  /-- The configuration file is at fault. -/
  | file (fault : FileFault)
  /-- The configuration with the options put over it has a fault. -/
  | configuration (fault : ConfigurationFault)
  /-- A step is refused. -/
  | step (refusal : Refusal)
deriving DecidableEq

/-- **The text of a failure.** -/
def RunFault.message : RunFault → String
  | file fault => s!"Error: {fault.causes.1}\n\nCaused by:\n    {fault.causes.2}"
  | configuration fault => s!"Error: {fault.message}"
  | step refusal => s!"Error: {refusal.message}"

/-- **The lines of a report**, of which the first may be followed by how long the run took. -/
structure Report where
  /-- The number of the generation, the live cells, and the mean levels. -/
  summary : String
  /-- The digest of the grid. -/
  digest : String
  /-- The lines of the picture, if one is drawn. -/
  picture : List String
deriving DecidableEq, Repr

/-- All lines of a report. -/
def Report.lines (r : Report) : List String := r.summary :: r.digest :: r.picture

/-- The summary of a simulation. -/
def Simulation.summary (s : Simulation) : String :=
  let stats := s.statistics
  s!"generation {s.generation.toNat}: {stats.live}/{stats.total} live cells, mean rgb " ++
    s!"({fixedFour stats.mean.red}, {fixedFour stats.mean.green}, {fixedFour stats.mean.blue})"

namespace Options

/-- **A configuration with the options put over it.** -/
def apply (o : Options) (c : Configuration) : Configuration where
  grid := {
    c.grid with
    width := o.width.getD c.grid.width
    height := o.height.getD c.grid.height
    buffering := if o.lookback then .lookback else c.grid.buffering }
  thresholds := { c.thresholds with preset := o.preset.or c.thresholds.preset }
  init := c.init
  seed := o.seed.or c.seed
  logInterval := c.logInterval

/-- The configuration of a run, given what is found under the path of its file. -/
def configuration (o : Options) (found : String → FileContent) : Except FileFault Configuration :=
  match o.config with
  | .none => .ok (o.apply .standard)
  | some path => (Configuration.ofFile path (found path)).map o.apply

/-- **The simulation at the end of a run**: set up, seeded with the intensity of its configuration,
and advanced. -/
def simulate (o : Options) (stream : Stream) (found : String → FileContent) :
    Except RunFault Simulation := do
  let c ← (o.configuration found).mapError .file
  let s ← (Simulation.ofConfiguration stream .off c).mapError .configuration
  match (s.randomize c.init).steps (o.steps.getD defaultSteps).toNat with
  | (.ok (), s) => return s
  | (.error refusal, _) => throw (.step refusal)

/-- The report on the simulation at the end of a run. -/
def describeRun (o : Options) (s : Simulation) : Report where
  summary := s.summary
  digest := "digest " ++ s.currentGrid.digest
  picture := match o.print with
    | .none => []
    | some columns => s.currentGrid.lines columns

/-- **The report of a run**, or why it fails. -/
def report (o : Options) (stream : Stream) (found : String → FileContent) :
    Except RunFault Report :=
  (o.simulate stream found).map o.describeRun

end Options

/-! ### Durations -/

/-- A number of parts of a thousand with the digits of a smaller unit after the point, without
trailing zeros. -/
def decimalPart (whole rest places : Nat) : String :=
  let digits := (toString rest).toList
  let padded := List.replicate (places - digits.length) '0' ++ digits
  let kept := (padded.reverse.dropWhile (· = '0')).reverse
  if kept.isEmpty then toString whole else toString whole ++ "." ++ String.ofList kept

/-- **A duration in words**, in the greatest unit of which it has one. -/
def durationText (nanoseconds : Nat) : String :=
  if 1000000000 ≤ nanoseconds then
    decimalPart (nanoseconds / 1000000000) (nanoseconds % 1000000000) 9 ++ "s"
  else if 1000000 ≤ nanoseconds then
    decimalPart (nanoseconds / 1000000) (nanoseconds % 1000000) 6 ++ "ms"
  else if 1000 ≤ nanoseconds then
    decimalPart (nanoseconds / 1000) (nanoseconds % 1000) 3 ++ "µs"
  else toString nanoseconds ++ "ns"

end Moorland
