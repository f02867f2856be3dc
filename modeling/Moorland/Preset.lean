import Moorland.Text.Fold
import Moorland.Thresholds
/-!
# Presets

A **preset** is a pair of thresholds with a name. Names are written in lower case with underscores;
`Moorland.Preset.parse?` reads one with white space around it, in any case, and with hyphens for
underscores.
-/

namespace Moorland

/-- **A named pair of thresholds.** -/
inductive Preset
  /-- From 0.7 to 1. -/
  | squareTrip
  /-- Exactly 1. -/
  | trip
  /-- From 2 to 3. -/
  | gameOfLife
  /-- From 1.9 to 2.9. -/
  | refinedGameOfLife
  /-- From 2.5 to 4. -/
  | gameOfLifeVariant
  /-- From 3 to 5. -/
  | buildingSquares
  /-- From 3 to 7. -/
  | newGameOfLife
  /-- From 4 to 9. -/
  | stableLand
deriving DecidableEq, Repr

namespace Preset

/-- All presets, in the order in which they are listed. -/
def all : List Preset :=
  [squareTrip, trip, gameOfLife, refinedGameOfLife, gameOfLifeVariant, buildingSquares,
    newGameOfLife, stableLand]

/-- The thresholds of a preset. -/
def thresholds : Preset → Thresholds
  | squareTrip => ⟨0.7, 1⟩
  | trip => ⟨1, 1⟩
  | gameOfLife => ⟨2, 3⟩
  | refinedGameOfLife => ⟨1.9, 2.9⟩
  | gameOfLifeVariant => ⟨2.5, 4⟩
  | buildingSquares => ⟨3, 5⟩
  | newGameOfLife => ⟨3, 7⟩
  | stableLand => ⟨4, 9⟩

/-- **The name of a preset.** -/
def name : Preset → String
  | squareTrip => "square_trip"
  | trip => "trip"
  | gameOfLife => "game_of_life"
  | refinedGameOfLife => "refined_game_of_life"
  | gameOfLifeVariant => "game_of_life_variant"
  | buildingSquares => "building_squares"
  | newGameOfLife => "new_game_of_life"
  | stableLand => "stable_land"

/-- The name of a preset in descriptions of values, in capitalised words. -/
def label : Preset → String
  | squareTrip => "SquareTrip"
  | trip => "Trip"
  | gameOfLife => "GameOfLife"
  | refinedGameOfLife => "RefinedGameOfLife"
  | gameOfLifeVariant => "GameOfLifeVariant"
  | buildingSquares => "BuildingSquares"
  | newGameOfLife => "NewGameOfLife"
  | stableLand => "StableLand"

/-- The preset with exactly this name. -/
def ofName? (name : String) : Option Preset := all.find? fun p => p.name = name

theorem ofName?_name (p : Preset) : ofName? p.name = some p := by
  cases p <;> rfl

/-- The form of a text that is compared with names: without white space around it, in lower case,
and with underscores for hyphens. -/
def normalized (text : String) : List Char :=
  (Text.trim text.toList).map fun c => if c = '-' then '_' else Text.foldCase c

/-- **The preset that a text names**, however it is decorated. -/
def parse? (text : String) : Option Preset :=
  all.find? fun p => p.name.toList = normalized text

/-- The name of a preset is read as that preset. -/
theorem parse?_name (p : Preset) : parse? p.name = some p := by
  cases p <;> decide

/-- What is said of a text that names no preset. -/
def unknownMessage (text : String) : String := s!"unknown threshold preset '{text}'"

end Preset

end Moorland
