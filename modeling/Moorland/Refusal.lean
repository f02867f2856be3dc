import Moorland.Decimal.Style
import Moorland.Region
/-!
# Refusals

Every operation that can fail fails for one of the causes below, and leaves what it was applied to
as it was unless it says otherwise. A cause carries the numbers that it is about;
`Moorland.Refusal.message` is the only place where it becomes text.
-/

namespace Moorland

/-- **Sizes that do not go together.** -/
inductive SizeMismatch
  /-- A grid needs a cell. -/
  | emptyGrid (width height : Nat)
  /-- The number of cells is not that of a grid of this size. -/
  | cellCount (count width height : Nat)
  /-- One grid cannot be copied over another of a different size. -/
  | copy (fromWidth fromHeight toWidth toHeight : Nat)
  /-- The next generation cannot be written to a grid of a different size. -/
  | write (readWidth readHeight writeWidth writeHeight : Nat)
  /-- The generation before must have the size of the one that is read. -/
  | previous (readWidth readHeight previousWidth previousHeight : Nat)
  /-- A ring has two or three slots. -/
  | slotCount (count : Nat)
  /-- All slots of a ring have the size of the first. -/
  | slot (width height firstWidth firstHeight : Nat)
  /-- A brush that is painted needs a pixel. -/
  | emptyBrush (width height : Nat)
  /-- A region that is captured needs a cell. -/
  | emptyCapture (width height : Nat)
  /-- Any other mismatch, in words. -/
  | described (text : String)
deriving DecidableEq, Repr

/-- The text of a size. -/
def sizeText (width height : Nat) : String := s!"{width}x{height}"

/-- What a size mismatch says. -/
def SizeMismatch.message : SizeMismatch → String
  | .emptyGrid w h => s!"grid must be at least 1x1, got {sizeText w h}"
  | .cellCount n w h => s!"{n} cells cannot fill a {sizeText w h} grid"
  | .copy w h v k => s!"cannot copy {sizeText w h} into {sizeText v k}"
  | .write w h v k => s!"read grid {sizeText w h} vs write grid {sizeText v k}"
  | .previous w h v k => s!"read grid {sizeText w h} vs previous grid {sizeText v k}"
  | .slotCount n => s!"a buffer ring needs 2 or 3 grids, got {n}"
  | .slot w h v k => s!"grid {sizeText w h} does not match {sizeText v k}"
  | .emptyBrush w h => s!"brush must be at least 1x1, got {sizeText w h}"
  | .emptyCapture w h => s!"capture region must be at least 1x1, got {sizeText w h}"
  | .described text => text

/-- **What is wrong with a pair of thresholds.** -/
inductive ThresholdFlaw
  /-- One of the two is infinite or a NaN. -/
  | notFinite
  /-- The lower threshold is below zero. -/
  | negativeLower
  /-- The lower threshold is above the upper one. -/
  | inverted
  /-- The upper threshold is zero. -/
  | zeroUpper
deriving DecidableEq, Repr

/-- What a flaw of thresholds says. -/
def ThresholdFlaw.message : ThresholdFlaw → String
  | .notFinite => "thresholds must be finite"
  | .negativeLower => "under must be non-negative"
  | .inverted => "under exceeds over"
  | .zeroUpper => "over must be positive"

/-- **Why an operation is refused.** -/
inductive Refusal
  /-- A region does not fit a grid of the given size. -/
  | outOfBounds (region : Region) (width height : Nat)
  /-- Sizes do not go together. -/
  | sizeMismatch (cause : SizeMismatch)
  /-- A pair of thresholds cannot drive the rule. -/
  | badThresholds (lower upper : Float32) (flaw : ThresholdFlaw)
deriving DecidableEq

namespace Refusal

/-- The refusal of a single cell outside a grid. -/
def cellOutOfBounds (x y : Int) (width height : Nat) : Refusal :=
  .outOfBounds ⟨x, y, 1, 1⟩ width height

/-- **The text of a refusal.** -/
def message : Refusal → String
  | outOfBounds r w h =>
    s!"Out of bounds: ({r.x}, {r.y}) size {sizeText r.width r.height} does not fit a " ++
      s!"{sizeText w h} grid"
  | sizeMismatch cause => s!"Dimension mismatch: {cause.message}"
  | badThresholds lower upper flaw =>
    s!"Invalid threshold: under={Style.plain.single lower}, over={Style.plain.single upper} " ++
      s!"({flaw.message})"

end Refusal

/-! ### Chains of operations that can fail -/

/-- **A chain goes through** exactly if each of its links does. -/
theorem bind_eq_ok_iff {ε α β : Type} {x : Except ε α} {f : α → Except ε β} {b : β} :
    (x >>= f) = .ok b ↔ ∃ a, x = .ok a ∧ f a = .ok b := by
  rcases x with e | a
  · exact ⟨nofun, fun ⟨_, h, _⟩ => nomatch h⟩
  · exact ⟨fun h => ⟨a, rfl, h⟩, fun ⟨_, h, hf⟩ => by rw [Except.ok.inj h]; exact hf⟩

/-- What is done to the reason of a failure does not touch success. -/
theorem mapError_eq_ok_iff {ε δ α : Type} {x : Except ε α} {f : ε → δ} {a : α} :
    x.mapError f = .ok a ↔ x = .ok a := by
  rcases x with e | b
  · exact ⟨nofun, nofun⟩
  · exact ⟨fun h => congrArg _ (Except.ok.inj h), fun h => congrArg _ (Except.ok.inj h)⟩

/-- An option is left of a success only. -/
theorem toOption_eq_some_iff {ε α : Type} {x : Except ε α} {a : α} :
    x.toOption = some a ↔ x = .ok a := by
  rcases x with e | b
  · exact ⟨nofun, nofun⟩
  · exact ⟨fun h => congrArg _ (Option.some.inj h), fun h => congrArg _ (Except.ok.inj h)⟩

end Moorland
