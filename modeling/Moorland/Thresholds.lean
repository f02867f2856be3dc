import Moorland.Cell
import Moorland.Refusal
/-!
# Thresholds

A pair of **thresholds** turns the sum over a neighbourhood into the next level of a channel. With
the midpoint of the pair as divisor:

| sum | next level |
|---|---|
| below the lower threshold | zero: too few neighbours |
| above the upper threshold | zero: too many neighbours |
| between them, both ends included | the sum over the midpoint |

and the level is clamped to the unit interval. `Moorland.Thresholds.check` says which pairs are
accepted and `Moorland.Thresholds.channel` is the table.
-/

namespace Moorland

/-- **A pair of thresholds**, shared by all channels. -/
structure Thresholds where
  /-- The least sum that reproduces. -/
  lower : Float32
  /-- The greatest sum that reproduces. -/
  upper : Float32
deriving DecidableEq

namespace Thresholds

/-- The first flaw of a pair of thresholds, if it has one. A lower threshold below zero would act
like zero on sums, which are never negative, and only shrink the divisor; an upper threshold of
zero would make the divisor zero. -/
def flaw? (lower upper : Float32) : Option ThresholdFlaw :=
  if !lower.isFinite || !upper.isFinite then some .notFinite
  else if lower < 0 then some .negativeLower
  else if upper < lower then some .inverted
  else if upper ≤ 0 then some .zeroUpper
  else none

/-- **The checked pair**, or the refusal that names its flaw. -/
def check (lower upper : Float32) : Except Refusal Thresholds :=
  match flaw? lower upper with
  | some flaw => .error (.badThresholds lower upper flaw)
  | none => .ok ⟨lower, upper⟩

/-- A pair is accepted exactly if it has no flaw, and then it is kept as it is. -/
theorem check_eq_ok_iff {lower upper : Float32} {t : Thresholds} :
    check lower upper = .ok t ↔ flaw? lower upper = none ∧ (⟨lower, upper⟩ : Thresholds) = t := by
  rw [check]
  split <;> simp [*]

/-- **The midpoint**, by which a sum in the band is divided. -/
def midpoint (t : Thresholds) : Float32 := (t.lower + t.upper) / 2

/-- **The next level of a channel** from the sum over its neighbourhood. A NaN is in no part of the
table and gives zero. -/
def channel (t : Thresholds) (sum : Float32) : Float32 :=
  unitClamp <|
    if sum < t.lower || t.upper < sum then 0
    else if t.lower ≤ sum && sum ≤ t.upper then sum / t.midpoint
    else 0

/-- **The next cell** from the sums over its neighbourhood, each channel by itself. -/
def transition (t : Thresholds) (sums : Cell) : Cell := sums.map t.channel

/-- The description of a pair of thresholds. -/
def describe (t : Thresholds) : String :=
  "Thresholds \x7b under: " ++ Style.pointed.single t.lower ++ ", over: " ++
    Style.pointed.single t.upper ++ " \x7d"

end Thresholds

end Moorland
