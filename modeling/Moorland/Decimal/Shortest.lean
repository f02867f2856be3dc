/-!
# The shortest decimal that reads back

A **decimal** is a natural number times a power of ten. Reading one rounds it to the nearest
floating-point number (`Moorland.Decimal.toSingle`, `Moorland.Decimal.toDouble`); writing a
floating-point number goes the other way, and picks among the decimals that read back as that
number one with **as few digits as possible, and of those the nearest**
(`Moorland.Decimal.ofSingle`, `Moorland.Decimal.ofDouble`).

The search takes the decimal grids from coarse to fine and on each looks at the two neighbours of
the value, in exact integer arithmetic. Two neighbours may both read back and lie equally far; the
`Moorland.Decimal.Tie` says which one is taken.
-/

namespace Moorland

/-- **A decimal**: a natural number times a power of ten. -/
structure Decimal where
  /-- The digits, read as a natural number. -/
  digits : Nat
  /-- The power of ten that the last digit counts. -/
  exponent : Int
deriving DecidableEq, Repr

namespace Decimal

/-! ### Reading -/

/-- The single-precision number nearest to a decimal. -/
def toSingle (d : Decimal) : Float32 :=
  Float32.ofScientific d.digits (d.exponent < 0) d.exponent.natAbs

/-- The double-precision number nearest to a decimal. -/
def toDouble (d : Decimal) : Float :=
  Float.ofScientific d.digits (d.exponent < 0) d.exponent.natAbs

/-! ### Positive rationals on a decimal grid -/

/-- Which of two equally near neighbours on a grid is taken. -/
inductive Tie
  /-- The greater one. -/
  | up
  /-- The one whose last digit is even. -/
  | even
deriving DecidableEq, Repr

/-- **A positive rational**: a quotient of natural numbers. -/
structure Ratio where
  /-- The numerator. -/
  num : Nat
  /-- The denominator. -/
  den : Nat
deriving DecidableEq, Repr

namespace Ratio

/-- The value of a significand and a binary exponent. -/
def ofDyadic (significand : Nat) (exponent : Int) : Ratio :=
  if 0 ≤ exponent then ⟨significand <<< exponent.toNat, 1⟩
  else ⟨significand, 1 <<< (-exponent).toNat⟩

/-- The rational divided by a power of ten. -/
def dividePow (v : Ratio) (x : Int) : Ratio :=
  if 0 ≤ x then ⟨v.num, v.den * Nat.pow 10 x.toNat⟩ else ⟨v.num * Nat.pow 10 (-x).toNat, v.den⟩

/-- **The decimal exponent of the leading digit**: the greatest power of ten that is at most `v`.
The binary lengths leave four candidates, which are tried from the greatest down. -/
def leadingExponent (v : Ratio) : Int :=
  let e := (((v.num.log2 : Int) - v.den.log2 - 1) * 30103).fdiv 100000 - 1
  let reaches (x : Int) : Bool := let u := v.dividePow x; u.den ≤ u.num
  if reaches (e + 3) then e + 3
  else if reaches (e + 2) then e + 2
  else if reaches (e + 1) then e + 1
  else e

end Ratio

/-! ### Writing -/

/-- **The neighbour of `v` on the grid of the power `x`** that passes the test, the nearer one if
both do. A value on the grid is its own only neighbour. -/
def onGrid (tie : Tie) (reads : Decimal → Bool) (v : Ratio) (x : Int) : Option Decimal :=
  let u := v.dividePow x
  let below := u.num / u.den
  let rest := u.num % u.den
  let lower : Decimal := ⟨below, x⟩
  let upper : Decimal := ⟨below + 1, x⟩
  if rest = 0 then if reads lower then some lower else none
  else if reads lower then
    if reads upper then
      if 2 * rest < u.den then some lower
      else if u.den < 2 * rest then some upper
      else
        match tie with
        | .up => some upper
        | .even => some (if below % 2 = 0 then lower else upper)
    else some lower
  else if reads upper then some upper
  else none

/-- Try at most `count` grids, from the power `x` down, and fall back on a given decimal. -/
def search (tie : Tie) (reads : Decimal → Bool) (v : Ratio) (fallback : Decimal) :
    (count : Nat) → (x : Int) → Decimal
  | 0, _ => fallback
  | count + 1, x =>
    match onGrid tie reads v x with
    | some d => d
    | none => search tie reads v fallback count (x - 1)

/-- The decimal without trailing zeros, of which at most `count` are dropped. -/
def trim (d : Decimal) : (count : Nat) → Decimal
  | 0 => d
  | count + 1 =>
    if d.digits ≠ 0 ∧ d.digits % 10 = 0 then trim ⟨d.digits / 10, d.exponent + 1⟩ count else d

/-- The decimal that equals a significand times a power of two. -/
def exact (significand : Nat) (exponent : Int) : Decimal :=
  if 0 ≤ exponent then ⟨significand <<< exponent.toNat, 0⟩
  else ⟨significand * Nat.pow 5 (-exponent).toNat, exponent⟩

/-- **The shortest decimal that passes the test**, near a significand times a power of two.
Seventeen digits tell every double-precision number from its neighbours; the exact decimal stands
behind them. -/
def shortest (tie : Tie) (reads : Decimal → Bool) (significand : Nat) (exponent : Int) : Decimal :=
  let v := Ratio.ofDyadic significand exponent
  trim (search tie reads v (exact significand exponent) 17 v.leadingExponent) 1

/-- The digits of a single-precision number without its sign; zero for what is not finite. -/
def ofSingle (tie : Tie) (v : Float32) : Decimal :=
  match v.toModel.unpack with
  | .finite _ m e _ => shortest tie (fun d => d.toSingle == v.abs) m e
  | _ => ⟨0, 0⟩

/-- The digits of a double-precision number without its sign; zero for what is not finite. -/
def ofDouble (tie : Tie) (v : Float) : Decimal :=
  match v.toModel.unpack with
  | .finite _ m e _ => shortest tie (fun d => d.toDouble == v.abs) m e
  | _ => ⟨0, 0⟩

end Decimal

end Moorland
