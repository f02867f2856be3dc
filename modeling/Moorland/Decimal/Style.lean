import Moorland.Decimal.Shortest
import Moorland.Precision
/-!
# Number styles

A **style** holds the decisions that turn digits into text: which leading exponents are written
positionally, how the sign of any other exponent is written, whether a whole number keeps a
fraction part, which of two equally near digits is taken, and what stands for the numbers that have
no digits.

Four styles are used. `Moorland.Style.plain` is that of messages, `Moorland.Style.pointed` that of
descriptions of values, and the two document formats have `Moorland.Style.json` and
`Moorland.Style.toml`.
-/

namespace Moorland

/-- **A number style.** -/
structure Style where
  /-- The range of exponents of the leading digit, from the first up to below the second, that are
  written positionally; every exponent when absent. -/
  positional : Option (Int × Int)
  /-- What stands before an exponent that is not negative. -/
  exponentPlus : String
  /-- The fraction part of a whole number, with its point. -/
  wholeFraction : String
  /-- Which of two equally near shortest decimals is written. -/
  tie : Decimal.Tie
  /-- The text of a NaN. -/
  nan : String
  /-- The text of positive infinity. -/
  infinity : String
deriving DecidableEq, Repr

namespace Style

/-- The style of messages: always positional, and whole numbers without a point. -/
def plain : Style := ⟨none, "", "", .up, "NaN", "inf"⟩

/-- The style of descriptions: a fraction part always, and an exponent from 10^16 on and below
10^-4. -/
def pointed : Style := ⟨some (-4, 16), "", ".0", .up, "NaN", "inf"⟩

/-- The style of JSON documents: a fraction part, and an exponent with its sign from 10^13 on and
below 10^-6. There is no text for a NaN or an infinity but null. -/
def json : Style := ⟨some (-6, 13), "+", ".0", .even, "null", "null"⟩

/-- The style of TOML documents: always positional, with a fraction part. -/
def toml : Style := ⟨none, "", ".0", .up, "nan", "inf"⟩

/-- **The text of a decimal in a style.** -/
def writeDecimal (style : Style) (d : Decimal) : String :=
  let text := toString d.digits
  let count : Int := text.length
  let point := count + d.exponent
  let inside := match style.positional with
    | none => true
    | some (low, high) => low ≤ point - 1 && point - 1 < high
  if inside || d.digits == 0 then
    if 0 ≤ d.exponent then text ++ "".pushn '0' d.exponent.toNat ++ style.wholeFraction
    else if 0 < point then
      String.ofList (text.toList.take point.toNat) ++ "." ++
        String.ofList (text.toList.drop point.toNat)
    else "0." ++ "".pushn '0' (-point).toNat ++ text
  else
    let fraction := text.toList.drop 1
    String.ofList (text.toList.take 1) ++
      (if fraction.isEmpty then "" else "." ++ String.ofList fraction) ++
      "e" ++ (if 0 ≤ point - 1 then style.exponentPlus else "") ++ toString (point - 1)

end Style

/-- The text of a number from its sign and the text of its size. -/
def withSign (negative : Bool) (body : String) : String :=
  if negative then "-" ++ body else body

/-- The sign bit of a single-precision number; a NaN has none. -/
def isNegativeSingle (v : Float32) : Bool := 0x80000000 ≤ v.toBits

/-- The sign bit of a double-precision number; a NaN has none. -/
def isNegativeDouble (v : Float) : Bool := 0x8000000000000000 ≤ v.toBits

namespace Style

/-- **The text of a single-precision number**, in as few digits as read back at single
precision. -/
def single (style : Style) (v : Float32) : String :=
  if v.isNaN then style.nan
  else
    withSign (isNegativeSingle v) <|
      if v.isFinite then style.writeDecimal (.ofSingle style.tie v) else style.infinity

/-- **The text of a double-precision number**, in as few digits as read back at double
precision. -/
def double (style : Style) (v : Float) : String :=
  if v.isNaN then style.nan
  else
    withSign (isNegativeDouble v) <|
      if v.isFinite then style.writeDecimal (.ofDouble style.tie v) else style.infinity

end Style

end Moorland
