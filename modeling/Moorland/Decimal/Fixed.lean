import Moorland.Decimal.Style
/-!
# Numbers with four places

`Moorland.fixedFour` writes the **exact** value of a single-precision number rounded to four places.
No shorter decimal stands between the value and the text, so a tie is a true tie, and goes to the
even digit.
-/

namespace Moorland

/-- **The quotient rounded to nearest**, a tie going to the even neighbour. -/
def roundDiv (num den : Nat) : Nat :=
  let k := num / den
  let rest := num % den
  if den < 2 * rest ∨ (den = 2 * rest ∧ k % 2 = 1) then k + 1 else k

/-- **A single-precision number with four places.** -/
def fixedFour (v : Float32) : String :=
  match v.toModel.unpack with
  | .finite _ m e _ =>
    let u := (Decimal.Ratio.ofDyadic m e).dividePow (-4)
    let n := roundDiv u.num u.den
    let fraction := toString (n % 10000)
    withSign (isNegativeSingle v) <|
      toString (n / 10000) ++ "." ++ "".pushn '0' (4 - fraction.length) ++ fraction
  | .zero _ => withSign (isNegativeSingle v) "0.0000"
  | _ => Style.plain.single v

end Moorland
