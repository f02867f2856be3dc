/-!
# Between single and double precision

`Moorland.widen` takes a single-precision number to the double-precision number of the same value,
and `Moorland.narrow` takes a double-precision number to the nearest single-precision one, a tie
going to the even significand. Both keep signs, also those of zeros and infinities, and take NaN to
NaN.

A number is unpacked into sign, significand and exponent, rounded to the other format in exact
integer arithmetic, and packed again, so that nothing here depends on how a processor converts.
-/

namespace Moorland

open Float.Model (Format UnpackedFloat)

/-- **Round an unpacked number to a format.** Zeros, infinities and NaN are in every format. -/
def roundTo (format : Format) : UnpackedFloat → UnpackedFloat
  | .finite sign significand exponent _ => .round format sign significand exponent
  | other => other

/-- **Widening**: the double-precision number of the same value. -/
def widen (v : Float32) : Float := .ofModel (.pack (roundTo .binary64 v.toModel.unpack))

/-- **Narrowing**: the single-precision number nearest to a double-precision one. -/
def narrow (v : Float) : Float32 := .ofModel (.pack (roundTo .binary32 v.toModel.unpack))

end Moorland
