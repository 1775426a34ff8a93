/-! Binary64 and binary32 numbers, and the way from one to the other by their unpacked forms. -/
namespace Motion.Number
open Float.Model (UnpackedFloat Format)

/-- A finite nonzero value is rounded to the format, ties to even; everything else has no precision
to lose and passes unchanged. -/
def roundTo (format : Format) : UnpackedFloat → UnpackedFloat
  | .finite sign mantissa exponent _ => .round format sign mantissa exponent
  | other => other

/-- The nearest binary32 number; a value beyond the largest one becomes an infinity. -/
def narrow (x : Float) : Float32 :=
  .ofModel (.pack (roundTo .binary32 x.toModel.unpack))

/-- The same number in binary64; every binary32 value has one. -/
def widen (x : Float32) : Float :=
  .ofModel (.pack (roundTo .binary64 x.toModel.unpack))

/-- Pulls a value into the unit interval. NaN is on neither side of an end and stays NaN. -/
def clampUnit (x : Float) : Float :=
  if x < 0.0 then 0.0 else if 1.0 < x then 1.0 else x

def clampUnitSingle (x : Float32) : Float32 :=
  if x < 0.0 then 0.0 else if 1.0 < x then 1.0 else x

/-- The value where it is positive and zero elsewhere, so that NaN and negative zero both give
positive zero. -/
def positivePart (x : Float) : Float :=
  if 0.0 < x then x else 0.0

end Motion.Number
