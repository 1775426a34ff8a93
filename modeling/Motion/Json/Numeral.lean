import Motion.Json.Value
import Motion.Number.Numeral

/-! Numerals in a document. One that is no integer of 64 bits comes from a single multiplication or
division with a power of ten, and can be one step away from the nearest number. -/
namespace Motion.Json
open Motion.Number (isDigit digitValue)

def maxMantissa : Nat := UInt64.size - 1

/-- Appends digits to a mantissa as long as it fits; also the number of digits taken. -/
def extendMantissa (mantissa : Nat) : List Char → Nat × Nat
  | [] => (mantissa, 0)
  | d :: ds =>
    let next := 10 * mantissa + digitValue d
    if next ≤ maxMantissa then
      let (m, used) := extendMantissa next ds
      (m, used + 1)
    else (mantissa, 0)

/-- The number `x · 10 ^ power`, by one operation where the power of ten is a binary64 number. There
is no result beyond the largest number. -/
def scaleByTen (x : Float) (power : Int) : Option Float :=
  if power.natAbs ≤ 308 then
    let ten := Float.ofScientific 1 false power.natAbs
    if 0 ≤ power then
      let y := x * ten
      if y.isInf then none else some y
    else some (x / ten)
  else if x == 0.0 then some x
  else if 0 ≤ power then none
  -- smaller powers are reached in steps of 308
  else scaleByTen (x / Float.ofScientific 1 false 308) (power + 308)
termination_by power.natAbs

def floatOfParts (negative : Bool) (mantissa : Nat) (power : Int) : Option Value :=
  (scaleByTen (Float.ofNat mantissa) power).map fun x =>
    .float .double (if negative then -x else x)

def numeralValue (negative : Bool) (n : Number.Numeral) : Option Value :=
  let (mantissa, used) := extendMantissa 0 n.whole
  let dropped : Int := n.whole.length - used
  match n.fraction, n.exponent with
  | none, none =>
    if 0 < dropped then floatOfParts negative mantissa dropped
    else if !negative then some (.integer mantissa)
    else if mantissa ≠ 0 && mantissa ≤ 1 <<< 63 then some (.integer (-(mantissa : Int)))
    -- no integer keeps the sign of a zero, and none reaches below the smallest one
    else some (.float .double (-(Float.ofNat mantissa)))
  | fraction, exponent =>
    let (mantissa, places) := extendMantissa mantissa (fraction.getD [])
    let power := dropped - places + exponent.elim 0 Number.Exponent.value
    floatOfParts negative mantissa power

end Motion.Json
