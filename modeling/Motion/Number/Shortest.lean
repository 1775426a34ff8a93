import Motion.Number.Binary

/-! The shortest decimal digits that read back as a given binary number: those of the first decimal
grid with a point in the interval of reals that round to it. -/
namespace Motion.Number
open Float.Model (UnpackedFloat Format)

/-- Which way a value goes that lies halfway between two candidates. -/
inductive Tie where
  | toEven
  | up
  deriving DecidableEq, Repr

structure Decimal where
  digits : Nat
  power : Int
  deriving DecidableEq, Repr

/-- A value with the interval that rounds to it: the four are numerators over `scale`. -/
structure Rounding where
  low : Nat
  value : Nat
  high : Nat
  scale : Nat
  /-- Whether the ends round to the value too. -/
  closed : Bool
  deriving Repr

namespace Rounding

/-- The interval of `mantissa · 2 ^ exponent` in a format; numerators count quarters of a step. -/
def of (format : Format) (mantissa : Nat) (exponent : Int) : Rounding :=
  let quarter := exponent - 2
  let up := 1 <<< quarter.toNat
  -- at a power of two the numbers below lie twice as close as those above
  let belowIsFiner :=
    mantissa = 1 <<< format.mantissaBitsWithoutImplicit && format.minExponent < exponent
  { low := (4 * mantissa - if belowIsFiner then 1 else 2) * up
    value := 4 * mantissa * up
    high := (4 * mantissa + 2) * up
    scale := 1 <<< (-quarter).toNat
    closed := mantissa % 2 == 0 }

def contains (r : Rounding) (num den : Nat) : Bool :=
  let x := num * r.scale
  if r.closed then r.low * den ≤ x && x ≤ r.high * den
  else r.low * den < x && x < r.high * den

end Rounding

/-- Number of decimal digits; `0` has one. -/
def digitCount (n : Nat) : Nat := (Nat.toDigits 10 n).length

/-- The power of ten of the leading digit of `num / den`, for positive arguments. -/
def leadingPower (num den : Nat) : Int :=
  if den ≤ num then (digitCount (num / den) : Int) - 1
  else
    let t := digitCount (den / num)
    if num * Nat.pow 10 (t - 1) = den then -((t : Int) - 1) else -(t : Int)

/-- The point of the grid of multiples of `10 ^ power` that is nearest to the value among those that
round to it. -/
def gridPoint? (tie : Tie) (r : Rounding) (power : Int) : Option Nat :=
  let ten := Nat.pow 10 power.toNat
  let tenth := Nat.pow 10 (-power).toNat
  -- the value is `num / den` steps of the grid
  let num := r.value * tenth
  let den := r.scale * ten
  let below := num / den
  let hit := fun (d : Nat) => r.contains (d * ten) tenth
  let twice := 2 * (num % den)
  -- only the two neighbours of the value can be nearest
  match hit below, hit (below + 1) with
  | true, false => some below
  | false, true => some (below + 1)
  | false, false => none
  | true, true =>
    if twice < den then some below
    else if den < twice then some (below + 1)
    else match tie with
      | .up => some (below + 1)
      | .toEven => some (if below % 2 = 0 then below else below + 1)

def stripZeros : Nat → Decimal → Decimal
  | 0, d => d
  | fuel + 1, d =>
    if d.digits % 10 = 0 && d.digits ≠ 0 then stripZeros fuel ⟨d.digits / 10, d.power + 1⟩ else d

/-- Tries the grids of `count`, `count + 1`, … significant digits. -/
def searchGrids (tie : Tie) (r : Rounding) (lead : Int) : Nat → Nat → Decimal
  | 0, _ => ⟨0, 0⟩
  | fuel + 1, count =>
    let power := lead - count + 1
    match gridPoint? tie r power with
    | some d => stripZeros (digitCount d) ⟨d, power⟩
    | none => searchGrids tie r lead fuel (count + 1)

/-- The fewest digits that read back as `mantissa · 2 ^ exponent`, and the nearest of those. -/
def shortest (format : Format) (tie : Tie) (mantissa : Nat) (exponent : Int) : Decimal :=
  let r := Rounding.of format mantissa exponent
  -- seventeen digits always suffice
  searchGrids tie r (leadingPower r.value r.scale) 17 1

end Motion.Number
