import Motion.Number.Shortest

/-! How a number is written out, always with the shortest digits that read back. -/
namespace Motion.Number
open Float.Model (UnpackedFloat Format)

structure Style where
  tie : Tie
  /-- Exponents of the leading digit that are written positionally: from the first up to, not
  including, the second. All of them where there is no range. -/
  positional : Option (Int × Int)
  /-- Whether a positional integral value ends in `.0`. -/
  keepsPoint : Bool
  /-- Whether a positive exponent carries its sign. -/
  signsExponent : Bool

namespace Style

/-- Numbers in a document: positional from `0.00001` up to below `10 ^ 16`, and `1e+16` beyond. -/
def json : Style :=
  { tie := .toEven, positional := some (-5, 16), keepsPoint := true, signsExponent := true }

/-- Numbers of single precision in a document: positional from `0.000001` up to below `10 ^ 13`. -/
def jsonSingle : Style := { json with positional := some (-6, 13) }

/-- Numbers inside a message about formula tokens: positional from `0.0001` up to below
`10 ^ 16`. -/
def trace : Style :=
  { tie := .up, positional := some (-4, 16), keepsPoint := true, signsExponent := false }

/-- Numbers inside a validation finding: always positional, without a needless point. -/
def plain : Style :=
  { tie := .up, positional := none, keepsPoint := false, signsExponent := false }

def isPositional (s : Style) (lead : Int) : Bool :=
  s.positional.elim true fun range => range.1 ≤ lead && lead < range.2

def digitsOf (n : Nat) : List Char := Nat.toDigits 10 n

/-- The decimal `digits · 10 ^ power` with the point where its place value needs one. -/
def writePositional (s : Style) (digits : List Char) (power : Int) : List Char :=
  let whole := (digits.length : Int) + power
  if 0 ≤ power then
    digits ++ List.replicate power.toNat '0' ++ (if s.keepsPoint then ".0".toList else [])
  else if 0 < whole then
    digits.take whole.toNat ++ '.' :: digits.drop whole.toNat
  else
    "0.".toList ++ List.replicate (-whole).toNat '0' ++ digits

/-- One digit before the point, and the power of ten of that digit. -/
def writeScientific (s : Style) (digits : List Char) (lead : Int) : List Char :=
  let mantissa := match digits with
    | d :: e :: r => d :: '.' :: e :: r
    | ds => ds
  let mark := if lead < 0 then ['e', '-'] else if s.signsExponent then ['e', '+'] else ['e']
  mantissa ++ mark ++ digitsOf lead.natAbs

def writeDecimal (s : Style) (d : Decimal) : List Char :=
  let digits := digitsOf d.digits
  let lead := d.power + digits.length - 1
  if s.isPositional lead then s.writePositional digits d.power
  else s.writeScientific digits lead

def writeSign : UnpackedFloat.Sign → List Char
  | .negative => ['-']
  | .positive => []

def writeUnpacked (s : Style) (format : Format) : UnpackedFloat → List Char
  | .notANumber => "NaN".toList
  | .infinity sign => writeSign sign ++ "inf".toList
  | .zero sign => writeSign sign ++ (if s.keepsPoint then "0.0".toList else ['0'])
  | .finite sign mantissa exponent _ =>
    writeSign sign ++ s.writeDecimal (shortest format s.tie mantissa exponent)

def write (s : Style) (x : Float) : String :=
  String.ofList (s.writeUnpacked .binary64 x.toModel.unpack)

/-- A binary32 number as text, with the digits that its own precision needs. -/
def writeSingle (s : Style) (x : Float32) : String :=
  String.ofList (s.writeUnpacked .binary32 x.toModel.unpack)

end Style

end Motion.Number
