import Motion.Number.Binary

/-! Document values. Integers are kept apart from floating-point numbers, and an object keeps its
entries in document order. -/
namespace Motion.Json

/-- The width that a written number has to survive. -/
inductive Precision where
  | single
  | double
  deriving DecidableEq, Repr

inductive Value where
  | null
  | bool (b : Bool)
  | integer (n : Int)
  | float (precision : Precision) (x : Float)
  | string (s : String)
  | array (items : List Value)
  | object (entries : List (String × Value))

namespace Value

/-- A binary64 number; one that is not finite has no numeral and becomes `null`. -/
def ofDouble (x : Float) : Value := if x.isFinite then .float .double x else .null

/-- A binary32 number; one that is not finite has no numeral and becomes `null`. -/
def ofSingle (x : Float32) : Value :=
  let wide := Number.widen x
  if wide.isFinite then .float .single wide else .null

def ofNat (n : Nat) : Value := .integer n

end Value

end Motion.Json
