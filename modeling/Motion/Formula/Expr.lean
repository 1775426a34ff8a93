import Motion.Formula.Error

/-! Formulas as trees. Variables and binary nodes remember where they stand, since both places may
have to be reported. -/
namespace Motion.Formula

inductive Operator where
  | add
  | sub
  | mul
  | div
  deriving DecidableEq, Repr

inductive Expr where
  | number (x : Float)
  | var (name : String) (offset : Nat)
  | neg (e : Expr)
  | binary (op : Operator) (left right : Expr) (offset : Nat)

/-- What each variable stands for; unbound names stand for nothing. -/
abbrev Variables := String → Option Float

namespace Variables

/-- Variables from a list of names and values; of several values for one name the first counts. -/
def ofList (bindings : List (String × Float)) : Variables := fun name =>
  (bindings.find? (·.1 == name)).map (·.2)

end Variables

/-- The result of an operator at byte `offset`. Division by either zero is refused. -/
def Operator.apply (op : Operator) (offset : Nat) (l r : Float) : Except Error Float :=
  match op with
  | add => .ok (l + r)
  | sub => .ok (l - r)
  | mul => .ok (l * r)
  | div => if r == 0.0 then .error ⟨offset, .divisionByZero⟩ else .ok (l / r)

def Expr.eval (vars : Variables) : Expr → Except Error Float
  | number x => .ok x
  | var name offset =>
    match vars name with
    | some x => .ok x
    | none => .error ⟨offset, .unknownVariable name⟩
  | neg e => do return -(← e.eval vars)
  | binary op left right offset => do
    let l ← left.eval vars
    let r ← right.eval vars
    op.apply offset l r

end Motion.Formula
