import Motion.Formula.Evaluate

/-! Parameter values: a number, a text that stands for a number, or a list of values. -/
namespace Motion.Param

inductive Value where
  | number (x : Float)
  | text (s : String)
  | list (items : List Value)

namespace Value

def text? : Value → Option String
  | text s => some s
  | _ => none

def resolveText (vars : Formula.Variables) (s : String) : Except Formula.Error Float :=
  match Formula.stripDelimiters? s.toList with
  | some body => Formula.evaluateChars vars body
  | none =>
    match Number.readFloat? (Text.trim s.toList) with
    | some x => .ok x
    | none => .error ⟨0, .notNumber s⟩

def resolve (vars : Formula.Variables) : Value → Except Formula.Error Float
  | number x => .ok x
  | text s => resolveText vars s
  -- a list is not one number, however many it holds
  | list _ => .error ⟨0, .listValue⟩

/-- Numbers found so far, and the failure that stopped the search if there was one. -/
structure Resolution where
  found : List Float
  failure? : Option Formula.Error

def Resolution.push (out : List Float) : Except Formula.Error Float → Resolution
  | .ok x => ⟨out ++ [x], none⟩
  | .error e => ⟨out, some e⟩

mutual

/-- Appends the numbers of a value to `out`, from left to right, up to the first failure. -/
def resolveInto (vars : Formula.Variables) (out : List Float) : Value → Resolution
  | list items => resolveItems vars out items
  | number x => .push out (resolve vars (number x))
  | text s => .push out (resolve vars (text s))

def resolveItems (vars : Formula.Variables) (out : List Float) : List Value → Resolution
  | [] => ⟨out, none⟩
  | v :: vs =>
    let r := resolveInto vars out v
    -- the first failure stops the search, and what comes behind it is not looked at
    match r.failure? with
    | some e => ⟨r.found, some e⟩
    | none => resolveItems vars r.found vs

end

end Value

end Motion.Param
