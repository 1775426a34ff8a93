import Motion.Decode
import Motion.Param.Map

namespace Motion.Param

namespace Value

mutual

def ofJson? : Json.Value → Option Value
  | .integer n => some (number (Float.ofInt n))
  | .float _ x => some (number x)
  | .string s => some (text s)
  | .array items => (itemsOfJson? items).map list
  | _ => none

def itemsOfJson? : List Json.Value → Option (List Value)
  | [] => some []
  | v :: vs =>
    match ofJson? v, itemsOfJson? vs with
    | some x, some xs => some (x :: xs)
    | _, _ => none

end

def decode : Decode.Decoder Value := fun v =>
  match ofJson? v with
  | some x => .ok x
  | none => .error (.noForm "ParamValue")

mutual

def toJson : Value → Json.Value
  | number x => .ofDouble x
  | text s => .string s
  | list items => .array (itemsToJson items)

def itemsToJson : List Value → List Json.Value
  | [] => []
  | v :: vs => v.toJson :: itemsToJson vs

end

end Value

namespace Map

def decode : Decode.Decoder Map := fun v => do
  let expected := "a map of parameter names to numbers, formulas or lists"
  return .ofList (← Decode.entries expected Value.decode v)

def toJson (m : Map) : Json.Value := .object (m.entries.map fun e => (e.1, e.2.toJson))

end Map

end Motion.Param
