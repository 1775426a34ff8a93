import Motion.Json.Writer
import Motion.Text.Quoted

/-! Decoding document values. Records are read entry by entry, so the first faulty entry is the one
reported. -/
namespace Motion.Decode
open Motion.Json (Value)

inductive Error where
  | wrongType (found : Value) (expected : String)
  | outOfRange (found : Int) (expected : String)
  /-- A variant written as an object needs exactly one key. -/
  | notSingleKey
  | badLength (length : Nat) (expected : String)
  | missing (field : String)
  | duplicate (field : String)
  | unknownVariant (found : String) (known : List String)
  | noForm (type : String)

/-- How a message names a value that was found. -/
def describe : Value → String
  | .null => "null"
  | .bool b => "boolean `" ++ Json.writeBool b ++ "`"
  | .integer n => "integer `" ++ Json.writeInteger n ++ "`"
  | .float _ x => "floating point `" ++ Json.writeFloat .double x ++ "`"
  | .string s => "string " ++ Text.quoted s
  | .array _ => "sequence"
  | .object _ => "map"

namespace Error

def message : Error → String
  | wrongType found expected => "invalid type: " ++ describe found ++ ", expected " ++ expected
  | outOfRange found expected =>
    "invalid value: integer `" ++ Json.writeInteger found ++ "`, expected " ++ expected
  | notSingleKey => "invalid value: map, expected map with a single key"
  | badLength length expected => "invalid length " ++ toString length ++ ", expected " ++ expected
  | missing field => "missing field `" ++ field ++ "`"
  | duplicate field => "duplicate field `" ++ field ++ "`"
  | unknownVariant found known =>
    "unknown variant `" ++ found ++ "`, expected "
      ++ " or ".intercalate (known.map fun k => "`" ++ k ++ "`")
  | noForm type => "data did not match any variant of untagged enum " ++ type

end Error

abbrev Decoder (α : Type) := Value → Except Error α

def string : Decoder String
  | .string s => .ok s
  | v => .error (.wrongType v "a string")

def bool : Decoder Bool
  | .bool b => .ok b
  | v => .error (.wrongType v "a boolean")

def double : Decoder Float
  | .integer n => .ok (Float.ofInt n)
  | .float _ x => .ok x
  | v => .error (.wrongType v "f64")

def single : Decoder Float32
  -- rounded once, from the exact value
  | .integer n => .ok (Float32.ofInt n)
  | .float _ x => .ok (Number.narrow x)
  | v => .error (.wrongType v "f32")

/-- A natural number of at most `bits` bits. -/
def natural (bits : Nat) : Decoder Nat
  | .integer n =>
    if 0 ≤ n && n.toNat < 1 <<< bits then .ok n.toNat else .error (.outOfRange n s!"u{bits}")
  | v => .error (.wrongType v s!"u{bits}")

def optional {α : Type} (item : Decoder α) : Decoder (Option α)
  | .null => .ok none
  | v => (item v).map some

def sequence {α : Type} (item : Decoder α) : Decoder (List α)
  | .array vs => vs.mapM item
  | v => .error (.wrongType v "a sequence")

def tooLong (length : Nat) : Error := .badLength length "fewer elements in array"

def vector {α : Type} (n : Nat) (item : Decoder α) : Decoder (Vector α n)
  | .array vs => do
    -- the items are judged before their number
    let items ← (vs.take n).mapM item
    if h : items.length = n then
      if n < vs.length then .error (tooLong vs.length)
      else return ⟨items.toArray, by simpa using h⟩
    else .error (.badLength vs.length s!"an array of length {n}")
  | v => .error (.wrongType v s!"an array of length {n}")

def entries {α : Type} (expected : String) (item : Decoder α) : Decoder (List (String × α))
  | .object es => es.mapM fun e => return (e.1, ← item e.2)
  | v => .error (.wrongType v expected)

/-- A variant without content: its name, or an object with the name as the only key and `null`. -/
def variant {α : Type} (variants : List (String × α)) : Decoder α
  | .string name => named name none
  | .object [(name, content)] => named name (some content)
  | .object _ => .error .notSingleKey
  | v => .error (.wrongType v "string or map")
where
  named (name : String) (content : Option Value) : Except Error α :=
    match variants.find? (·.1 == name), content with
    | none, _ => .error (.unknownVariant name (variants.map (·.1)))
    | some (_, a), none => .ok a
    | some (_, a), some .null => .ok a
    | some _, some v => .error (.wrongType v "unit")

structure Field where
  name : String
  /-- Whether a record without it is refused. -/
  required : Bool
  /-- Another key for the same field. -/
  alias? : Option String

def Field.needed (name : String) : Field := ⟨name, true, none⟩

def Field.defaulted (name : String) : Field := ⟨name, false, none⟩

/-- The name of a record and its fields in declared order. -/
structure Shape where
  name : String
  fields : List Field

namespace Shape

def field? (s : Shape) (key : String) : Option String :=
  (s.fields.find? fun f => f.name == key || f.alias? == some key).map (·.name)

def expected (s : Shape) : String := "struct " ++ s.name

def expectedItems (s : Shape) : String :=
  let n := s.fields.length
  s!"struct {s.name} with {n} element" ++ (if n = 1 then "" else "s")

/-- Reads one field after the other into a record that starts out blank; also the fields read. -/
def readFields {σ : Type} (s : Shape) (set : σ → String → Value → Except Error σ) :
    List String → σ → List (String × Value) → Except Error (List String × σ)
  | seen, record, [] => .ok (seen, record)
  | seen, record, (key, v) :: rest =>
    match s.field? key with
    -- a key of no field is passed over
    | none => readFields s set seen record rest
    | some name =>
      if seen.contains name then .error (.duplicate name)
      else do readFields s set (name :: seen) (← set record name v) rest

/-- The first field that a record cannot do without and that is not among those read. -/
def missing? (s : Shape) (seen : List String) : Option String :=
  (s.fields.find? fun f => f.required && !seen.contains f.name).map (·.name)

/-- What is wrong with an array of so many items that are too few for a record. -/
def shortage? (s : Shape) (length : Nat) : Option Error :=
  ((s.fields.drop length).findIdx? (·.required)).map fun i =>
    .badLength (length + i) s.expectedItems

def ofEntries {σ : Type} (s : Shape) (set : σ → String → Value → Except Error σ) (blank : σ)
    (es : List (String × Value)) : Except Error σ := do
  let (seen, record) ← s.readFields set [] blank es
  match s.missing? seen with
  | some name => .error (.missing name)
  | none => return record

/-- A record from the items of an array, which stand for its fields in order. -/
def ofItems {σ : Type} (s : Shape) (set : σ → String → Value → Except Error σ) (blank : σ)
    (vs : List Value) : Except Error σ := do
  let (_, record) ← s.readFields set [] blank ((s.fields.map (·.name)).zip vs)
  match s.shortage? vs.length with
  | some e => .error e
  | none => if s.fields.length < vs.length then .error (tooLong vs.length) else return record

def record {σ : Type} (s : Shape) (set : σ → String → Value → Except Error σ) (blank : σ) :
    Decoder σ
  | .object es => s.ofEntries set blank es
  | .array vs => s.ofItems set blank vs
  | v => .error (.wrongType v s.expected)

end Shape

end Motion.Decode
