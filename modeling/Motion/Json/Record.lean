import Motion.Json.Batch
import Motion.Json.Skip

/-! Reading a record of scalar fields while its text comes in. What belongs to no field is passed
over by its form alone. -/
namespace Motion.Decode.Shape
open Motion.Json

variable {σ : Type}

/-- The entries of an object behind its brace, put into a record of which the fields `seen` have
been read. -/
def readEntries (s : Shape) (set : σ → String → Value → Except Error σ) :
    Nat → Bool → List String → σ → DocumentReader σ
  | 0, _, _, _, cs => .error (.malformed ⟨.endInObject, cs, 1⟩)
  | fuel + 1, first, seen, record, cs =>
    -- every step reads at least one character, so the length of the text bounds the steps
    match nextKey first cs with
    | .error f => .error (.malformed f)
    | .ok (none, r) =>
      match s.missing? seen with
      | some name => .error (.unwanted (.missing name) r 0)
      | none => .ok (record, r)
    | .ok (some key, r) =>
      match s.field? key with
      | none =>
        -- nobody asked for this value, so only its form is judged
        match (readColon r).bind fun (_, r) => skipValue r with
        | .error f => .error (.malformed f)
        | .ok (_, r) => readEntries s set fuel false seen record r
      | some name =>
        -- a second value for a field is refused before it is read
        if seen.contains name then .error (.unwanted (.duplicate name) (skipSpace r) 1)
        else
          match readColon r with
          | .error f => .error (.malformed f)
          | .ok (_, r) =>
            match readScalar .stream (set record name) r with
            | .error e => .error e
            | .ok (record, r) => readEntries s set fuel false (name :: seen) record r

def readArrayEnd : Reader Unit := fun cs =>
  match skipSpace cs with
  | [] => failLooking .endInArray []
  | ']' :: r => .ok ((), r)
  | ',' :: r =>
    match skipSpace r with
    | ']' :: r => failLooking .trailingComma (']' :: r)
    | r => failLooking .trailingCharacters r
  | r => failLooking .trailingCharacters r

/-- The items of an array behind its bracket, put into a record as the fields still to come in
order; `first` says that none has been read yet. -/
def readItems (s : Shape) (set : σ → String → Value → Except Error σ) :
    List Field → Bool → σ → DocumentReader σ
  | [], _, record, cs =>
    match readArrayEnd cs with
    | .error f => .error (.malformed f)
    | .ok (_, r) => .ok (record, r)
  | field :: fields, first, record, cs =>
    match nextItem first cs with
    | .error f => .error (.malformed f)
    | .ok (false, r) =>
      match s.shortage? (s.fields.length - (field :: fields).length) with
      | some e => .error (.unwanted e r 0)
      | none => .ok (record, r)
    | .ok (true, r) =>
      match readScalar .stream (set record field.name) r with
      | .error e => .error e
      | .ok (record, r) => readItems s set fields false record r

def read (s : Shape) (set : σ → String → Value → Except Error σ) (blank : σ) : DocumentReader σ :=
  fun cs =>
    match skipSpace cs with
    | '{' :: r => s.readEntries set (r.length + 1) true [] blank r
    | '[' :: r => s.readItems set s.fields true blank r
    | r => readScalar .stream (fun v => .error (.wrongType v s.expected)) r

end Motion.Decode.Shape
