import Motion.Program.Basic
import Motion.Template.Document

/-! Programs as documents. A table with fewer entries than there are slots is filled up; one with
more is refused. -/
namespace Motion

namespace Assignment

def toJson (a : Assignment) : Json.Value :=
  .object [("primitive_id", .ofNat a.primitive.toNat),
    ("params", .array (a.params.toList.map .ofSingle)), ("phase", .ofSingle a.phase),
    ("start_time", .ofSingle a.start), ("duration", .ofSingle a.duration),
    ("active", .bool a.active), ("attachment", .string a.attachment.name)]

def shape : Decode.Shape :=
  ⟨"PartMotionData", [.needed "primitive_id", .needed "params", .needed "phase",
    .needed "start_time", .needed "duration", .needed "active", .defaulted "attachment"]⟩

def setField (a : Assignment) (field : String) (v : Json.Value) : Except Decode.Error Assignment :=
  match field with
  | "primitive_id" => return { a with primitive := (← Decode.natural 8 v).toUInt8 }
  | "params" => return { a with params := ← Decode.vector paramCount Decode.single v }
  | "phase" => return { a with phase := ← Decode.single v }
  | "start_time" => return { a with start := ← Decode.single v }
  | "duration" => return { a with duration := ← Decode.single v }
  | "active" => return { a with active := ← Decode.bool v }
  | "attachment" => return { a with attachment := ← Attachment.decode v }
  | _ => .ok a

def decode : Decode.Decoder Assignment :=
  shape.record setField ⟨0, Vector.replicate paramCount 0.0, 0.0, 0.0, 0.0, false, .gradient⟩

end Assignment

namespace Program

def toJson (p : Program) : Json.Value :=
  .object [("whole_body", p.wholeBody.toJson),
    ("parts", .array (p.slots.toList.map fun entry => entry.elim .null Assignment.toJson)),
    ("speed", .ofSingle p.speed), ("amplitude_scale", .ofSingle p.amplitudeScale)]

/-- A table of slots; entries that are not given are empty. -/
def decodeSlots : Decode.Decoder (Vector (Option Assignment) tableSize) := fun v => do
  let entries ← Decode.sequence (Decode.optional Assignment.decode) v
  if tableSize < entries.length then
    .error (.badLength entries.length s!"at most {tableSize} part slots")
  else return Vector.ofFn fun slot => (entries[slot.val]?).join

def shape : Decode.Shape :=
  ⟨"MotionProgram", [.needed "whole_body", .needed "parts", .needed "speed",
    .needed "amplitude_scale"]⟩

def setField (p : Program) (field : String) (v : Json.Value) : Except Decode.Error Program :=
  match field with
  | "whole_body" => return { p with wholeBody := ← Assignment.decode v }
  | "parts" => return { p with slots := ← decodeSlots v }
  | "speed" => return { p with speed := ← Decode.single v }
  | "amplitude_scale" => return { p with amplitudeScale := ← Decode.single v }
  | _ => .ok p

def decode : Decode.Decoder Program :=
  shape.record setField (.new (.new .oscillate []) 0.0 0.0)

end Program

end Motion
