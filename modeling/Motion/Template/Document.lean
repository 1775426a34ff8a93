import Motion.Param.Document
import Motion.Template.Basic

/-! Templates as documents. A rule has the fields of its motion next to its own, which are read
first. -/
namespace Motion

namespace Attachment

def name : Attachment → String
  | gradient => "gradient"
  | uniform => "uniform"

def decode : Decode.Decoder Attachment :=
  Decode.variant [(gradient.name, gradient), (uniform.name, uniform)]

end Attachment

def optionalEntry {α : Type} (key : String) (toJson : α → Json.Value) (value : Option α) :
    List (String × Json.Value) :=
  value.elim [] fun x => [(key, toJson x)]

namespace MotionSpec

def entries (m : MotionSpec) : List (String × Json.Value) :=
  [("primitive", .string m.primitive), ("params", m.params.toJson)]
    ++ optionalEntry "duration" Param.Value.toJson m.duration
    ++ optionalEntry "phase" Param.Value.toJson m.phase
    ++ optionalEntry "start" Param.Value.toJson m.start

def toJson (m : MotionSpec) : Json.Value := .object m.entries

def shape : Decode.Shape :=
  ⟨"PrimitiveSpec", [.defaulted "primitive", .defaulted "params", .defaulted "duration",
    .defaulted "phase", .defaulted "start"]⟩

def setField (m : MotionSpec) (field : String) (v : Json.Value) : Except Decode.Error MotionSpec :=
  match field with
  | "primitive" => return { m with primitive := ← Decode.string v }
  | "params" => return { m with params := ← Param.Map.decode v }
  | "duration" => return { m with duration := ← Decode.optional Param.Value.decode v }
  | "phase" => return { m with phase := ← Decode.optional Param.Value.decode v }
  | "start" => return { m with start := ← Decode.optional Param.Value.decode v }
  | _ => .ok m

def decode : Decode.Decoder MotionSpec := shape.record setField blank

end MotionSpec

namespace Rule

def toJson (r : Rule) : Json.Value :=
  .object ([("match", .string r.pattern)] ++ r.motion.entries
    ++ [("attachment_behavior", .string r.attachment.name)])

/-- The fields of a rule besides those of its motion. -/
def shape : Decode.Shape :=
  ⟨"PartRule", [.defaulted "match", .defaulted "attachment_behavior"]⟩

def setField (r : Rule) (field : String) (v : Json.Value) : Except Decode.Error Rule :=
  match field with
  | "match" => return { r with pattern := ← Decode.string v }
  | "attachment_behavior" => return { r with attachment := ← Attachment.decode v }
  | _ => .ok r

def decode : Decode.Decoder Rule
  | .object es => do
    let r ← shape.ofEntries setField ⟨"", .blank, .gradient⟩ es
    -- the fields of the motion stand next to those of the rule, and are read after them
    return { r with motion := ← MotionSpec.shape.ofEntries MotionSpec.setField .blank es }
  | v => .error (.wrongType v shape.expected)

end Rule

namespace AdverbOverride

def toJson (o : AdverbOverride) : Json.Value :=
  .object (optionalEntry "speed" .ofDouble o.speed
    ++ optionalEntry "amplitude_scale" .ofDouble o.amplitudeScale)

def shape : Decode.Shape :=
  ⟨"AdverbOverride", [.defaulted "speed", .defaulted "amplitude_scale"]⟩

def setField (o : AdverbOverride) (field : String) (v : Json.Value) :
    Except Decode.Error AdverbOverride :=
  match field with
  | "speed" => return { o with speed := ← Decode.optional Decode.double v }
  | "amplitude_scale" => return { o with amplitudeScale := ← Decode.optional Decode.double v }
  | _ => .ok o

def decode : Decode.Decoder AdverbOverride := shape.record setField ⟨none, none⟩

end AdverbOverride

namespace Defaults

def toJson (d : Defaults) : Json.Value :=
  .object [("speed", .ofDouble d.speed), ("amplitude_scale", .ofDouble d.amplitudeScale),
    ("adverb_map", .object (d.adverbs.entries.map fun e => (e.1, e.2.toJson)))]

def shape : Decode.Shape :=
  ⟨"TemplateDefaults", [.defaulted "speed", .defaulted "amplitude_scale", .defaulted "adverb_map"]⟩

def setField (d : Defaults) (field : String) (v : Json.Value) : Except Decode.Error Defaults :=
  match field with
  | "speed" => return { d with speed := ← Decode.double v }
  | "amplitude_scale" => return { d with amplitudeScale := ← Decode.double v }
  | "adverb_map" =>
    -- of several entries for one adverb the last one counts
    return { d with adverbs := .ofList (← Decode.entries "a map" AdverbOverride.decode v) }
  | _ => .ok d

def decode : Decode.Decoder Defaults := shape.record setField neutral

end Defaults

namespace Template

def toJson (t : Template) : Json.Value :=
  .object ([("template_id", .string t.id), ("anchor_verbs", .array (t.verbs.map .string))]
    ++ optionalEntry "whole_body" MotionSpec.toJson t.wholeBody
    ++ [("part_rules", .array (t.rules.map Rule.toJson))]
    ++ optionalEntry "defaults" Defaults.toJson t.defaults)

def shape : Decode.Shape :=
  ⟨"Template", [.defaulted "template_id", .defaulted "anchor_verbs", .defaulted "whole_body",
    .defaulted "part_rules", .defaulted "defaults"]⟩

def setField (t : Template) (field : String) (v : Json.Value) : Except Decode.Error Template :=
  match field with
  | "template_id" => return { t with id := ← Decode.string v }
  | "anchor_verbs" => return { t with verbs := ← Decode.sequence Decode.string v }
  | "whole_body" => return { t with wholeBody := ← Decode.optional MotionSpec.decode v }
  | "part_rules" => return { t with rules := ← Decode.sequence Rule.decode v }
  | "defaults" => return { t with defaults := ← Decode.optional Defaults.decode v }
  | _ => .ok t

def decode : Decode.Decoder Template := shape.record setField blank

end Template

end Motion
