import Motion.Decode
import Motion.Template.Document

/-! The multipliers of a compilation: those of the template, then what an adverb replaces, then what
the caller asks for. -/
namespace Motion

/-- What a caller changes about a template. -/
structure Overrides where
  adverb : Option String
  speed : Option Float
  amplitudeScale : Option Float

namespace Overrides

def none : Overrides := ⟨.none, .none, .none⟩

def ofAdverb (adverb : String) : Overrides := { Overrides.none with adverb := some adverb }

def shape : Decode.Shape :=
  ⟨"ParseOverrides", [.defaulted "adverb", .defaulted "speed", .defaulted "amplitude_scale"]⟩

def setField (o : Overrides) (field : String) (v : Json.Value) : Except Decode.Error Overrides :=
  match field with
  | "adverb" => return { o with adverb := ← Decode.optional Decode.string v }
  | "speed" => return { o with speed := ← Decode.optional Decode.double v }
  | "amplitude_scale" => return { o with amplitudeScale := ← Decode.optional Decode.double v }
  | _ => .ok o

def decode : Decode.Decoder Overrides := shape.record setField Overrides.none

end Overrides

structure Globals where
  speed : Float
  amplitudeScale : Float

/-- What the adverb map says about an adverb: the first entry, by adverb, with the same normal
form. -/
def Defaults.adverb? (d : Defaults) (adverb : String) : Option AdverbOverride :=
  (d.adverbs.entries.find? fun e => Text.normalizeWord e.1 == Text.normalizeWord adverb).map (·.2)

def Globals.resolve (t : Template) (o : Overrides) : Globals :=
  let d := t.defaults.getD .neutral
  -- an unknown adverb changes nothing
  let a := (o.adverb.bind d.adverb?).getD ⟨none, none⟩
  { speed := o.speed.getD (a.speed.getD d.speed)
    amplitudeScale := o.amplitudeScale.getD (a.amplitudeScale.getD d.amplitudeScale) }

/-- What the formulas of a motion can name: the multipliers, the position of a part among those that
its rule matched, and their number. -/
structure MotionVars where
  speed : Float
  amplitudeScale : Float
  index : Float
  count : Float

def MotionVars.lookup (v : MotionVars) : Formula.Variables
  | "speed" => some v.speed
  | "amplitudeScale" => some v.amplitudeScale
  | "index" => some v.index
  | "count" => some v.count
  | _ => none

end Motion
