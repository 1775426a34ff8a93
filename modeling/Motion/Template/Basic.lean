import Motion.Param.Map
import Motion.Text.Lowercase

/-! Motion templates: a motion for the whole body and rules for the parts whose names they match. -/
namespace Motion

/-- How units follow the part that they are bound to. -/
inductive Attachment where
  /-- The further from the root of the part, the more. -/
  | gradient
  /-- Fully, everywhere. -/
  | uniform
  deriving DecidableEq, Repr

namespace Attachment

/-- The weight at a distance from 0, the root of the part, to 1, its tip. -/
def weight (a : Attachment) (distance : Float32) : Float32 :=
  match a with
  | gradient => Number.clampUnitSingle distance
  | uniform => 1.0

end Attachment

structure MotionSpec where
  primitive : String
  params : Param.Map
  duration : Option Param.Value
  phase : Option Param.Value
  start : Option Param.Value

def MotionSpec.blank : MotionSpec := ⟨"", .empty, none, none, none⟩

/-- A motion for the parts whose names match a pattern. -/
structure Rule where
  pattern : String
  motion : MotionSpec
  attachment : Attachment

structure AdverbOverride where
  speed : Option Float
  amplitudeScale : Option Float

/-- The multipliers of a template, and what adverbs make of them, sorted by adverb. -/
structure Defaults where
  speed : Float
  amplitudeScale : Float
  adverbs : SortedDictionary AdverbOverride

def Defaults.neutral : Defaults := ⟨1.0, 1.0, .empty⟩

structure Template where
  id : String
  verbs : List String
  wholeBody : Option MotionSpec
  rules : List Rule
  defaults : Option Defaults

namespace Template

def blank : Template := ⟨"", [], none, [], none⟩

/-- The trigger words in the form in which they are looked up; blank ones are left out. -/
def triggerWords (t : Template) : List String :=
  (t.verbs.map Text.normalizeWord).filter (· ≠ "")

end Template

end Motion
