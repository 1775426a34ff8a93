import Motion.Part.Basic
import Motion.Part.Category
import Motion.Pattern.Match

/-! The parts that a rule applies to: those whose names match its pattern, or else those of the
category that its words suggest, as far as no earlier rule has them. -/
namespace Motion

inductive Targets where
  /-- Names matched. -/
  | exact (parts : List Part)
  /-- No name matched; these are the free parts of a category. -/
  | inferred (category : Part.Category) (parts : List Part)
  | skipped
  deriving Repr

namespace Targets

def parts : Targets → List Part
  | exact parts => parts
  | inferred _ parts => parts
  | skipped => []

def matchExact (pattern : Pattern) (parts : List Part) : List Part :=
  parts.filter fun p => pattern.matchesName p.name

/-- The category that a pattern's text suggests, and its parts with unclaimed ids, if there are
any. -/
def matchInferred? (pattern : String) (parts : List Part) (claimed : List Nat) :
    Option (Part.Category × List Part) := do
  let category ← Part.Category.inferText? pattern
  match parts.filter fun p =>
      !claimed.contains p.id && Part.Category.inferText? p.name == some category with
  | [] => none
  | found => some (category, found)

def resolve (pattern : Pattern) (parts : List Part) (claimed : List Nat) : Targets :=
  match matchExact pattern parts with
  | [] =>
    match matchInferred? pattern.source parts claimed with
    | some (category, found) => inferred category found
    | none => skipped
  | found => exact found

end Targets

end Motion
