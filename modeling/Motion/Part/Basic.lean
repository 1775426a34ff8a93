import Motion.Issue
import Motion.Json.Record

/-! The named parts of the object to be animated. Ids from 1 to 32 address a slot of a motion
program. -/
namespace Motion

def slotCount : Nat := 32

structure Part where
  id : Nat
  name : String
  parent : Option Nat
  deriving DecidableEq, Repr

namespace Part

def isEncodable (p : Part) : Bool := 1 ≤ p.id && p.id ≤ slotCount

/-- Parts with the given names and the ids 1, 2, … in order. -/
def ofNames (names : List String) : List Part :=
  names.zipIdx.map fun (name, i) => ⟨i + 1, name, none⟩

def find? (parts : List Part) (id : Nat) : Option Part := List.find? (·.id == id) parts

def checkId (i : Nat) (p : Part) : List Issue :=
  if p.id = 0 then
    [.warning none [.index i] ("part '" ++ p.name ++ "' uses reserved id 0")]
  else if !p.isEncodable then
    [.warning none [.index i]
      s!"part '{p.name}' id {p.id} exceeds the {slotCount} addressable slots"]
  else []

def checkRepeated (i : Nat) (earlier : List Part) (p : Part) : List Issue :=
  if earlier.any (·.id == p.id) then
    [.warning none [.index i] s!"duplicate part id {p.id}"]
  else []

def checkParent (i : Nat) (parts : List Part) (p : Part) : List Issue :=
  match p.parent with
  | some parent =>
    if parts.any (·.id == parent) then []
    else [.warning none [.index i, .key "parent"] s!"parent id {parent} does not name a part"]
  | none => []

/-- The findings about a list of parts, in list order. All are warnings. -/
def check (parts : List Part) : List Issue :=
  parts.zipIdx.flatMap fun (p, i) =>
    checkId i p ++ checkRepeated i (parts.take i) p ++ checkParent i parts p

def toJson (p : Part) : Json.Value :=
  .object ([("id", .ofNat p.id), ("name", .string p.name)]
    ++ p.parent.elim [] fun parent => [("parent", .ofNat parent)])

def listToJson (parts : List Part) : Json.Value := .array (parts.map toJson)

def shape : Decode.Shape :=
  ⟨"PartInfo", [.needed "id", .needed "name", ⟨"parent", false, some "parent_id"⟩]⟩

def setField (p : Part) (field : String) (v : Json.Value) : Except Decode.Error Part :=
  match field with
  | "id" => return { p with id := ← Decode.natural 32 v }
  | "name" => return { p with name := ← Decode.string v }
  | "parent" => return { p with parent := ← Decode.optional (Decode.natural 32) v }
  | _ => .ok p

def decode : Decode.Decoder Part := shape.record setField ⟨0, "", none⟩

/-- Reads one part off a text that comes in character by character. -/
def read : Json.DocumentReader Part := shape.read setField ⟨0, "", none⟩

def decodeList : Decode.Decoder (List Part) := Decode.sequence decode

end Part

end Motion
