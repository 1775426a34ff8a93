import Motion.Decode

/-! Findings about documents: errors, which make the checked item unusable, and warnings. -/
namespace Motion

inductive Severity where
  | error
  | warning
  deriving DecidableEq, Repr

namespace Severity

def name : Severity → String
  | error => "error"
  | warning => "warning"

def decode : Decode.Decoder Severity :=
  Decode.variant [(error.name, error), (warning.name, warning)]

end Severity

inductive PathStep where
  | key (name : String)
  | index (i : Nat)
  deriving DecidableEq, Repr

abbrev Path := List PathStep

namespace Path

def renderStep : PathStep → String
  | .key name => "." ++ name
  | .index i => "[" ++ toString i ++ "]"

/-- The path as text; the root is a dollar sign. -/
def render (p : Path) : String := "$" ++ String.join (p.map renderStep)

end Path

structure Issue where
  severity : Severity
  templateId : Option String
  path : String
  message : String
  deriving DecidableEq, Repr

namespace Issue

def located (severity : Severity) (templateId : Option String) (path : Path) (message : String) :
    Issue :=
  -- an empty id names no template
  ⟨severity, templateId.filter (· ≠ ""), path.render, message⟩

def error (templateId : Option String) (path : Path) (message : String) : Issue :=
  located .error templateId path message

def warning (templateId : Option String) (path : Path) (message : String) : Issue :=
  located .warning templateId path message

def isError (i : Issue) : Bool := i.severity = .error

def render (i : Issue) : String :=
  i.severity.name ++ i.templateId.elim "" (fun id => " [" ++ id ++ "]")
    ++ " " ++ i.path ++ ": " ++ i.message

def toJson (i : Issue) : Json.Value :=
  .object ([("severity", .string i.severity.name)]
    ++ (i.templateId.elim [] fun id => [("template_id", .string id)])
    ++ [("path", .string i.path), ("message", .string i.message)])

def shape : Decode.Shape :=
  ⟨"Issue", [.needed "severity", .defaulted "template_id", .needed "path", .needed "message"]⟩

def setField (i : Issue) (field : String) (v : Json.Value) : Except Decode.Error Issue :=
  match field with
  | "severity" => return { i with severity := ← Severity.decode v }
  | "template_id" => return { i with templateId := ← Decode.optional Decode.string v }
  | "path" => return { i with path := ← Decode.string v }
  | "message" => return { i with message := ← Decode.string v }
  | _ => .ok i

def decode : Decode.Decoder Issue := shape.record setField ⟨.error, none, "", ""⟩

end Issue

def hasErrors (issues : List Issue) : Bool := issues.any Issue.isError

end Motion
