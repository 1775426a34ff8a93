import Motion.Pattern.Alternatives

/-! Regular expressions for alternatives, and the engine that builds them. -/
namespace Motion.Pattern

def wildcard : Char := '*'

/-- What has a meaning of its own in a regular expression. -/
def metacharacters : List Char := "\\.+*?()|[]\x7b\x7d^$#&-~".toList

def escaped (c : Char) : List Char := if metacharacters.contains c then ['\\', c] else [c]

/-- The regular expression of an alternative: a run for each asterisk, and every other character as
itself. -/
def expression (alternative : List Char) : String :=
  String.ofList
    ('^' :: alternative.flatMap (fun c => if c = wildcard then ['.', '*'] else escaped c) ++ ['$'])

/-- A regular expression engine, by what it says against an expression that it does not build, such
as that it is too long. -/
structure Engine where
  refusal? : String → Option String

/-- The engine that builds every expression. -/
def Engine.unlimited : Engine := ⟨fun _ => none⟩

end Motion.Pattern
