import Motion.Text.Blank

/-! Cutting a match pattern into its alternatives, at every `OR` alone between blanks. -/
namespace Motion.Pattern

def separator : List Char := ['O', 'R']

/-- Longest runs of blanks and of other characters, in turn. -/
def runs (cs : List Char) : List (List Char) :=
  cs.splitBy fun a b => Text.isBlank a == Text.isBlank b

def isWord (run : List Char) : Bool := !run.any Text.isBlank

def words (cs : List Char) : List (List Char) := (runs cs).filter isWord

/-- The runs between separators; one group more than there are separators. -/
def groups : List (List Char) → List (List (List Char))
  | [] => [[]]
  | run :: rest =>
    if run = separator then [] :: groups rest
    else match groups rest with
      | [] => [[run]]
      | g :: gs => (run :: g) :: gs

def alternatives (cs : List Char) : List (List Char) :=
  (groups (runs cs)).map fun g => Text.trim g.flatten

inductive Error where
  | empty
  /-- The alternative with this number, from zero, has no text. -/
  | emptyBranch (pattern : String) (branch : Nat)
  /-- An engine does not build the regular expression of an alternative. -/
  | invalid (pattern message : String)
  deriving DecidableEq, Repr

def Error.message : Error → String
  | empty => "match pattern is empty"
  | emptyBranch pattern branch =>
    "match pattern '" ++ pattern ++ "' has an empty OR branch (alternative "
      ++ toString branch ++ ")"
  | invalid pattern message =>
    "match pattern '" ++ pattern ++ "' cannot be compiled: " ++ message

def validate (pattern : String) : Except Error Unit :=
  if Text.isBlankText pattern then .error .empty
  else match (alternatives pattern.toList).findIdx? (·.isEmpty) with
    | some branch => .error (.emptyBranch pattern branch)
    | none => .ok ()

end Motion.Pattern
