import Motion.Pattern.Engine
import Motion.Text.Fold

/-! Matching whole names against a pattern, up to case. An asterisk stands for any run of characters
without a line feed. -/
namespace Motion.Pattern

/-- Whether a wildcard may pass over a character. -/
def wildcardTakes (c : Char) : Bool := c ≠ '\n'

/-- For each tail of the name, longest first: whether `letter` and then what `rest` says matches. -/
def letterTails (letter : Char) : List Char → List Bool → List Bool
  | c :: cs, _ :: rest =>
    (letter == c && rest.headD false) :: letterTails letter cs rest
  | _, _ => [false]

/-- For each tail of the name, longest first: whether a run and then what `rest` says matches. -/
def wildcardTails : List Char → List Bool → List Bool
  | c :: cs, here :: rest =>
    -- the run ends here, or it goes on over this character
    let below := wildcardTails cs rest
    (here || (wildcardTakes c && below.headD false)) :: below
  | _, rest => rest

/-- For each tail of the name, longest first: whether the alternative matches it. -/
def matchTails (name : List Char) : List Char → List Bool
  | [] => List.replicate name.length false ++ [true]
  | p :: ps =>
    let rest := matchTails name ps
    if p = wildcard then wildcardTails name rest else letterTails p name rest

def matchesWhole (alternative name : List Char) : Bool :=
  (matchTails (name.map Text.fold) (alternative.map Text.fold)).headD false

end Pattern

structure Pattern where
  source : String
  branches : List (List Char)
  deriving Repr

namespace Pattern

/-- What an engine says against the first alternative that it does not build. -/
def refusal? (engine : Engine) (branches : List (List Char)) : Option String :=
  branches.findSome? fun b => engine.refusal? (expression b)

def compile (engine : Engine) (pattern : String) : Except Error Pattern := do
  validate pattern
  let branches := alternatives pattern.toList
  match refusal? engine branches with
  | some message => .error (.invalid pattern message)
  | none => return ⟨pattern, branches⟩

def matchesName (p : Pattern) (name : String) : Bool :=
  p.branches.any fun b => matchesWhole b name.toList

def isMatch (engine : Engine) (name pattern : String) : Bool :=
  match compile engine pattern with
  | .ok p => p.matchesName name
  -- an invalid pattern matches nothing
  | .error _ => false

end Pattern

end Motion
