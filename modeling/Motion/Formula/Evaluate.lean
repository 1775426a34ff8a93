import Motion.Formula.Parser
import Motion.Text.Blank

/-! Evaluating the text of a formula, with or without its double braces. -/
namespace Motion.Formula

def opening : List Char := ['{', '{']

def closing : List Char := ['}', '}']

/-- The text between the delimiters, trimmed, where a text has them around it. -/
def stripDelimiters? (cs : List Char) : Option (List Char) := do
  let rest ← Text.dropFront? opening (Text.trim cs)
  let body ← Text.dropBack? closing rest
  return Text.trim body

/-- The formula that a text holds: what its delimiters enclose, or all of it. -/
def body (cs : List Char) : List Char := (stripDelimiters? cs).getD cs

def evaluateChars (vars : Variables) (cs : List Char) : Except Error Float := do
  (← parse (body cs)).eval vars

def evaluate (vars : Variables) (text : String) : Except Error Float :=
  evaluateChars vars text.toList

end Motion.Formula
