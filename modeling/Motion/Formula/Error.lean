import Motion.Formula.Token

namespace Motion.Formula

inductive Reason where
  | empty
  | unexpectedCharacter (c : Char)
  | missingExponent
  | unexpectedEnd
  | unexpectedToken (found : Token.Kind)
  | expectedParen (found : Option Token.Kind)
  | expectedEnd (found : Token.Kind)
  | functionCall (name : String)
  | tooDeep
  | tooManyOperators
  /-- A text without delimiters that is not a number. -/
  | notNumber (text : String)
  /-- A list in the place of one number. -/
  | listValue
  | unknownVariable (name : String)
  | divisionByZero

inductive ErrorKind where
  | malformed
  | unknownVariable
  | divisionByZero
  deriving DecidableEq, Repr

structure Error where
  offset : Nat
  reason : Reason

namespace Reason

def kind : Reason → ErrorKind
  | unknownVariable _ => .unknownVariable
  | divisionByZero => .divisionByZero
  | _ => .malformed

def message : Reason → String
  | empty => "empty expression"
  | unexpectedCharacter c => "unexpected character '" ++ c.toString ++ "'"
  | missingExponent => "invalid number exponent (expected digits)"
  | unexpectedEnd => "unexpected end of expression"
  | unexpectedToken found => "unexpected token " ++ found.describe
  | expectedParen found => "expected RParen, found " ++ Token.describeFound found
  | expectedEnd found => "expected Eof, found " ++ found.describe
  | functionCall name => "function calls are not supported ('" ++ name ++ "(...)')"
  | tooDeep => "expression nested too deeply"
  | tooManyOperators => "expression has too many operators"
  | notNumber text =>
    "expected a number or a \x7b\x7b formula \x7d\x7d, found '" ++ text ++ "'"
  | listValue => "list value where a single number is required"
  | unknownVariable name => "unknown variable '" ++ name ++ "'"
  | divisionByZero => "division by zero"

end Reason

namespace Error

def kind (e : Error) : ErrorKind := e.reason.kind

def message (e : Error) : String := e.reason.message

def report (e : Error) : String :=
  "expr error at byte " ++ toString e.offset ++ ": " ++ e.message

end Error

end Motion.Formula
