import Motion.Number.Style
import Motion.Text.Quoted

namespace Motion.Formula

inductive Token.Kind where
  | identifier (name : String)
  | number (x : Float)
  | leftParen
  | rightParen
  | plus
  | minus
  | star
  | slash

/-- A token with the bytes of the text that it covers, from `start` up to, not including, `stop`. -/
structure Token where
  kind : Token.Kind
  start : Nat
  stop : Nat

namespace Token

def Kind.describe : Kind → String
  | identifier name => "Ident(" ++ Text.quoted name ++ ")"
  | number x => "Number(" ++ Number.Style.trace.write x ++ ")"
  | leftParen => "LParen"
  | rightParen => "RParen"
  | plus => "Plus"
  | minus => "Minus"
  | star => "Star"
  | slash => "Slash"

/-- How a message names a token or, where there is none, the end of the text. -/
def describeFound (found : Option Kind) : String := found.elim "Eof" Kind.describe

/-- The kind of a character that is a token by itself. -/
def Kind.ofSymbol? : Char → Option Kind
  | '(' => some leftParen
  | ')' => some rightParen
  | '+' => some plus
  | '-' => some minus
  | '*' => some star
  | '/' => some slash
  | _ => none

end Token

end Motion.Formula
