import Motion.Formula.Expr
import Motion.Formula.Lexer

namespace Motion.Formula

/-- How many parentheses and minus signs may be open at once. -/
def maxDepth : Nat := 256

/-- How many binary operators a formula may hold. -/
def maxOperators : Nat := 1024

structure Cursor where
  tokens : List Token
  /-- The byte length of the text: where its end is reported. -/
  stop : Nat
  /-- How many more binary operators the formula may hold. -/
  operators : Nat

abbrev Parser (α : Type) := Cursor → Except Error (α × Cursor)

def Operator.additive? : Token.Kind → Option Operator
  | .plus => some .add
  | .minus => some .sub
  | _ => none

def Operator.multiplicative? : Token.Kind → Option Operator
  | .star => some .mul
  | .slash => some .div
  | _ => none

/-- Goes on with a chain whose operands so far are `left`. -/
def chainFrom (operator? : Token.Kind → Option Operator) (operand : Parser Expr) :
    Nat → Expr → Parser Expr
  | rounds, left, c =>
    match c.tokens with
    | [] => .ok (left, c)
    | t :: ts =>
      match operator? t.kind with
      | none => .ok (left, c)
      | some op =>
        -- each round uses up one operator, so the number of operators left bounds the rounds
        match rounds with
        | 0 => .error ⟨t.start, .tooManyOperators⟩
        | rounds + 1 =>
          if c.operators = 0 then .error ⟨t.start, .tooManyOperators⟩
          else
            match operand { c with tokens := ts, operators := c.operators - 1 } with
            | .error e => .error e
            | .ok (right, c) =>
              chainFrom operator? operand rounds (.binary op left right t.start) c

/-- Operands joined by operators of one level, grouped to the left. -/
def chain (operator? : Token.Kind → Option Operator) (operand : Parser Expr) : Parser Expr :=
  fun c =>
    match operand c with
    | .error e => .error e
    | .ok (left, c) => chainFrom operator? operand c.operators left c

/-- Operands joined by `*` and `/`, and these joined by `+` and `-`. -/
def sum (operand : Parser Expr) : Parser Expr :=
  chain Operator.additive? (chain Operator.multiplicative? operand)

def closeParen (e : Expr) : Parser Expr := fun c =>
  match c.tokens with
  | [] => .error ⟨c.stop, .expectedParen none⟩
  | ⟨.rightParen, _, _⟩ :: ts => .ok (e, { c with tokens := ts })
  | t :: _ => .error ⟨t.start, .expectedParen t.kind⟩

def opensParen : List Token → Bool
  | ⟨.leftParen, _, _⟩ :: _ => true
  | _ => false

/-- A number, an identifier, a minus sign before an operand or a sum in parentheses, with at most
`depth` more parentheses and minus signs open in it. -/
def operand (depth : Nat) : Parser Expr := fun c =>
  match c.tokens with
  | [] => .error ⟨c.stop, .unexpectedEnd⟩
  | t :: ts =>
    let c := { c with tokens := ts }
    match t.kind with
    | .number x => .ok (.number x, c)
    | .identifier name =>
      -- there are no functions to call
      if opensParen ts then .error ⟨t.start, .functionCall name⟩
      else .ok (.var name t.start, c)
    | .minus =>
      match depth with
      | 0 => .error ⟨t.start, .tooDeep⟩
      | depth + 1 =>
        match operand depth c with
        | .error e => .error e
        | .ok (e, c) => .ok (.neg e, c)
    | .leftParen =>
      match depth with
      | 0 => .error ⟨t.start, .tooDeep⟩
      | depth + 1 =>
        match sum (operand depth) c with
        | .error e => .error e
        | .ok (e, c) => closeParen e c
    | kind => .error ⟨t.start, .unexpectedToken kind⟩

/-- The tree of a list of tokens from a text of `stop` bytes. -/
def parseTokens (stop : Nat) (tokens : List Token) : Except Error Expr :=
  match tokens with
  | [] => .error ⟨0, .empty⟩
  | tokens =>
    match sum (operand maxDepth) ⟨tokens, stop, maxOperators⟩ with
    | .error e => .error e
    | .ok (e, c) =>
      -- a sum that ends early leaves a token that cannot follow one
      match c.tokens with
      | [] => .ok e
      | t :: _ => .error ⟨t.start, .expectedEnd t.kind⟩

/-- The tree of a formula without delimiters. -/
def parse (cs : List Char) : Except Error Expr :=
  match lex cs with
  | .error e => .error e
  | .ok tokens => parseTokens cs.length tokens

end Motion.Formula
