import Motion.Json.Reader

/-! Passing over a value that nobody asked for. Only its form is judged, and it may nest to any
depth. -/
namespace Motion.Json
open Motion.Number (isDigit)

/-- What can be open around a value. -/
inductive Bracket where
  | array
  | object
  deriving DecidableEq, Repr

namespace Bracket

def closing : Bracket → Char
  | array => ']'
  | object => '}'

/-- What is wrong when the text ends inside. -/
def unclosed : Bracket → Fault
  | array => .endInArray
  | object => .endInObject

/-- What is wrong when a value is followed by neither a comma nor the end. -/
def unseparated : Bracket → Fault
  | array => .expectedCommaOrBracket
  | object => .expectedCommaOrBrace

end Bracket

/-- The characters that stand for one character behind a backslash. -/
def escapeLetters : List Char := ['"', '\\', '/', 'b', 'f', 'n', 'r', 't']

def skipString : Reader Unit
  | [] => failAt .endInString []
  | '"' :: r => .ok ((), r)
  | '\\' :: 'u' :: a :: b :: c :: d :: r =>
    -- four digits are enough here: half a character is passed over like a whole one
    if [a, b, c, d].all fun x => (hexDigit? x).isSome then skipString r
    else .error (hexFailure (a :: b :: c :: d :: r))
  | '\\' :: 'u' :: r => .error (hexFailure r)
  | '\\' :: c :: r =>
    if escapeLetters.contains c then skipString r else failLooking .badEscape (c :: r)
  | c :: r =>
    if c = '\\' then failAt .endInString []
    else if c.toNat < 0x20 then failAt .controlCharacter r
    else skipString r

def skipNumber : Reader Unit := fun cs =>
  let parts := do
    let (_, r) ← readWhole cs
    let (_, r) ← readFraction r
    let (_, r) ← readExponent r
    return ((), r)
  -- where a digit is wanted, the end of the text is as wrong as any other character
  parts.mapError fun f => { f with fault := .badNumber }

/-- The first piece of a value: all of it, or else the bracket that it opens with. -/
def skipHead : Reader (Option Bracket) := fun cs =>
  match skipSpace cs with
  | [] => failLooking .endInValue []
  | 'n' :: r => readWord none "ull".toList r
  | 't' :: r => readWord none "rue".toList r
  | 'f' :: r => readWord none "alse".toList r
  | '-' :: r => (skipNumber r).map fun (_, r) => (none, r)
  | '"' :: r => (skipString r).map fun (_, r) => (none, r)
  | '[' :: r => .ok (some .array, r)
  | '{' :: r => .ok (some .object, r)
  | c :: r =>
    if isDigit c then (skipNumber (c :: r)).map fun (_, r) => (none, r)
    else failLooking .expectedValue (c :: r)

/-- Closes what ends here, up to where another value belongs; what is still open then. `fresh` says
that the innermost bracket has just been opened. -/
def skipClosing : Bool → List Bracket → Reader (List Bracket)
  | _, [], cs => .ok ([], cs)
  | fresh, b :: opened, cs =>
    match skipSpace cs with
    | [] => failLooking b.unclosed []
    | c :: r =>
      if c = b.closing then skipClosing false opened r
      else if fresh then .ok (b :: opened, c :: r)
      else if c = ',' then .ok (b :: opened, r)
      else failLooking b.unseparated (c :: r)

/-- What stands before a value inside a bracket: in an object a key with its colon. -/
def skipKey : Bracket → Reader Unit
  | .array, cs => .ok ((), cs)
  | .object, cs =>
    match skipSpace cs with
    | [] => failLooking .endInObject []
    | '"' :: r => (skipString r).bind fun (_, r) => readColon r
    | r => failLooking .keyNotString r

/-- One value and then all that follows it inside the open brackets. -/
def skipWithin : Nat → List Bracket → Reader Unit
  | 0, _, cs => failLooking .endInValue cs
  | fuel + 1, opened, cs =>
    -- every step reads at least one character, so the length of the text bounds the steps
    let head := (skipHead cs).bind fun (bracket?, r) =>
      skipClosing bracket?.isSome (bracket?.toList ++ opened) r
    match head with
    | .error e => .error e
    | .ok ([], r) => .ok ((), r)
    | .ok (b :: opened, r) =>
      match skipKey b r with
      | .error e => .error e
      | .ok (_, r) => skipWithin fuel (b :: opened) r

def skipValue : Reader Unit := fun cs => skipWithin (cs.length + 1) [] cs

end Motion.Json
