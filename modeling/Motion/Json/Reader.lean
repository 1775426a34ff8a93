import Motion.Json.Numeral
import Motion.Table

/-! Reading exactly one document value from a text. -/
namespace Motion.Json
open Motion.Number (isDigit digitValue Numeral)

inductive Fault where
  | endInValue
  | endInArray
  | endInObject
  | endInString
  | expectedColon
  | expectedCommaOrBracket
  | expectedCommaOrBrace
  | expectedIdentifier
  | expectedValue
  | badEscape
  | badNumber
  | numberOutOfRange
  /-- The exponent alone is too large, whatever comes behind its digits read so far. -/
  | exponentOutOfRange
  | controlCharacter
  | keyNotString
  | loneSurrogate
  | endOfEscape
  | trailingComma
  | trailingCharacters
  | tooDeep
  deriving DecidableEq, Repr

namespace Fault

def message : Fault → String
  | endInValue => "EOF while parsing a value"
  | endInArray => "EOF while parsing a list"
  | endInObject => "EOF while parsing an object"
  | endInString => "EOF while parsing a string"
  | expectedColon => "expected `:`"
  | expectedCommaOrBracket => "expected `,` or `]`"
  | expectedCommaOrBrace => "expected `,` or `\x7d`"
  | expectedIdentifier => "expected ident"
  | expectedValue => "expected value"
  | badEscape => "invalid escape"
  | badNumber => "invalid number"
  | numberOutOfRange | exponentOutOfRange => "number out of range"
  | controlCharacter => "control character (\\u0000-\\u001F) found while parsing a string"
  | keyNotString => "key must be a string"
  | loneSurrogate => "lone leading surrogate in hex escape"
  | endOfEscape => "unexpected end of hex escape"
  | trailingComma => "trailing comma"
  | trailingCharacters => "trailing characters"
  | tooDeep => "recursion limit exceeded"

end Fault

/-- A fault, and where it showed: in front of `rest`, of which so many bytes have been looked at. -/
structure Failure where
  fault : Fault
  rest : List Char
  ahead : Nat

/-- A place in a text: the line, from one, and the bytes before the place on that line. -/
structure Position where
  line : Nat
  column : Nat
  deriving DecidableEq, Repr

namespace Position

def start : Position := ⟨1, 0⟩

def step (p : Position) (c : Char) (bytes : Nat) : Position :=
  if c = '\n' then ⟨p.line + 1, 0⟩ else ⟨p.line, p.column + bytes⟩

def after (cs : List Char) : Position := cs.foldl (fun p c => p.step c c.utf8Size) start

/-- The place so many bytes further into a text, or at its end. -/
def advance (p : Position) : Nat → List Char → Position
  | 0, _ => p
  | _, [] => p
  | bytes, c :: cs => advance (p.step c (min bytes c.utf8Size)) (bytes - c.utf8Size) cs

/-- The place `ahead` bytes into `rest`, which is what a text ends with. -/
def before (text rest : List Char) (ahead : Nat) : Position :=
  (after (text.take (text.length - rest.length))).advance ahead rest

def render (p : Position) : String := s!"line {p.line} column {p.column}"

end Position

/-- Reads something off the front of a text and returns it with the rest. -/
abbrev Reader (α : Type) := List Char → Except Failure (α × List Char)

def failAt {α : Type} (fault : Fault) (rest : List Char) : Except Failure α :=
  .error ⟨fault, rest, 0⟩

/-- Fails at the next character, of which one byte tells enough. -/
def failLooking {α : Type} (fault : Fault) (rest : List Char) : Except Failure α :=
  .error ⟨fault, rest, 1⟩

/-- The blanks of a document: space, tab, line feed and carriage return. -/
def isSpace (c : Char) : Bool := c = ' ' || c = '\t' || c = '\n' || c = '\r'

def skipSpace (cs : List Char) : List Char := cs.dropWhile isSpace

def readWord {α : Type} (value : α) : List Char → Reader α
  | [], cs => .ok (value, cs)
  | _ :: _, [] => failAt .endInValue []
  | w :: ws, c :: cs =>
    if w = c then readWord value ws cs else failLooking .expectedIdentifier (c :: cs)

/-- The digits and the rest behind an exponent marker; at least one digit is needed. -/
def readExponentDigits : Reader (List Char) := fun cs =>
  match cs with
  | [] => failAt .endInValue []
  | c :: _ =>
    if isDigit c then .ok (cs.takeWhile isDigit, cs.dropWhile isDigit)
    else failLooking .badNumber cs

def readExponent : Reader (Option Number.Exponent) := fun cs =>
  match cs with
  | [] => .ok (none, cs)
  | c :: r =>
    if c = 'e' || c = 'E' then
      let (sign, r) := Numeral.splitSign r
      do
        let (digits, r) ← readExponentDigits r
        return (some ⟨c, sign, digits⟩, r)
    else .ok (none, cs)

/-- An optional fraction; behind a point at least one digit is needed. -/
def readFraction : Reader (Option (List Char)) := fun cs =>
  match cs with
  | '.' :: r =>
    match r.takeWhile isDigit with
    | [] => failLooking (if r.isEmpty then .endInValue else .badNumber) r
    | ds => .ok (some ds, r.dropWhile isDigit)
  | _ => .ok (none, cs)

def readWhole : Reader (List Char) := fun cs =>
  match cs with
  | [] => failAt .endInValue []
  | '0' :: r =>
    -- a zero stands alone
    match r with
    | d :: _ => if isDigit d then failLooking .badNumber r else .ok (['0'], r)
    | [] => .ok (['0'], r)
  | c :: _ =>
    if isDigit c then .ok (cs.takeWhile isDigit, cs.dropWhile isDigit)
    else failLooking .badNumber cs

def maxExponent : Nat := 1 <<< 31 - 1

/-- The digits left behind the first one that takes a number, which is `n` before them, beyond the
largest exponent. -/
def digitsBeyond? (n : Nat) : List Char → Option (List Char)
  | [] => none
  | d :: ds =>
    let n := 10 * n + digitValue d
    if maxExponent < n then some ds else digitsBeyond? n ds

/-- The digits of an exponent that are left when it is known to be too large. -/
def exponentExcess? (e : Number.Exponent) : Option (List Char) :=
  if e.sign = some '-' then none else digitsBeyond? 0 e.digits

def readNumber (negative : Bool) : Reader Value := fun cs => do
  let (whole, r) ← readWhole cs
  let (fraction, r) ← readFraction r
  let (exponent, r) ← readExponent r
  match numeralValue negative ⟨whole, fraction, exponent⟩ with
  | some v => return (v, r)
  | none =>
    -- an exponent that is too large by itself is refused where that shows, not behind the number
    match exponent.bind exponentExcess? with
    | some digits => failAt .exponentOutOfRange (digits ++ r)
    | none => failAt .numberOutOfRange r

def hexDigit? (c : Char) : Option Nat :=
  if isDigit c then some (c.toNat - 48)
  else if 'a' ≤ c && c ≤ 'f' then some (c.toNat - 87)
  else if 'A' ≤ c && c ≤ 'F' then some (c.toNat - 55)
  else none

/-- What is wrong with a text that does not begin with four hexadecimal digits. -/
def hexFailure (cs : List Char) : Failure :=
  -- four bytes are taken before they are judged
  if (String.ofList cs).utf8ByteSize < 4 then ⟨.endInString, [], 0⟩ else ⟨.badEscape, cs, 4⟩

def readHex4 : Reader Nat
  | a :: b :: c :: d :: r =>
    match hexDigit? a, hexDigit? b, hexDigit? c, hexDigit? d with
    | some a, some b, some c, some d => .ok (4096 * a + 256 * b + 16 * c + d, r)
    | _, _, _, _ => .error (hexFailure (a :: b :: c :: d :: r))
  | cs => .error (hexFailure cs)

def readUnicodeEscape : Reader Char := fun cs => do
  let (high, r) ← readHex4 cs
  -- a low surrogate may only follow a high one; outside the surrogates a number stands alone
  if 0xDC00 ≤ high && high ≤ 0xDFFF then failAt .loneSurrogate r
  else if high < 0xD800 || 0xDBFF < high then return (Char.ofNat high, r)
  else match r with
    | [] => failAt .endInString []
    | '\\' :: 'u' :: r => do
      let (low, r) ← readHex4 r
      if low < 0xDC00 || 0xDFFF < low then failAt .loneSurrogate r
      else return (Char.ofNat (0x10000 + 0x400 * (high - 0xD800) + (low - 0xDC00)), r)
    | '\\' :: [] => failAt .endInString []
    | '\\' :: r => failLooking .endOfEscape r
    | r => failLooking .endOfEscape r

def readEscape : Reader Char
  | [] => failAt .endInString []
  | '"' :: r => .ok ('"', r)
  | '\\' :: r => .ok ('\\', r)
  | '/' :: r => .ok ('/', r)
  | 'b' :: r => .ok ('\x08', r)
  | 'f' :: r => .ok ('\x0C', r)
  | 'n' :: r => .ok ('\n', r)
  | 'r' :: r => .ok ('\r', r)
  | 't' :: r => .ok ('\t', r)
  | 'u' :: r => readUnicodeEscape r
  | r => failLooking .badEscape r

/-- The characters up to the closing quote, behind those `seen`, nearest first. -/
def readChars : Nat → List Char → Reader String
  | 0, _, _ => failAt .endInString []
  | fuel + 1, seen, cs =>
    -- every step reads at least one character, so the length of the text bounds the steps
    match cs with
    | [] => failAt .endInString []
    | '"' :: r => .ok (String.ofList seen.reverse, r)
    | '\\' :: r =>
      match readEscape r with
      | .error e => .error e
      | .ok (c, r) => readChars fuel (c :: seen) r
    | c :: r => if c.toNat < 0x20 then failAt .controlCharacter r else readChars fuel (c :: seen) r

def readString : Reader String := fun cs => readChars (cs.length + 1) [] cs

/-- Whether an array has another item; `first` says that none has been read yet. The comma before
an item is passed, and so is the end of the array. -/
def nextItem (first : Bool) : Reader Bool := fun cs =>
  match skipSpace cs with
  | [] => failLooking .endInArray []
  | ']' :: r => .ok (false, r)
  | c :: r =>
    if first then .ok (true, c :: r)
    else if c = ',' then
      match skipSpace r with
      | [] => failLooking .endInValue []
      | ']' :: r => failLooking .trailingComma (']' :: r)
      | r => .ok (true, r)
    else failLooking .expectedCommaOrBracket (c :: r)

/-- The items of an array behind its bracket, after those `seen`, nearest first. -/
def readItems {α : Type} (item : Reader α) : Nat → List α → Reader (List α)
  | 0, _, cs => failLooking .endInArray cs
  | fuel + 1, seen, cs =>
    -- every step reads at least one character, so the length of the text bounds the steps
    match nextItem seen.isEmpty cs with
    | .error e => .error e
    | .ok (false, r) => .ok (seen.reverse, r)
    | .ok (true, r) =>
      match item r with
      | .error e => .error e
      | .ok (v, r) => readItems item fuel (v :: seen) r

def readKey : Reader String
  | [] => failLooking .endInValue []
  | '"' :: r => readString r
  -- a brace in the place of a key is the end of an object behind a comma
  | '}' :: r => failLooking .trailingComma ('}' :: r)
  | r => failLooking .keyNotString r

/-- The next key of an object, unless the object ends here; `first` says that none has been read
yet. -/
def nextKey (first : Bool) : Reader (Option String) := fun cs =>
  match skipSpace cs with
  | [] => failLooking .endInObject []
  | '}' :: r => .ok (none, r)
  | c :: r =>
    if first then (readKey (c :: r)).map fun (key, r) => (some key, r)
    else if c = ',' then (readKey (skipSpace r)).map fun (key, r) => (some key, r)
    else failLooking .expectedCommaOrBrace (c :: r)

def readColon : Reader Unit := fun cs =>
  match skipSpace cs with
  | [] => failLooking .endInObject []
  | ':' :: r => .ok ((), r)
  | r => failLooking .expectedColon r

/-- The entries of an object behind its brace, after those `seen`. -/
def readEntries (item : Reader Value) :
    Nat → Bool → List (String × Value) → Reader (List (String × Value))
  | 0, _, _, cs => failLooking .endInObject cs
  | fuel + 1, first, seen, cs =>
    match nextKey first cs with
    | .error e => .error e
    | .ok (none, r) => .ok (seen, r)
    | .ok (some key, r) =>
      match (readColon r).bind fun (_, r) => item r with
      | .error e => .error e
      -- a key that comes again takes the new value and keeps its first place
      | .ok (v, r) => readEntries item fuel false (Table.insert key v seen) r

/-- A value with at most `depth` arrays and objects around its innermost one. -/
def readValue (depth : Nat) : Reader Value := fun cs =>
  match skipSpace cs with
  | [] => failLooking .endInValue []
  | 'n' :: r => readWord .null "ull".toList r
  | 't' :: r => readWord (.bool true) "rue".toList r
  | 'f' :: r => readWord (.bool false) "alse".toList r
  | '-' :: r => readNumber true r
  | '"' :: r => (readString r).map fun (s, r) => (.string s, r)
  | '[' :: r =>
    match depth with
    | 0 => failLooking .tooDeep ('[' :: r)
    | depth + 1 =>
      (readItems (readValue depth) (r.length + 1) [] r).map fun (vs, r) => (.array vs, r)
  | '{' :: r =>
    match depth with
    | 0 => failLooking .tooDeep ('{' :: r)
    | depth + 1 =>
      (readEntries (readValue depth) (r.length + 1) true [] r).map fun (es, r) => (.object es, r)
  | c :: r => if isDigit c then readNumber false (c :: r) else failLooking .expectedValue (c :: r)

def maxDepth : Nat := 127

def readEnd {α : Type} (result : α) (cs : List Char) : Except Failure α :=
  -- nothing but blanks may follow a document
  match skipSpace cs with
  | [] => .ok result
  | r => failLooking .trailingCharacters r

def readDocument (text : String) : Except Failure Value := do
  let (v, r) ← readValue maxDepth text.toList
  readEnd v r

end Motion.Json
