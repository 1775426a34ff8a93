import Motion.Json.Value
import Motion.Number.Style

/-! Writing a document, on one line without blanks or indented by two blanks a level. -/
namespace Motion.Json

def hexDigit (n : Nat) : Char := Nat.digitChar n

def escapeChar (c : Char) : List Char :=
  if c = '"' || c = '\\' then ['\\', c]
  else if c = '\x08' then ['\\', 'b']
  else if c = '\x0C' then ['\\', 'f']
  else if c = '\n' then ['\\', 'n']
  else if c = '\r' then ['\\', 'r']
  else if c = '\t' then ['\\', 't']
  else if c.toNat < 0x20 then
    ['\\', 'u', '0', '0', hexDigit (c.toNat / 16), hexDigit (c.toNat % 16)]
  else [c]

def writeString (s : String) : String :=
  String.ofList ('"' :: (s.toList.flatMap escapeChar ++ ['"']))

def writeBool (b : Bool) : String := if b then "true" else "false"

/-- The digits of a number survive its precision. -/
def writeFloat (precision : Precision) (x : Float) : String :=
  match precision with
  | .double => Number.Style.json.write x
  | .single => Number.Style.jsonSingle.writeSingle (Number.narrow x)

def writeInteger (n : Int) : String :=
  if n < 0 then String.ofList ('-' :: Nat.toDigits 10 n.natAbs)
  else String.ofList (Nat.toDigits 10 n.natAbs)

mutual

def Value.write : Value → String
  | .null => "null"
  | .bool b => writeBool b
  | .integer n => writeInteger n
  | .float precision x => writeFloat precision x
  | .string s => writeString s
  | .array items => "[" ++ writeItems items ++ "]"
  | .object entries => "\x7b" ++ writeEntries entries ++ "\x7d"

def writeItems : List Value → String
  | [] => ""
  | [v] => v.write
  | v :: vs => v.write ++ "," ++ writeItems vs

def writeEntries : List (String × Value) → String
  | [] => ""
  | [(k, v)] => writeString k ++ ":" ++ v.write
  | (k, v) :: es => writeString k ++ ":" ++ v.write ++ "," ++ writeEntries es

end

def newLine (level : Nat) : String := "\n" ++ String.ofList (List.replicate (2 * level) ' ')

mutual

/-- A value over several lines, at a level of indentation. -/
def Value.writeIndented (level : Nat) : Value → String
  -- empty arrays and objects stay on one line
  | .array [] => "[]"
  | .array (v :: vs) => "[" ++ indentItems (level + 1) (v :: vs) ++ newLine level ++ "]"
  | .object [] => "\x7b\x7d"
  | .object (e :: es) => "\x7b" ++ indentEntries (level + 1) (e :: es) ++ newLine level ++ "\x7d"
  | .null => "null"
  | .bool b => writeBool b
  | .integer n => writeInteger n
  | .float precision x => writeFloat precision x
  | .string s => writeString s

def indentItems (level : Nat) : List Value → String
  | [] => ""
  | [v] => newLine level ++ v.writeIndented level
  | v :: vs => newLine level ++ v.writeIndented level ++ "," ++ indentItems level vs

def indentEntries (level : Nat) : List (String × Value) → String
  | [] => ""
  | [(k, v)] => newLine level ++ writeString k ++ ": " ++ v.writeIndented level
  | (k, v) :: es =>
    newLine level ++ writeString k ++ ": " ++ v.writeIndented level ++ "," ++ indentEntries level es

end

def Value.writePretty (v : Value) : String := v.writeIndented 0

end Motion.Json
