/-! Blanks, which are the characters with the Unicode property `White_Space`, trimming and words. -/
namespace Motion.Text

def blankRanges : List (Nat × Nat) := [
  (0x0009, 0x000D), (0x0020, 0x0020), (0x0085, 0x0085), (0x00A0, 0x00A0), (0x1680, 0x1680),
  (0x2000, 0x200A), (0x2028, 0x2029), (0x202F, 0x202F), (0x205F, 0x205F), (0x3000, 0x3000)]

def inRanges (ranges : List (Nat × Nat)) (c : Char) : Bool :=
  ranges.any fun r => r.1 ≤ c.toNat && c.toNat ≤ r.2

def isBlank (c : Char) : Bool := inRanges blankRanges c

def trimStart (cs : List Char) : List Char := cs.dropWhile isBlank

def trimEnd (cs : List Char) : List Char := (cs.reverse.dropWhile isBlank).reverse

def trim (cs : List Char) : List Char := trimEnd (trimStart cs)

def isBlankText (s : String) : Bool := (trim s.toList).isEmpty

/-- The text in lower case where its letters are ASCII; other characters stay. -/
def asciiLower (cs : List Char) : List Char := cs.map Char.toLower

def dropFront? : List Char → List Char → Option (List Char)
  | [], cs => some cs
  | _ :: _, [] => none
  | p :: ps, c :: cs => if p = c then dropFront? ps cs else none

def dropBack? (ending cs : List Char) : Option (List Char) :=
  (dropFront? ending.reverse cs.reverse).map List.reverse

end Motion.Text
