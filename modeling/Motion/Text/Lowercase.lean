import Motion.Text.Blank
import Motion.Text.CaseTable
import Motion.Text.CasedTable

/-! Unicode lower case of a whole text, where the capital sigma depends on its place, and the normal
form of a word. -/
namespace Motion.Text

/-- The lower case of a character that has a one-character lower case, and any other unchanged. -/
def lowerSimple (c : Char) : Char :=
  match lowerRows.find? (·.covers c.toNat) with
  | some row => Char.ofNat (c.toNat + row.shift).toNat
  | none => c

/-- The lower case of a character outside any context. -/
def lowerChar (c : Char) : List Char :=
  -- the dotted capital I keeps its dot as a combining mark
  if c = '\u0130' then ['i', '\u0307'] else [lowerSimple c]

def isCased (c : Char) : Bool := inRanges casedRanges c

def isCaseIgnorable (c : Char) : Bool := inRanges caseIgnorableRanges c

/-- Whether the first character that case does not look past is cased. -/
def meetsCased (cs : List Char) : Bool :=
  (cs.dropWhile isCaseIgnorable).head?.any isCased

/-- The lower case of a capital sigma between what stands before it, nearest first, and what stands
behind it. -/
def lowerSigma (before after : List Char) : Char :=
  -- final when a cased letter comes before and none follows
  if meetsCased before && !meetsCased after then '\u03C2' else '\u03C3'

/-- Lower case of a text that continues `before`, which is given nearest first. -/
def lowercaseFrom (before : List Char) : List Char → List Char
  | [] => []
  | c :: after =>
    (if c = '\u03A3' then [lowerSigma before after] else lowerChar c)
      ++ lowercaseFrom (c :: before) after

def lowercase (cs : List Char) : List Char := lowercaseFrom [] cs

/-- The form in which words are compared: without surrounding blanks, in lower case. -/
def normalizeWord (s : String) : String :=
  String.ofList (lowercase (trim s.toList))

end Motion.Text
