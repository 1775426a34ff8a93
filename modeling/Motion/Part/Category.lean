import Motion.Pattern.Alternatives

/-! The anatomical or mechanical class of a part: that of the first word of its text with one. -/
namespace Motion.Part

inductive Category where
  | head
  | body
  | limb
  | wing
  | tail
  | fin
  | rotor
  | appendage
  | foliage
  | architecture
  deriving DecidableEq, Repr

namespace Category

def name : Category → String
  | head => "head"
  | body => "body"
  | limb => "limb"
  | wing => "wing"
  | tail => "tail"
  | fin => "fin"
  | rotor => "rotor"
  | appendage => "appendage"
  | foliage => "foliage"
  | architecture => "structure"

def vocabulary : List (String × Category) := [
  ("head", .head), ("skull", .head), ("face", .head), ("snout", .head), ("muzzle", .head),
  ("beak", .head), ("jaw", .head), ("body", .body), ("torso", .body), ("chest", .body),
  ("thorax", .body), ("abdomen", .body), ("belly", .body), ("pelvis", .body), ("hip", .body),
  ("trunk", .body), ("fuselage", .body), ("hull", .body), ("chassis", .body), ("seat", .body),
  ("leg", .limb), ("arm", .limb), ("limb", .limb), ("foreleg", .limb), ("hindleg", .limb),
  ("forelimb", .limb), ("hindlimb", .limb), ("paw", .limb), ("hand", .limb), ("foot", .limb),
  ("feet", .limb), ("claw", .limb), ("tentacle", .limb), ("thigh", .limb), ("shin", .limb),
  ("wing", .wing), ("feather", .wing), ("tail", .tail), ("stinger", .tail), ("fin", .fin),
  ("flipper", .fin), ("fluke", .fin), ("wheel", .rotor), ("tire", .rotor), ("tyre", .rotor),
  ("rotor", .rotor), ("propeller", .rotor), ("blade", .rotor), ("fan", .rotor), ("gear", .rotor),
  ("engine", .rotor), ("turbine", .rotor), ("neck", .appendage), ("ear", .appendage),
  ("horn", .appendage), ("antenna", .appendage), ("antennae", .appendage), ("tusk", .appendage),
  ("mane", .appendage), ("whisker", .appendage), ("crest", .appendage), ("canopy", .foliage),
  ("leaf", .foliage), ("leaves", .foliage), ("branch", .foliage), ("crown", .foliage),
  ("frond", .foliage), ("petal", .foliage), ("flower", .foliage), ("root", .foliage),
  ("stem", .foliage), ("roof", .architecture), ("wall", .architecture), ("window", .architecture),
  ("windshield", .architecture), ("door", .architecture), ("foundation", .architecture),
  ("backrest", .architecture), ("chimney", .architecture), ("tower", .architecture)]

def lookup? (word : List Char) : Option Category :=
  (vocabulary.find? fun e => e.1.toList == word).map (·.2)

/-- The category of a word as it stands, or without `es`, or without `s` at its end. -/
def ofLowerWord? (word : List Char) : Option Category :=
  lookup? word
    <|> (Text.dropBack? ['e', 's'] word).bind lookup?
    <|> (Text.dropBack? ['s'] word).bind lookup?

/-- The category of a single word; blanks around it and ASCII case do not count. -/
def ofWord? (word : List Char) : Option Category :=
  ofLowerWord? (Text.asciiLower (Text.trim word))

def isWordChar (c : Char) : Bool := c.isAlphanum

/-- The word read so far, last character first, unless nothing has been read. -/
def finishWord (read : List Char) : List (List Char) :=
  if read.isEmpty then [] else [read.reverse]

/-- The words of a text that goes on with a word begun as `read`. -/
def wordsFrom (read : List Char) : List Char → List (List Char)
  | [] => finishWord read
  | c :: cs =>
    if isWordChar c then wordsFrom (c :: read) cs else finishWord read ++ wordsFrom [] cs

def words (cs : List Char) : List (List Char) := wordsFrom [] cs

def ofText? (cs : List Char) : Option Category :=
  -- the word between the alternatives of a pattern is passed over
  ((words cs).filter (· ≠ Pattern.separator)).findSome? ofWord?

def infer? (word : String) : Option Category := ofWord? word.toList

def inferText? (text : String) : Option Category := ofText? text.toList

end Category

end Motion.Part
