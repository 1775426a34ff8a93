import Motion.Text.Lowercase

/-! Simple case folding: a representative for each class of characters that differ in case only. The
classes are those of Unicode 16. -/
namespace Motion.Text

/-- Lower-case letters that fold to another lower-case letter. -/
def variantLetters : List (Nat × Nat) := [
  (0x00B5, 0x03BC), (0x017F, 0x0073), (0x0345, 0x03B9), (0x03C2, 0x03C3), (0x03D0, 0x03B2),
  (0x03D1, 0x03B8), (0x03D5, 0x03C6), (0x03D6, 0x03C0), (0x03F0, 0x03BA), (0x03F1, 0x03C1),
  (0x03F5, 0x03B5), (0x1C80, 0x0432), (0x1C81, 0x0434), (0x1C82, 0x043E), (0x1C83, 0x0441),
  (0x1C84, 0x0442), (0x1C85, 0x0442), (0x1C86, 0x044A), (0x1C87, 0x0463), (0x1C88, 0xA64B),
  (0x1E9B, 0x1E61), (0x1FBE, 0x03B9), (0x1FD3, 0x0390), (0x1FE3, 0x03B0), (0xFB06, 0xFB05)]

/-- Capitals that Unicode 17 added, which are in no class with their lower case. -/
def unfoldedRanges : List (Nat × Nat) := [
  (0xA7CE, 0xA7CE), (0xA7D2, 0xA7D2), (0xA7D4, 0xA7D4), (0x16EA0, 0x16EB8)]

/-- The representative of a character among those that differ from it in case only. -/
def fold (c : Char) : Char :=
  let lower := if inRanges unfoldedRanges c then c else lowerSimple c
  match variantLetters.find? (·.1 == lower.toNat) with
  | some (_, target) => Char.ofNat target
  | none => lower

end Motion.Text
