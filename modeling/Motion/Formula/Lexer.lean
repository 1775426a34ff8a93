import Motion.Formula.Error
import Motion.Number.Numeral

/-! Cutting a formula into tokens. All that a token or a blank can hold is ASCII, so characters
passed are bytes passed. -/
namespace Motion.Formula
open Motion.Number (isDigit Numeral)

/-- Space, tab, line feed, form feed and carriage return. -/
def isFormulaBlank (c : Char) : Bool :=
  c = ' ' || c = '\t' || c = '\n' || c = '\x0C' || c = '\r'

/-- An ASCII letter or an underscore. -/
def startsIdentifier (c : Char) : Bool :=
  ('a' ≤ c && c ≤ 'z') || ('A' ≤ c && c ≤ 'Z') || c = '_'

def continuesIdentifier (c : Char) : Bool := startsIdentifier c || isDigit c

/-- A token at the front of a text: its kind, the characters that it takes and the text behind. -/
structure Lexeme where
  kind : Token.Kind
  text : List Char
  rest : List Char

def scanToken (offset : Nat) (c : Char) (r : List Char) : Except Error Lexeme :=
  if Numeral.startsAt (c :: r) then
    match Numeral.scan (c :: r) with
    | .found n rest => .ok ⟨.number n.value, n.text, rest⟩
    | .badExponent m => .error ⟨offset + m.text.length, .missingExponent⟩
  else if startsIdentifier c then
    let name := c :: r.takeWhile continuesIdentifier
    .ok ⟨.identifier (String.ofList name), name, r.dropWhile continuesIdentifier⟩
  else
    match Token.Kind.ofSymbol? c with
    | some kind => .ok ⟨kind, [c], r⟩
    | none => .error ⟨offset, .unexpectedCharacter c⟩

theorem text_append_rest_of_scanToken {offset : Nat} {c : Char} {r : List Char} {l : Lexeme}
    (h : scanToken offset c r = .ok l) : l.text ++ l.rest = c :: r := by
  unfold scanToken at h
  split at h
  · split at h
    · rename_i hscan
      cases h
      exact Numeral.text_append_of_scan hscan
    · simp at h
  · split at h
    · cases h
      simp only [List.cons_append, List.takeWhile_append_dropWhile]
    · split at h
      · cases h
        rfl
      · simp at h

theorem text_ne_nil_of_scanToken {offset : Nat} {c : Char} {r : List Char} {l : Lexeme}
    (h : scanToken offset c r = .ok l) : l.text ≠ [] := by
  unfold scanToken at h
  split at h
  · split at h
    · rename_i hstart _ _ _ hscan
      cases h
      exact Numeral.text_ne_nil_of_scan hstart hscan
    · simp at h
  · split at h
    · cases h
      simp
    · split at h
      · cases h
        simp
      · simp at h

theorem length_rest_of_scanToken {offset : Nat} {c : Char} {r : List Char} {l : Lexeme}
    (h : scanToken offset c r = .ok l) : l.rest.length < (c :: r).length := by
  have hpos := List.length_pos_iff.2 (text_ne_nil_of_scanToken h)
  rw [← text_append_rest_of_scanToken h, List.length_append]
  omega

/-- The tokens of a text that begins at byte `offset`. -/
def lexFrom (offset : Nat) (cs : List Char) : Except Error (List Token) :=
  match cs with
  | [] => .ok []
  | c :: r =>
    -- blanks and tokens are ASCII, so a character passed is a byte passed
    if isFormulaBlank c then lexFrom (offset + 1) r
    else
      match h : scanToken offset c r with
      | .error e => .error e
      | .ok l =>
        have := length_rest_of_scanToken h
        let stop := offset + l.text.length
        (lexFrom stop l.rest).map fun ts => ⟨l.kind, offset, stop⟩ :: ts
termination_by cs.length
decreasing_by
  · exact Nat.lt_succ_self _
  · assumption

def lex (cs : List Char) : Except Error (List Token) := lexFrom 0 cs

end Motion.Formula
