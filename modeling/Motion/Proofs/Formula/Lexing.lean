import Motion.Formula.Lexer
import Motion.Proofs.Number.Numeral
import Motion.Proofs.Outcome
import Motion.Text.Blank

namespace Motion.Formula
open Motion.Number (isDigit Numeral Ends isNumeralChar)

/-- The characters that stand for a kind of token. -/
inductive Spells : Token.Kind → List Char → Prop
  | identifier (cs : List Char) : Spells (.identifier (String.ofList cs)) cs
  | number (n : Numeral) : Spells (.number n.value) n.text
  | symbol {c : Char} {kind : Token.Kind} (h : Token.Kind.ofSymbol? c = some kind) : Spells kind [c]

def byteLength (cs : List Char) : Nat := (String.ofList cs).utf8ByteSize

/-- A text that begins at a byte is made of blanks and tokens, and each token has the bytes of the
characters that spell it. -/
inductive Reads : Nat → List Char → List Token → Prop
  | nil {offset : Nat} : Reads offset [] []
  | blank {offset : Nat} {c : Char} {cs : List Char} {ts : List Token} (hc : isFormulaBlank c)
      (h : Reads (offset + byteLength [c]) cs ts) : Reads offset (c :: cs) ts
  | token {offset : Nat} {kind : Token.Kind} {text rest : List Char} {ts : List Token}
      (hkind : Spells kind text) (h : Reads (offset + byteLength text) rest ts) :
      Reads offset (text ++ rest) (⟨kind, offset, offset + byteLength text⟩ :: ts)

/-- What can stand in a token. -/
def isTokenChar (c : Char) : Bool :=
  isNumeralChar c || continuesIdentifier c || (Token.Kind.ofSymbol? c).isSome

theorem toNat_le_of_le {a b : Char} (h : a ≤ b) : a.toNat ≤ b.toNat := UInt32.le_iff_toNat_le.mp h

theorem toNat_of_isDigit {c : Char} (h : isDigit c = true) : 48 ≤ c.toNat ∧ c.toNat ≤ 57 := by
  simp only [isDigit, Bool.and_eq_true, decide_eq_true_eq] at h
  exact ⟨toNat_le_of_le h.1, toNat_le_of_le h.2⟩

theorem toNat_of_startsIdentifier {c : Char} (h : startsIdentifier c = true) :
    65 ≤ c.toNat ∧ c.toNat ≤ 122 := by
  simp only [startsIdentifier, Bool.or_eq_true, Bool.and_eq_true, decide_eq_true_eq] at h
  rcases h with (⟨hlow, hhigh⟩ | ⟨hlow, hhigh⟩) | rfl
  · have hlow : 97 ≤ c.toNat := toNat_le_of_le hlow
    have hhigh : c.toNat ≤ 122 := toNat_le_of_le hhigh
    omega
  · have hlow : 65 ≤ c.toNat := toNat_le_of_le hlow
    have hhigh : c.toNat ≤ 90 := toNat_le_of_le hhigh
    omega
  · decide

/-- Tokens are made of visible ASCII characters. -/
theorem toNat_of_isTokenChar {c : Char} (h : isTokenChar c = true) :
    33 ≤ c.toNat ∧ c.toNat ≤ 126 := by
  simp only [isTokenChar, isNumeralChar, continuesIdentifier, Bool.or_eq_true,
    decide_eq_true_eq] at h
  rcases h with (((((((hdigit | rfl) | rfl) | rfl) | rfl) | rfl) | hname | hdigit)) | hsymbol
  · have := toNat_of_isDigit hdigit
    omega
  · decide
  · decide
  · decide
  · decide
  · decide
  · have := toNat_of_startsIdentifier hname
    omega
  · have := toNat_of_isDigit hdigit
    omega
  · unfold Token.Kind.ofSymbol? at hsymbol
    split at hsymbol <;> first | decide | cases hsymbol

theorem utf8Size_of_isTokenChar {c : Char} (h : isTokenChar c = true) : c.utf8Size = 1 := by
  have hrange := toNat_of_isTokenChar h
  rw [Char.utf8Size_eq_one_iff, UInt32.le_iff_toNat_le]
  change c.toNat ≤ 127
  omega

theorem isBlank_of_isTokenChar {c : Char} (h : isTokenChar c = true) : Text.isBlank c = false := by
  have hrange := toNat_of_isTokenChar h
  simp only [Text.isBlank, Text.inRanges, Text.blankRanges, List.any_cons, List.any_nil,
    Bool.or_eq_false_iff, Bool.and_eq_false_iff, decide_eq_false_iff_not, and_true]
  omega

theorem isFormulaBlank_cases {c : Char} (h : isFormulaBlank c = true) :
    c = ' ' ∨ c = '\t' ∨ c = '\n' ∨ c = '\x0C' ∨ c = '\r' := by
  simpa only [isFormulaBlank, Bool.or_eq_true, decide_eq_true_eq, or_assoc] using h

theorem utf8Size_of_isFormulaBlank {c : Char} (h : isFormulaBlank c = true) : c.utf8Size = 1 := by
  rcases isFormulaBlank_cases h with rfl | rfl | rfl | rfl | rfl <;> rfl

theorem isBlank_of_isFormulaBlank {c : Char} (h : isFormulaBlank c = true) :
    Text.isBlank c = true := by
  rcases isFormulaBlank_cases h with rfl | rfl | rfl | rfl | rfl <;> rfl

theorem byteLength_cons (c : Char) (cs : List Char) :
    byteLength (c :: cs) = c.utf8Size + byteLength cs := by
  unfold byteLength
  rw [← List.singleton_append, String.ofList_append, String.utf8ByteSize_append,
    ← String.singleton_eq_ofList, String.utf8ByteSize_singleton]

theorem byteLength_of_ascii {cs : List Char} (h : ∀ c ∈ cs, c.utf8Size = 1) :
    byteLength cs = cs.length := by
  induction cs with
  | nil => rfl
  | cons c cs ih =>
    have hhead := h c List.mem_cons_self
    have htail := ih fun c' hc' => h c' (List.mem_cons_of_mem c hc')
    rw [byteLength_cons, hhead, htail, List.length_cons, Nat.add_comm]

/-- What can stand in no token does not change the token in front of it. -/
theorem scanToken_append {rest : List Char} (hnumeral : Ends isNumeralChar rest)
    (hname : Ends continuesIdentifier rest) (offset : Nat) (c : Char) (r : List Char) :
    scanToken offset c (r ++ rest) =
      (scanToken offset c r).map fun l => { l with rest := l.rest ++ rest } := by
  have hscan : Numeral.scan (c :: (r ++ rest)) = (Numeral.scan (c :: r)).append rest :=
    Numeral.scan_append hnumeral (c :: r)
  rw [scanToken, scanToken, Numeral.startsAt_append hnumeral, hscan, hname.takeWhile_append,
    hname.dropWhile_append]
  split
  · cases Numeral.scan (c :: r) <;> rfl
  · split
    · rfl
    · split <;> rfl

theorem lexFrom_nil (offset : Nat) : lexFrom offset [] = .ok [] := by rw [lexFrom]

theorem lexFrom_of_blank {c : Char} (hc : isFormulaBlank c = true) (offset : Nat) (r : List Char) :
    lexFrom offset (c :: r) = lexFrom (offset + 1) r := by
  rw [lexFrom, if_pos hc]

theorem lexFrom_of_error {c : Char} (hc : ¬isFormulaBlank c = true) {offset : Nat} {r : List Char}
    {e : Error} (h : scanToken offset c r = .error e) : lexFrom offset (c :: r) = .error e := by
  rw [lexFrom, if_neg hc]
  split
  · next e' he =>
    rw [h] at he
    cases he
    rfl
  · next l hl =>
    rw [h] at hl
    cases hl

theorem lexFrom_of_token {c : Char} (hc : ¬isFormulaBlank c = true) {offset : Nat} {r : List Char}
    {l : Lexeme} (h : scanToken offset c r = .ok l) :
    lexFrom offset (c :: r) = (lexFrom (offset + l.text.length) l.rest).map
      fun ts => ⟨l.kind, offset, offset + l.text.length⟩ :: ts := by
  rw [lexFrom, if_neg hc]
  split
  · next e he =>
    rw [h] at he
    cases he
  · next l' hl =>
    rw [h] at hl
    cases hl
    rfl

/-- What holds of no text and is carried over blanks and tokens holds of every text. -/
theorem lexFrom_induction {P : Nat → List Char → Prop} (hnil : ∀ offset, P offset [])
    (hblank : ∀ offset c r, isFormulaBlank c = true → P (offset + 1) r → P offset (c :: r))
    (herror : ∀ offset c r e, ¬isFormulaBlank c = true → scanToken offset c r = .error e →
      P offset (c :: r))
    (htoken : ∀ offset c r l, ¬isFormulaBlank c = true → scanToken offset c r = .ok l →
      P (offset + l.text.length) l.rest → P offset (c :: r))
    (offset : Nat) (cs : List Char) : P offset cs := by
  induction offset, cs using lexFrom.induct with
  | case1 offset => exact hnil offset
  | case2 offset c r hc ih => exact hblank offset c r hc ih
  | case3 offset c r hc e he => exact herror offset c r e hc he
  | case4 offset c r hc l hl hlength stop =>
    rename_i ih
    exact htoken offset c r l hc hl ih

theorem le_start_of_reads {offset : Nat} {cs : List Char} {ts : List Token}
    (h : Reads offset cs ts) : ∀ t ∈ ts, offset ≤ t.start := by
  induction h with
  | nil =>
    intro t ht
    cases ht
  | blank _ _ ih =>
    intro t ht
    exact Nat.le_trans (Nat.le_add_right _ _) (ih t ht)
  | token _ _ ih =>
    intro t ht
    rcases List.mem_cons.mp ht with rfl | ht
    · exact Nat.le_refl _
    · exact Nat.le_trans (Nat.le_add_right _ _) (ih t ht)

theorem ends_of_blanks {blanks : List Char} (h : ∀ c ∈ blanks, isFormulaBlank c = true) :
    Ends isNumeralChar blanks ∧ Ends continuesIdentifier blanks := by
  have hhead : ∀ c ∈ blanks.head?, isNumeralChar c = false ∧ continuesIdentifier c = false := by
    intro c hc
    have hblank := h c (List.mem_of_mem_head? hc)
    rcases isFormulaBlank_cases hblank with rfl | rfl | rfl | rfl | rfl <;> exact ⟨rfl, rfl⟩
  exact ⟨fun c hc => (hhead c hc).1, fun c hc => (hhead c hc).2⟩

theorem lexFrom_blanks_append {blanks : List Char} (h : ∀ c ∈ blanks, isFormulaBlank c = true)
    (offset : Nat) (cs : List Char) :
    lexFrom offset (blanks ++ cs) = lexFrom (offset + blanks.length) cs := by
  induction blanks generalizing offset with
  | nil => rfl
  | cons c blanks ih =>
    have hc := h c List.mem_cons_self
    have htail := fun c' hc' => h c' (List.mem_cons_of_mem c hc')
    rw [List.cons_append, lexFrom_of_blank hc, ih htail, List.length_cons]
    congr 1
    omega

/-- Blanks behind a text neither add a token nor lengthen the last one. -/
theorem lexFrom_append_blanks {blanks : List Char} (h : ∀ c ∈ blanks, isFormulaBlank c = true)
    (offset : Nat) (cs : List Char) : lexFrom offset (cs ++ blanks) = lexFrom offset cs := by
  obtain ⟨hnumeral, hname⟩ := ends_of_blanks h
  induction offset, cs using lexFrom_induction with
  | hnil offset =>
    have hblanks := lexFrom_blanks_append h offset []
    rw [List.append_nil, lexFrom_nil] at hblanks
    rw [List.nil_append, hblanks, lexFrom_nil]
  | hblank offset c r hc ih =>
    rw [List.cons_append, lexFrom_of_blank hc, lexFrom_of_blank hc, ih]
  | herror offset c r e hc he =>
    have he' : scanToken offset c (r ++ blanks) = .error e := by
      rw [scanToken_append hnumeral hname, he]
      rfl
    rw [List.cons_append, lexFrom_of_error hc he, lexFrom_of_error hc he']
  | htoken offset c r l hc hl ih =>
    have hl' : scanToken offset c (r ++ blanks) = .ok { l with rest := l.rest ++ blanks } := by
      rw [scanToken_append hnumeral hname, hl]
      rfl
    rw [List.cons_append, lexFrom_of_token hc hl, lexFrom_of_token hc hl', ih]

end Motion.Formula
