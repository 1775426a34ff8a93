import Motion.Proofs.Formula.Lexing
import Motion.Proofs.Number.Longest

namespace Motion.Formula
open Motion.Number (isDigit Numeral Exponent Ends)

/-- The texts of tokens, and the kinds that they stand for. -/
inductive IsLexeme : Token.Kind → List Char → Prop
  | identifier {c : Char} {cs : List Char} (hc : startsIdentifier c = true)
      (hcs : ∀ d ∈ cs, continuesIdentifier d = true) :
      IsLexeme (.identifier (String.ofList (c :: cs))) (c :: cs)
  | number {n : Numeral} (hn : n.IsProper) : IsLexeme (.number n.value) n.text
  | symbol {c : Char} {kind : Token.Kind} (hc : Token.Kind.ofSymbol? c = some kind) :
      IsLexeme kind [c]

/-- No lexeme begins with a text and the character behind it. -/
def EndsLexeme (text rest : List Char) : Prop :=
  ∀ c ∈ rest.head?, ∀ kind longer, IsLexeme kind longer → ¬text ++ [c] <+: longer

/-- No lexeme stands at the front of a text. -/
def NoLexemeAt (cs : List Char) : Prop := ∀ kind text, IsLexeme kind text → ¬text <+: cs

theorem startsAt_of_startsIdentifier {c : Char} (hc : startsIdentifier c = true) (r : List Char) :
    Numeral.startsAt (c :: r) = false := by
  have hletter := toNat_of_startsIdentifier hc
  have hdot : c ≠ '.' := by
    rintro rfl
    cases hc
  have hdigit : isDigit c = false := by
    rw [← Bool.not_eq_true]
    intro hdigit
    have hrange := toNat_of_isDigit hdigit
    omega
  simp [Numeral.startsAt, hdot, hdigit]

theorem startsAt_of_symbol {c : Char} {kind : Token.Kind} (hc : Token.Kind.ofSymbol? c = some kind)
    (r : List Char) : Numeral.startsAt (c :: r) = false ∧ startsIdentifier c = false := by
  unfold Token.Kind.ofSymbol? at hc
  split at hc <;> first | exact ⟨rfl, rfl⟩ | cases hc

theorem startsAt_append {cs : List Char} (h : Numeral.startsAt cs = true) (rest : List Char) :
    Numeral.startsAt (cs ++ rest) = true := by
  cases cs with
  | nil => cases h
  | cons c r =>
    by_cases hdot : c = '.'
    · subst hdot
      cases r with
      | nil => cases h
      | cons d r => exact h
    · simpa [Numeral.startsAt, hdot] using h

theorem IsLexeme.ne_nil {kind : Token.Kind} {text : List Char} (h : IsLexeme kind text) :
    text ≠ [] := by
  cases h with
  | identifier _ _ => exact List.cons_ne_nil _ _
  | number hn =>
    intro hnil
    have hstart := Numeral.startsAt_text hn
    rw [hnil] at hstart
    cases hstart
  | symbol _ => exact List.cons_ne_nil _ _

/-- What begins as an identifier does is one. -/
theorem IsLexeme.continues {kind : Token.Kind} {c : Char} {r : List Char}
    (h : IsLexeme kind (c :: r)) (hc : startsIdentifier c = true) :
    ∀ d ∈ r, continuesIdentifier d = true := by
  generalize htext : c :: r = text at h
  cases h with
  | identifier _ hcs =>
    cases htext
    exact hcs
  | number hn =>
    have hstart := Numeral.startsAt_text hn
    rw [← htext, startsAt_of_startsIdentifier hc] at hstart
    cases hstart
  | symbol _ =>
    cases htext
    rintro d ⟨⟩

/-- What begins as a numeral does is one. -/
theorem IsLexeme.numeral {kind : Token.Kind} {text : List Char} (h : IsLexeme kind text)
    (hstart : Numeral.startsAt text = true) : ∃ n : Numeral, n.IsProper ∧ n.text = text := by
  cases h with
  | identifier hc _ =>
    rw [startsAt_of_startsIdentifier hc] at hstart
    cases hstart
  | number hn => exact ⟨_, hn, rfl⟩
  | symbol hc =>
    rw [(startsAt_of_symbol hc []).1] at hstart
    cases hstart

/-- What stands for a number is a numeral with its value. -/
theorem IsLexeme.value {x : Float} {text : List Char} (h : IsLexeme (.number x) text) :
    ∃ n : Numeral, n.IsProper ∧ n.text = text ∧ n.value = x := by
  generalize hkind : Token.Kind.number x = kind at h
  cases h with
  | identifier _ _ => cases hkind
  | number hn =>
    cases hkind
    exact ⟨_, hn, rfl, rfl⟩
  | symbol hc =>
    subst hkind
    unfold Token.Kind.ofSymbol? at hc
    split at hc <;> cases hc

theorem IsLexeme.text_identifier {name : String} {text : List Char}
    (h : IsLexeme (.identifier name) text) : text = name.toList := by
  generalize hkind : Token.Kind.identifier name = kind at h
  cases h with
  | identifier _ _ =>
    cases hkind
    exact String.toList_ofList.symm
  | number _ => cases hkind
  | symbol hc =>
    subst hkind
    unfold Token.Kind.ofSymbol? at hc
    split at hc <;> cases hc

theorem IsLexeme.text_slash {text : List Char} (h : IsLexeme .slash text) : text = ['/'] := by
  generalize hkind : Token.Kind.slash = kind at h
  cases h with
  | identifier _ _ => cases hkind
  | number _ => cases hkind
  | symbol hc =>
    subst hkind
    unfold Token.Kind.ofSymbol? at hc
    split at hc <;> cases hc
    rfl

/-- What begins with a symbol is the symbol. -/
theorem IsLexeme.eq_nil {kind kind' : Token.Kind} {c : Char} {r : List Char}
    (h : IsLexeme kind (c :: r)) (hc : Token.Kind.ofSymbol? c = some kind') : r = [] := by
  generalize htext : c :: r = text at h
  obtain ⟨hnumeral, hletter⟩ := startsAt_of_symbol hc r
  cases h with
  | identifier hc' _ =>
    cases htext
    rw [hletter] at hc'
    cases hc'
  | number hn =>
    have hstart := Numeral.startsAt_text hn
    rw [← htext, hnumeral] at hstart
    cases hstart
  | symbol _ =>
    cases htext
    rfl

theorem IsLexeme.isTokenChar {kind : Token.Kind} {text : List Char} (h : IsLexeme kind text) :
    ∀ c ∈ text, isTokenChar c = true := by
  cases h with
  | @identifier c cs hc hcs =>
    intro d hd
    have hname : continuesIdentifier d = true := by
      rcases List.mem_cons.mp hd with rfl | hd
      · simp [continuesIdentifier, hc]
      · exact hcs d hd
    simp [Formula.isTokenChar, hname]
  | number hn =>
    intro d hd
    simp [Formula.isTokenChar, Numeral.isNumeralChar_of_mem_text hn hd]
  | symbol hc =>
    intro d hd
    obtain rfl := List.mem_singleton.mp hd
    simp [Formula.isTokenChar, hc]

theorem IsLexeme.byteLength_eq {kind : Token.Kind} {text : List Char} (h : IsLexeme kind text) :
    byteLength text = text.length :=
  byteLength_of_ascii fun c hc => utf8Size_of_isTokenChar (h.isTokenChar c hc)

theorem IsLexeme.byteLength_pos {kind : Token.Kind} {text : List Char} (h : IsLexeme kind text) :
    0 < byteLength text := by
  rw [h.byteLength_eq]
  exact List.length_pos_iff.mpr h.ne_nil

theorem IsLexeme.spells {kind : Token.Kind} {text : List Char} (h : IsLexeme kind text) :
    Spells kind text := by
  cases h with
  | identifier _ _ => exact .identifier _
  | number _ => exact .number _
  | symbol hc => exact .symbol hc

theorem endsLexeme_identifier {c : Char} {cs rest : List Char} (hc : startsIdentifier c = true)
    (hrest : Ends continuesIdentifier rest) : EndsLexeme (c :: cs) rest := by
  rintro d hd kind longer hlonger ⟨more, rfl⟩
  have hcontinues : continuesIdentifier d = true := by
    apply hlonger.continues hc
    simp
  rw [hrest d hd] at hcontinues
  cases hcontinues

theorem endsLexeme_number {n : Numeral} {rest : List Char} (hn : n.IsProper)
    (hrest : Ends n.goesOn rest) : EndsLexeme n.text rest := by
  intro c hc kind longer hlonger hprefix
  have hstart : Numeral.startsAt longer = true := by
    obtain ⟨more, rfl⟩ := hprefix
    rw [List.append_assoc]
    exact startsAt_append (Numeral.startsAt_text hn) _
  obtain ⟨n', hn', rfl⟩ := hlonger.numeral hstart
  exact Numeral.not_prefix_of_ends hn (hrest c hc) hn' hprefix

theorem endsLexeme_symbol {c : Char} {kind : Token.Kind} (hc : Token.Kind.ofSymbol? c = some kind)
    (rest : List Char) : EndsLexeme [c] rest := by
  rintro d hd kind' longer hlonger ⟨more, rfl⟩
  cases hlonger.eq_nil hc

theorem ends_of_endsLexeme_identifier {c : Char} {cs rest : List Char}
    (hc : startsIdentifier c = true) (hcs : ∀ d ∈ cs, continuesIdentifier d = true)
    (h : EndsLexeme (c :: cs) rest) : Ends continuesIdentifier rest := by
  intro d hd
  rw [← Bool.not_eq_true]
  intro hcontinues
  have hlonger : ∀ d' ∈ cs ++ [d], continuesIdentifier d' = true := by
    intro d' hd'
    rcases List.mem_append.mp hd' with hd' | hd'
    · exact hcs d' hd'
    · rwa [List.mem_singleton.mp hd']
  exact h d hd _ _ (.identifier hc hlonger) (List.prefix_refl _)

theorem ends_of_endsLexeme_number {n : Numeral} {rest : List Char} (hn : n.IsProper)
    (h : EndsLexeme n.text rest) : Ends n.goesOn rest := by
  intro c hc
  rw [← Bool.not_eq_true]
  intro hgoes
  obtain ⟨longer, hlonger, hprefix⟩ := (Numeral.goesOn_iff hn).mp hgoes
  exact h c hc _ _ (.number hlonger) hprefix

theorem isLexeme_of_scanToken {offset : Nat} {c : Char} {r : List Char} {l : Lexeme}
    (h : scanToken offset c r = .ok l) : IsLexeme l.kind l.text ∧ EndsLexeme l.text l.rest := by
  unfold scanToken at h
  split at h
  · next hstart =>
    split at h
    · next n rest hscan =>
      cases h
      obtain ⟨hn, -, hends⟩ := (Numeral.scan_eq_found_iff hstart).mp hscan
      exact ⟨.number hn, endsLexeme_number hn hends⟩
    · cases h
  · split at h
    · next hletter =>
      cases h
      refine ⟨.identifier hletter ?_, endsLexeme_identifier hletter (Number.ends_dropWhile _ r)⟩
      intro d hd
      exact List.mem_takeWhile_imp hd
    · split at h
      · next kind hkind =>
        cases h
        exact ⟨.symbol hkind, endsLexeme_symbol hkind r⟩
      · cases h

theorem scanToken_of_isLexeme {kind : Token.Kind} {text rest : List Char} (h : IsLexeme kind text)
    (hends : EndsLexeme text rest) (offset : Nat) {c : Char} {r : List Char}
    (hsplit : text ++ rest = c :: r) : scanToken offset c r = .ok ⟨kind, text, rest⟩ := by
  cases h with
  | @identifier _ cs hc hcs =>
    cases hsplit
    have hrest := ends_of_endsLexeme_identifier hc hcs hends
    have hnumeral : ¬Numeral.startsAt (c :: (cs ++ rest)) = true := by
      rw [startsAt_of_startsIdentifier hc]
      exact Bool.false_ne_true
    have htake : (cs ++ rest).takeWhile continuesIdentifier = cs := hrest.takeWhile_run hcs
    have hdrop : (cs ++ rest).dropWhile continuesIdentifier = rest := hrest.dropWhile_run hcs
    change scanToken offset c (cs ++ rest) = _
    rw [scanToken, if_neg hnumeral, if_pos hc, htake, hdrop]
  | number hn =>
    have hstart := startsAt_append (Numeral.startsAt_text hn) rest
    have hscan := Numeral.scan_text_append hn (ends_of_endsLexeme_number hn hends)
    rw [hsplit] at hstart hscan
    rw [scanToken, if_pos hstart, hscan]
  | symbol hc =>
    cases hsplit
    obtain ⟨hnumeral, hletter⟩ := startsAt_of_symbol hc rest
    change scanToken offset c rest = _
    rw [scanToken, hnumeral, hletter, hc]
    rfl

/-- The lexer takes the lexeme that nothing behind it goes on with. -/
theorem scanToken_eq_ok_iff {offset : Nat} {c : Char} {r : List Char} {l : Lexeme} :
    scanToken offset c r = .ok l ↔
      IsLexeme l.kind l.text ∧ EndsLexeme l.text l.rest ∧ l.text ++ l.rest = c :: r := by
  constructor
  · intro h
    obtain ⟨hkind, hends⟩ := isLexeme_of_scanToken h
    exact ⟨hkind, hends, text_append_rest_of_scanToken h⟩
  · rintro ⟨hkind, hends, hsplit⟩
    exact scanToken_of_isLexeme hkind hends offset hsplit

/-- A lexeme stands for one kind of token. -/
theorem IsLexeme.unique {kind kind' : Token.Kind} {text : List Char} (h : IsLexeme kind text)
    (h' : IsLexeme kind' text) : kind = kind' := by
  have hends : EndsLexeme text [] := by
    rintro c ⟨⟩
  obtain ⟨c, r, htext⟩ := List.exists_cons_of_ne_nil h.ne_nil
  have hsplit : text ++ [] = c :: r := by rw [List.append_nil, htext]
  have hscan := scanToken_of_isLexeme h hends 0 hsplit
  rw [scanToken_of_isLexeme h' hends 0 hsplit] at hscan
  cases hscan
  rfl

/-- Why no token is found: no lexeme begins with the first character, or an exponent marker behind a
mantissa begins no exponent. The number is the place of the fault, counted from the front. -/
inductive Faulty : List Char → Nat → Reason → Prop
  | character {c : Char} {r : List Char} (hblank : isFormulaBlank c = false)
      (h : NoLexemeAt (c :: r)) : Faulty (c :: r) 0 (.unexpectedCharacter c)
  | exponent {m : Numeral} {marker : Char} {r : List Char} (hm : m.IsProper)
      (hnone : m.exponent = none) (hmarker : marker = 'e' ∨ marker = 'E')
      (h : ∀ e : Exponent, e.IsProper → ¬e.text <+: marker :: r) :
      Faulty (m.text ++ marker :: r) (byteLength m.text) .missingExponent

theorem noLexemeAt_of_none {c : Char} {r : List Char} (hnumeral : Numeral.startsAt (c :: r) = false)
    (hletter : startsIdentifier c = false) (hsymbol : Token.Kind.ofSymbol? c = none) :
    NoLexemeAt (c :: r) := by
  rintro kind text hkind ⟨more, hmore⟩
  cases hkind with
  | identifier hc _ =>
    cases hmore
    rw [hletter] at hc
    cases hc
  | number hn =>
    have hstart := startsAt_append (Numeral.startsAt_text hn) more
    rw [hmore, hnumeral] at hstart
    cases hstart
  | symbol hc =>
    cases hmore
    rw [hsymbol] at hc
    cases hc

theorem byteLength_mantissa {m : Numeral} (hm : m.IsProper) : byteLength m.text = m.text.length := by
  apply byteLength_of_ascii
  intro c hc
  have hnumeral := Numeral.isNumeralChar_of_mem_text hm hc
  apply utf8Size_of_isTokenChar
  simp [isTokenChar, hnumeral]

theorem faulty_of_scanToken {offset : Nat} {c : Char} {r : List Char} {e : Error}
    (hblank : ¬isFormulaBlank c = true) (h : scanToken offset c r = .error e) :
    ∃ k, e.offset = offset + k ∧ Faulty (c :: r) k e.reason := by
  unfold scanToken at h
  split at h
  · next hstart =>
    split at h
    · cases h
    · next m hscan =>
      cases h
      obtain ⟨hm, hnone, marker, tail, hsplit, hmarker, hno⟩ := Numeral.marker_of_scan hstart hscan
      refine ⟨m.text.length, rfl, ?_⟩
      rw [hsplit, ← byteLength_mantissa hm]
      exact .exponent hm hnone hmarker hno
  · next hnumeral =>
    split at h
    · cases h
    · next hletter =>
      split at h
      · cases h
      · next hsymbol =>
        cases h
        refine ⟨0, rfl, .character (Bool.eq_false_iff.mpr hblank) ?_⟩
        exact noLexemeAt_of_none (Bool.eq_false_iff.mpr hnumeral) (Bool.eq_false_iff.mpr hletter) hsymbol

end Motion.Formula
