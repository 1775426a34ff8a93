import Motion.Formula.Parser
import Motion.Proofs.Formula.Lexemes

namespace Motion.Formula
open Motion.Number (Numeral)

/-- Whether a byte of a text, or the one behind its last, is where a character begins. -/
def IsBoundary (cs : List Char) (n : Nat) : Prop := String.Pos.Raw.IsValid (String.ofList cs) ⟨n⟩

theorem byteLength_append (cs cs' : List Char) :
    byteLength (cs ++ cs') = byteLength cs + byteLength cs' := by
  unfold byteLength
  rw [String.ofList_append, String.utf8ByteSize_append]

theorem byteLength_head (c : Char) (cs : List Char) :
    byteLength (c :: cs) = byteLength [c] + byteLength cs := byteLength_append [c] cs

theorem isBoundary_append (before after : List Char) :
    IsBoundary (before ++ after) (byteLength before) := by
  apply String.Pos.Raw.isValid_iff_exists_append.mpr
  exact ⟨String.ofList before, String.ofList after, String.ofList_append, rfl⟩

theorem byteLength_blank {c : Char} (hc : isFormulaBlank c = true) : byteLength [c] = 1 := by
  rw [byteLength_cons, utf8Size_of_isFormulaBlank hc]
  rfl

/-- A text that begins at a byte is made of blanks and lexemes, and no lexeme goes on with what
follows it, be it in the text or behind it. -/
inductive Tokenizes (behind : List Char) : Nat → List Char → List Token → Prop
  | nil {offset : Nat} : Tokenizes behind offset [] []
  | blank {offset : Nat} {c : Char} {cs : List Char} {ts : List Token}
      (hc : isFormulaBlank c = true) (h : Tokenizes behind (offset + byteLength [c]) cs ts) :
      Tokenizes behind offset (c :: cs) ts
  | token {offset : Nat} {kind : Token.Kind} {text rest : List Char} {ts : List Token}
      (hkind : IsLexeme kind text) (hends : EndsLexeme text (rest ++ behind))
      (h : Tokenizes behind (offset + byteLength text) rest ts) :
      Tokenizes behind offset (text ++ rest) (⟨kind, offset, offset + byteLength text⟩ :: ts)

/-- Without what stands behind a text, its last lexeme ends all the more. -/
theorem EndsLexeme.of_append {text rest behind : List Char} (h : EndsLexeme text (rest ++ behind)) :
    EndsLexeme text rest := by
  intro c hc
  apply h c
  rw [List.head?_append, Option.mem_def.mp hc]
  rfl

theorem lexFrom_of_tokenizes {behind cs : List Char} {offset : Nat} {ts : List Token}
    (h : Tokenizes behind offset cs ts) : lexFrom offset cs = .ok ts := by
  induction h with
  | nil => exact lexFrom_nil _
  | blank hc _ ih =>
    rw [lexFrom_of_blank hc, ← byteLength_blank hc]
    exact ih
  | @token offset kind text rest ts hkind hends _ ih =>
    obtain ⟨c, r, htext⟩ := List.exists_cons_of_ne_nil hkind.ne_nil
    have hsplit : text ++ rest = c :: (r ++ rest) := by rw [htext, List.cons_append]
    have hscan := scanToken_of_isLexeme hkind hends.of_append offset hsplit
    have hblank : ¬isFormulaBlank c = true := by
      intro hblank
      have htoken := hkind.isTokenChar c (htext ▸ List.mem_cons_self)
      have hfalse := isBlank_of_isTokenChar htoken
      rw [isBlank_of_isFormulaBlank hblank] at hfalse
      cases hfalse
    rw [hsplit, lexFrom_of_token hblank hscan, ← hkind.byteLength_eq, ih]
    rfl

/-- A text is cut into tokens from end to end, or up to where no token is found. -/
theorem lexFrom_cases (offset : Nat) (cs : List Char) :
    (∃ ts, Tokenizes [] offset cs ts) ∨
      ∃ before rest ts k reason, cs = before ++ rest ∧ Tokenizes rest offset before ts ∧
        Faulty rest k reason ∧
        lexFrom offset cs = .error ⟨offset + byteLength before + k, reason⟩ := by
  induction offset, cs using lexFrom_induction with
  | hnil offset => exact Or.inl ⟨[], .nil⟩
  | hblank offset c r hc ih =>
    rw [← byteLength_blank hc] at ih
    rcases ih with ⟨ts, hts⟩ | ⟨before, rest, ts, k, reason, rfl, hts, hfaulty, herror⟩
    · exact Or.inl ⟨ts, .blank hc hts⟩
    · refine Or.inr ⟨c :: before, rest, ts, k, reason, rfl, .blank hc hts, hfaulty, ?_⟩
      rw [lexFrom_of_blank hc, ← byteLength_blank hc, herror, byteLength_head c before,
        Nat.add_assoc offset]
  | herror offset c r e hc he =>
    obtain ⟨k, hk, hfaulty⟩ := faulty_of_scanToken hc he
    refine Or.inr ⟨[], c :: r, [], k, e.reason, rfl, .nil, hfaulty, ?_⟩
    rw [lexFrom_of_error hc he]
    exact congrArg Except.error (congrArg (Error.mk · e.reason) hk)
  | htoken offset c r l hc hl ih =>
    obtain ⟨hkind, hends, hsplit⟩ := scanToken_eq_ok_iff.mp hl
    rw [← hkind.byteLength_eq] at ih
    rcases ih with ⟨ts, hts⟩ | ⟨before, rest, ts, k, reason, hrest, hts, hfaulty, herror⟩
    · rw [← hsplit]
      rw [← List.append_nil l.rest] at hends
      exact Or.inl ⟨_, .token hkind hends hts⟩
    · rw [hrest] at hends
      refine Or.inr ⟨l.text ++ before, rest, _, k, reason, ?_, .token hkind hends hts, hfaulty, ?_⟩
      · rw [← hsplit, hrest, List.append_assoc]
      · rw [lexFrom_of_token hc hl, ← hkind.byteLength_eq, herror, byteLength_append,
          Nat.add_assoc offset]
        rfl

theorem lexFrom_eq_ok_iff {offset : Nat} {cs : List Char} {ts : List Token} :
    lexFrom offset cs = .ok ts ↔ Tokenizes [] offset cs ts := by
  constructor
  · intro h
    rcases lexFrom_cases offset cs with ⟨ts', hts'⟩ | ⟨_, _, _, _, _, _, _, _, herror⟩
    · rw [lexFrom_of_tokenizes hts'] at h
      cases h
      exact hts'
    · rw [herror] at h
      cases h
  · exact lexFrom_of_tokenizes

theorem reads_of_tokenizes {behind cs : List Char} {offset : Nat} {ts : List Token}
    (h : Tokenizes behind offset cs ts) : Reads offset cs ts := by
  induction h with
  | nil => exact .nil
  | blank hc _ ih => exact .blank hc ih
  | token hkind _ _ ih => exact .token hkind.spells ih

theorem reads_of_lex {cs : List Char} {ts : List Token} (h : lex cs = .ok ts) : Reads 0 cs ts :=
  reads_of_tokenizes (lexFrom_eq_ok_iff.mp h)

/-- No blank but those of formulas stands among tokens. -/
theorem isFormulaBlank_of_mem_lexFrom {offset : Nat} {cs : List Char} {ts : List Token}
    (h : lexFrom offset cs = .ok ts) {c : Char} (hc : c ∈ cs) (hblank : Text.isBlank c = true) :
    isFormulaBlank c = true := by
  have htokens := lexFrom_eq_ok_iff.mp h
  clear h
  induction htokens with
  | nil => cases hc
  | blank hc₀ _ ih =>
    rcases List.mem_cons.mp hc with rfl | hc
    · exact hc₀
    · exact ih hc
  | token hkind _ _ ih =>
    rcases List.mem_append.mp hc with hc | hc
    · rw [isBlank_of_isTokenChar (hkind.isTokenChar c hc)] at hblank
      cases hblank
    · exact ih hc

/-- The texts that are one token, and a number, are the numerals. -/
theorem lex_eq_number_iff {cs : List Char} {x : Float} :
    lex cs = .ok [⟨.number x, 0, cs.length⟩] ↔
      ∃ n : Numeral, n.IsProper ∧ n.text = cs ∧ n.value = x := by
  rw [lex, lexFrom_eq_ok_iff]
  constructor
  · intro h
    generalize hts : [(⟨.number x, 0, cs.length⟩ : Token)] = ts at h
    cases h with
    | nil => cases hts
    | blank hc h =>
      have hlow := le_start_of_reads (reads_of_tokenizes h)
      rw [← hts, byteLength_blank hc] at hlow
      cases hlow _ List.mem_cons_self
    | @token _ kind text rest ts hkind _ h =>
      obtain ⟨htoken, rfl⟩ := List.cons.inj hts
      obtain rfl : .number x = kind := congrArg Token.kind htoken
      have hstop : (text ++ rest).length = 0 + byteLength text := congrArg Token.stop htoken
      have hrest : rest = [] := by
        rw [List.length_append, hkind.byteLength_eq] at hstop
        apply List.length_eq_zero_iff.mp
        omega
      obtain ⟨n, hn, htext, hvalue⟩ := hkind.value
      refine ⟨n, hn, ?_, hvalue⟩
      rw [hrest, List.append_nil, htext]
  · rintro ⟨n, hn, rfl, rfl⟩
    have hends : EndsLexeme n.text ([] ++ []) := by
      rintro c ⟨⟩
    have htoken : Tokenizes [] 0 (n.text ++ []) _ := .token (.number hn) hends .nil
    rwa [List.append_nil, (IsLexeme.number hn).byteLength_eq, Nat.zero_add] at htoken

/-- A token has the bytes of a lexeme of its kind in a text, and no lexeme goes on with what stands
behind it. -/
def Token.StandsIn (cs : List Char) (t : Token) : Prop :=
  ∃ before text after, cs = before ++ text ++ after ∧ t.start = byteLength before ∧
    t.stop = byteLength (before ++ text) ∧ IsLexeme t.kind text ∧ EndsLexeme text after

/-- Tokens cover a text: each has a place of its own there, in order, and all else is blank. -/
structure Covers (cs : List Char) (ts : List Token) : Prop where
  standsIn : ∀ t ∈ ts, t.StandsIn cs
  nonempty : ∀ t ∈ ts, t.start < t.stop
  disjoint : ts.Pairwise fun a b => a.stop ≤ b.start
  blank : ∀ i < byteLength cs, (∀ t ∈ ts, ¬(t.start ≤ i ∧ i < t.stop)) →
    ∃ before c after, cs = before ++ c :: after ∧ i = byteLength before ∧ isFormulaBlank c = true

theorem Token.StandsIn.boundaries {cs : List Char} {t : Token} (h : t.StandsIn cs) :
    IsBoundary cs t.start ∧ IsBoundary cs t.stop := by
  obtain ⟨before, text, after, rfl, hstart, hstop, -, -⟩ := h
  constructor
  · rw [hstart, List.append_assoc]
    exact isBoundary_append _ _
  · rw [hstop]
    exact isBoundary_append _ _

theorem Token.StandsIn.start_lt_stop {cs : List Char} {t : Token} (h : t.StandsIn cs) :
    t.start < t.stop := by
  obtain ⟨before, text, after, -, hstart, hstop, hkind, -⟩ := h
  have hpos := hkind.byteLength_pos
  rw [hstart, hstop, byteLength_append]
  omega

section
variable {behind cs : List Char} {offset : Nat} {ts : List Token}

theorem place_of_tokenizes (h : Tokenizes behind offset cs ts) : ∀ t ∈ ts, ∃ before text after,
    cs ++ behind = before ++ text ++ after ∧ t.start = offset + byteLength before ∧
      t.stop = offset + byteLength (before ++ text) ∧ IsLexeme t.kind text ∧
        EndsLexeme text after := by
  induction h with
  | nil => rintro t ⟨⟩
  | @blank offset c cs ts _ _ ih =>
    intro t ht
    obtain ⟨before, text, after, hcs, hstart, hstop, hkind, hends⟩ := ih t ht
    refine ⟨c :: before, text, after, congrArg (c :: ·) hcs, ?_, ?_, hkind, hends⟩
    · rw [hstart, byteLength_head c before, Nat.add_assoc]
    · rw [hstop, List.cons_append, byteLength_head c (before ++ text), Nat.add_assoc]
  | @token offset kind text rest ts hkind hends _ ih =>
    intro t ht
    rcases List.mem_cons.mp ht with rfl | ht
    · refine ⟨[], text, rest ++ behind, ?_, rfl, rfl, hkind, hends⟩
      rw [List.nil_append, List.append_assoc]
    · obtain ⟨before, text', after, hcs, hstart, hstop, hkind', hends'⟩ := ih t ht
      refine ⟨text ++ before, text', after, ?_, ?_, ?_, hkind', hends'⟩
      · simp only [List.append_assoc, hcs]
      · rw [hstart, byteLength_append, Nat.add_assoc]
      · rw [hstop, List.append_assoc, byteLength_append text, Nat.add_assoc]

theorem standsIn_of_tokenizes (h : Tokenizes behind 0 cs ts) :
    ∀ t ∈ ts, t.StandsIn (cs ++ behind) := by
  intro t ht
  obtain ⟨before, text, after, hcs, hstart, hstop, hkind, hends⟩ := place_of_tokenizes h t ht
  rw [Nat.zero_add] at hstart hstop
  exact ⟨before, text, after, hcs, hstart, hstop, hkind, hends⟩

theorem pairwise_of_tokenizes (h : Tokenizes behind offset cs ts) :
    ts.Pairwise fun a b => a.stop ≤ b.start := by
  induction h with
  | nil => exact .nil
  | blank _ _ ih => exact ih
  | token _ _ h ih =>
    exact .cons (le_start_of_reads (reads_of_tokenizes h)) ih

theorem blank_of_tokenizes (h : Tokenizes behind offset cs ts) {i : Nat} (hlow : offset ≤ i)
    (hhigh : i < offset + byteLength cs) (houtside : ∀ t ∈ ts, ¬(t.start ≤ i ∧ i < t.stop)) :
    ∃ before c after, cs = before ++ c :: after ∧ i = offset + byteLength before ∧
      isFormulaBlank c = true := by
  induction h with
  | nil =>
    have hnone : byteLength [] = 0 := rfl
    omega
  | @blank offset c cs ts hc _ ih =>
    rw [byteLength_head c cs] at hhigh
    by_cases hfirst : i = offset
    · exact ⟨[], c, cs, rfl, hfirst, hc⟩
    · have hone := byteLength_blank hc
      obtain ⟨before, c', after, rfl, hi, hc'⟩ := ih (by omega) (by omega) houtside
      refine ⟨c :: before, c', after, rfl, ?_, hc'⟩
      rw [hi, byteLength_head c before, Nat.add_assoc]
  | @token offset kind text rest ts _ _ _ ih =>
    obtain ⟨hfirst, hlater⟩ := List.forall_mem_cons.mp houtside
    rw [byteLength_append] at hhigh
    have hbehind : offset + byteLength text ≤ i := by
      by_contra hinside
      exact hfirst ⟨hlow, Nat.lt_of_not_le hinside⟩
    obtain ⟨before, c, after, rfl, hi, hc⟩ := ih hbehind (by omega) hlater
    refine ⟨text ++ before, c, after, (List.append_assoc _ _ _).symm, ?_, hc⟩
    rw [hi, byteLength_append, Nat.add_assoc]

end

theorem covers_of_tokenizes {cs : List Char} {ts : List Token} (h : Tokenizes [] 0 cs ts) :
    Covers cs ts := by
  have hstands := standsIn_of_tokenizes h
  rw [List.append_nil] at hstands
  refine ⟨hstands, fun t ht => (hstands t ht).start_lt_stop, pairwise_of_tokenizes h, ?_⟩
  intro i hi houtside
  have hblank := blank_of_tokenizes h (Nat.zero_le i) (by rwa [Nat.zero_add]) houtside
  simpa only [Nat.zero_add] using hblank

/-- The text of some tokens is ASCII throughout. -/
theorem byteLength_of_tokenizes {behind cs : List Char} {offset : Nat} {ts : List Token}
    (h : Tokenizes behind offset cs ts) : byteLength cs = cs.length := by
  induction h with
  | nil => rfl
  | blank hc _ ih => rw [byteLength_head, byteLength_blank hc, ih, List.length_cons, Nat.add_comm]
  | token hkind _ _ ih => rw [byteLength_append, hkind.byteLength_eq, ih, List.length_append]

theorem isBoundary_of_faulty {rest : List Char} {k : Nat} {reason : Reason}
    (h : Faulty rest k reason) (before : List Char) :
    IsBoundary (before ++ rest) (byteLength before + k) := by
  cases h with
  | character _ _ => exact isBoundary_append before _
  | exponent _ _ _ _ =>
    rw [← byteLength_append, ← List.append_assoc]
    exact isBoundary_append _ _

/-- What is in front of a fault is cut into tokens, on its own as well as in front of the fault. -/
theorem faulty_of_lex_error {cs : List Char} {e : Error} (h : lex cs = .error e) :
    ∃ before rest ts k, cs = before ++ rest ∧ lex before = .ok ts ∧ (∀ t ∈ ts, t.StandsIn cs) ∧
      e.offset = byteLength before + k ∧ Faulty rest k e.reason := by
  rcases lexFrom_cases 0 cs with ⟨ts, hts⟩ | ⟨before, rest, ts, k, reason, hcs, hts, hfaulty, herror⟩
  · rw [lex, lexFrom_of_tokenizes hts] at h
    cases h
  · rw [lex, herror, Nat.zero_add] at h
    cases h
    have hstands := standsIn_of_tokenizes hts
    rw [← hcs] at hstands
    exact ⟨before, rest, ts, k, hcs, lexFrom_of_tokenizes hts, hstands, rfl, hfaulty⟩

/-- A text is cut into tokens that cover it, as long as can be and of the kinds that their texts
stand for, and the parser finds the end of the text behind its last byte. Otherwise what is in front
of the first fault is cut into tokens, and the fault is at a character that begins no lexeme or at a
marker that begins no exponent. All places are between characters, and every numeral that is found
reads as a number. -/
theorem lex_lossless (src : String) :
    (∀ ts, lex src.toList = .ok ts →
      Covers src.toList ts ∧ parse src.toList = parseTokens src.utf8ByteSize ts) ∧
    (∀ e, lex src.toList = .error e → ∃ before rest ts k, src.toList = before ++ rest ∧
      lex before = .ok ts ∧ (∀ t ∈ ts, t.StandsIn src.toList) ∧
      e.offset = byteLength before + k ∧ Faulty rest k e.reason ∧
      IsBoundary src.toList (byteLength before) ∧ IsBoundary src.toList e.offset) ∧
    (∀ t : Token, t.StandsIn src.toList →
      IsBoundary src.toList t.start ∧ IsBoundary src.toList t.stop) ∧
    (∀ kind kind' text, IsLexeme kind text → IsLexeme kind' text → kind = kind') ∧
    ∀ cs n rest, Numeral.startsAt cs = true → Numeral.scan cs = .found n rest →
      Number.readFloat? n.text = some n.value := by
  refine ⟨?_, ?_, ?_, ?_, ?_⟩
  · intro ts h
    have htokens := lexFrom_eq_ok_iff.mp h
    have hsize : src.toList.length = src.utf8ByteSize := by
      rw [← byteLength_of_tokenizes htokens, byteLength, String.ofList_toList]
    refine ⟨covers_of_tokenizes htokens, ?_⟩
    rw [parse, h, hsize]
  · intro e h
    obtain ⟨before, rest, ts, k, hsrc, hbefore, hstands, hoffset, hfaulty⟩ := faulty_of_lex_error h
    have hfault := isBoundary_of_faulty hfaulty before
    have hfront := isBoundary_append before rest
    rw [← hsrc] at hfault hfront
    rw [← hoffset] at hfault
    exact ⟨before, rest, ts, k, hsrc, hbefore, hstands, hoffset, hfaulty, hfront, hfault⟩
  · intro t h
    exact h.boundaries
  · intro kind kind' text h h'
    exact h.unique h'
  · intro cs n rest hstart hscan
    exact Numeral.readFloat?_text (Numeral.isProper_of_scan hstart hscan)

/-- A product of two names, and a text that breaks off at an exponent. -/
theorem lex_lossless_product :
    Covers "x1 *\ny".toList
      [⟨.identifier "x1", 0, 2⟩, ⟨.star, 3, 4⟩, ⟨.identifier "y", 5, 6⟩] ∧
    ∃ before rest ts k, "a 2e+".toList = before ++ rest ∧ lex before = .ok ts ∧
      3 = byteLength before + k ∧ Faulty rest k .missingExponent := by
  have hcut : lex "x1 *\ny".toList =
      .ok [⟨.identifier "x1", 0, 2⟩, ⟨.star, 3, 4⟩, ⟨.identifier "y", 5, 6⟩] := by cbv
  have hfault : lex "a 2e+".toList = .error ⟨3, .missingExponent⟩ := by cbv
  refine ⟨((lex_lossless "x1 *\ny").1 _ hcut).1, ?_⟩
  obtain ⟨before, rest, ts, k, hsrc, hbefore, _, hoffset, hfaulty, _⟩ :=
    (lex_lossless "a 2e+").2.1 _ hfault
  exact ⟨before, rest, ts, k, hsrc, hbefore, hoffset, hfaulty⟩

end Motion.Formula
