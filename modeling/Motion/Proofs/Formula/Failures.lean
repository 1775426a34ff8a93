import Motion.Formula.Evaluate
import Motion.Proofs.Formula.Grammar
import Motion.Proofs.Formula.Spans

namespace Motion.Formula

/-- Failures over the characters of a text. -/
def Reason.isLexical : Reason → Bool
  | unexpectedCharacter _ => true
  | missingExponent => true
  | _ => false

/-- Failures over the tokens of a text. -/
def Reason.isSyntactic : Reason → Bool
  | empty => true
  | unexpectedEnd => true
  | unexpectedToken _ => true
  | expectedParen _ => true
  | expectedEnd _ => true
  | functionCall _ => true
  | tooDeep => true
  | tooManyOperators => true
  | _ => false

theorem Reason.kind_of_isLexical {r : Reason} (h : r.isLexical = true) : r.kind = .malformed := by
  cases r <;> first | rfl | cases h

theorem Reason.kind_of_isSyntactic {r : Reason} (h : r.isSyntactic = true) :
    r.kind = .malformed := by
  cases r <;> first | rfl | cases h

theorem Faulty.isLexical {rest : List Char} {k : Nat} {reason : Reason}
    (h : Faulty rest k reason) : reason.isLexical = true := by
  cases h <;> rfl

theorem lexical_of_lex {cs : List Char} {e : Error} (h : lex cs = .error e) :
    e.reason.isLexical = true := by
  obtain ⟨_, _, _, _, -, -, -, -, hfaulty⟩ := faulty_of_lex_error h
  exact hfaulty.isLexical

/-- A character that is refused at the front of a text is the first one of the text. -/
theorem head_of_lex_error {cs : List Char} {c : Char}
    (h : lex cs = .error ⟨0, .unexpectedCharacter c⟩) : ∃ tail, cs = c :: tail := by
  obtain ⟨before, rest, ts, k, rfl, -, -, hoffset, hfaulty⟩ := faulty_of_lex_error h
  change 0 = byteLength before + k at hoffset
  cases before with
  | cons c₀ before =>
    have hpos := c₀.utf8Size_pos
    rw [byteLength_cons] at hoffset
    omega
  | nil =>
    cases hfaulty with
    | character _ _ => exact ⟨_, rfl⟩

/-- Whatever a parser refuses, it refuses for the tokens that it finds. -/
def Refuses (p : Parser Expr) : Prop := ∀ c e, p c = .error e → e.reason.isSyntactic = true

/-- A byte at which a text can be refused: where one of its tokens begins, or the end. -/
def Cursor.Offers (c : Cursor) (offset : Nat) : Prop :=
  offset = c.stop ∨ ∃ t ∈ c.tokens, offset = t.start

/-- Some tokens are taken off the front. -/
def Cursor.Leaves (c c' : Cursor) : Prop := c'.stop = c.stop ∧ c'.tokens <:+ c.tokens

theorem Cursor.leaves_tail {c : Cursor} {t : Token} {ts : List Token} (h : c.tokens = t :: ts)
    (n : Nat) : c.Leaves ⟨ts, c.stop, n⟩ := by
  refine ⟨rfl, ?_⟩
  rw [h]
  exact List.suffix_cons t ts

theorem Cursor.offers_head {c : Cursor} {t : Token} {ts : List Token} (h : c.tokens = t :: ts) :
    c.Offers t.start := by
  refine Or.inr ⟨t, ?_, rfl⟩
  rw [h]
  exact List.mem_cons_self

theorem Cursor.Leaves.trans {c₁ c₂ c₃ : Cursor} (h : c₁.Leaves c₂) (h' : c₂.Leaves c₃) :
    c₁.Leaves c₃ := ⟨h'.1.trans h.1, h'.2.trans h.2⟩

theorem Cursor.Leaves.offers {c c' : Cursor} (h : c.Leaves c') {offset : Nat}
    (hoffers : c'.Offers offset) : c.Offers offset := by
  rcases hoffers with hstop | ⟨t, ht, hstart⟩
  · exact Or.inl (hstop.trans h.1)
  · exact Or.inr ⟨t, h.2.subset ht, hstart⟩

/-- A parser refuses for the tokens that it finds, and at one of them or at the end of the text. -/
structure Located (p : Parser Expr) : Prop where
  refuses : Refuses p
  offers : ∀ {c e}, p c = .error e → c.Offers e.offset
  leaves : ∀ {c e c'}, p c = .ok (e, c') → c.Leaves c'

/-- Both parts of where and why a parser refuses follow from one case analysis. -/
theorem Located.of_cases {p : Parser Expr}
    (herror : ∀ c e, p c = .error e → e.reason.isSyntactic = true ∧ c.Offers e.offset)
    (hok : ∀ c e c', p c = .ok (e, c') → c.Leaves c') : Located p :=
  ⟨fun c e h => (herror c e h).1, fun h => (herror _ _ h).2, fun h => hok _ _ _ h⟩

/-- What is refused behind some tokens is refused behind fewer. -/
theorem Located.behind {p : Parser Expr} (hp : Located p) {c c₁ : Cursor} {e : Error}
    (hleaves : c.Leaves c₁) (h : p c₁ = .error e) :
    e.reason.isSyntactic = true ∧ c.Offers e.offset :=
  ⟨hp.refuses _ _ h, hleaves.offers (hp.offers h)⟩

variable {operator? : Token.Kind → Option Operator} {p : Parser Expr}

theorem located_chainFrom (hp : Located p) (rounds : Nat) (left : Expr) :
    Located (chainFrom operator? p rounds left) := by
  induction rounds generalizing left with
  | zero =>
    apply Located.of_cases
    · intro c e h
      unfold chainFrom at h
      split at h
      · cases h
      · next htokens =>
        split at h
        · cases h
        · cases h
          exact ⟨rfl, Cursor.offers_head htokens⟩
    · intro c e c' h
      rcases chainFrom_cases h with ⟨-, rfl⟩ | ⟨_, _, _, _, _, _, hrounds, _⟩
      · exact ⟨rfl, List.suffix_refl _⟩
      · cases hrounds
  | succ rounds ih =>
    apply Located.of_cases
    · intro c e h
      unfold chainFrom at h
      split at h
      · cases h
      · next htokens =>
        split at h
        · cases h
        · dsimp only at h
          split at h
          · cases h
            exact ⟨rfl, Cursor.offers_head htokens⟩
          · have htail := Cursor.leaves_tail htokens (c.operators - 1)
            split at h
            · next hoperand =>
              cases h
              exact hp.behind htail hoperand
            · next hoperand => exact (ih _).behind (htail.trans (hp.leaves hoperand)) h
    · intro c e c' h
      rcases chainFrom_cases h with ⟨-, rfl⟩ |
        ⟨t, ts, op, rounds', right, c₁, hrounds, htokens, -, -, hright, hrest⟩
      · exact ⟨rfl, List.suffix_refl _⟩
      · cases hrounds
        have htail := Cursor.leaves_tail htokens (c.operators - 1)
        exact (htail.trans (hp.leaves hright)).trans ((ih _).leaves hrest)

theorem located_chain (hp : Located p) : Located (chain operator? p) := by
  apply Located.of_cases
  · intro c e h
    unfold chain at h
    split at h
    · next hoperand =>
      cases h
      exact ⟨hp.refuses _ _ hoperand, hp.offers hoperand⟩
    · next hoperand => exact (located_chainFrom hp _ _).behind (hp.leaves hoperand) h
  · intro c e c' h
    unfold chain at h
    split at h
    · cases h
    · next hoperand => exact (hp.leaves hoperand).trans ((located_chainFrom hp _ _).leaves h)

theorem located_sum (hp : Located p) : Located (sum p) := located_chain (located_chain hp)

theorem located_closeParen (e : Expr) : Located (closeParen e) := by
  apply Located.of_cases
  · intro c err h
    unfold closeParen at h
    split at h
    · cases h
      exact ⟨rfl, Or.inl rfl⟩
    · cases h
    · next htokens =>
      cases h
      exact ⟨rfl, Cursor.offers_head htokens⟩
  · intro c e' c' h
    unfold closeParen at h
    split at h
    · cases h
    · next htokens =>
      cases h
      exact Cursor.leaves_tail htokens _
    · cases h

/-- Within one more parenthesis or minus sign an operand is refused as the shallower ones are. -/
theorem located_operand_of {depth : Nat}
    (ih : ∀ depth', depth = depth' + 1 → Located (operand depth')) : Located (operand depth) := by
  apply Located.of_cases
  · intro c e h
    unfold operand at h
    split at h
    · cases h
      exact ⟨rfl, Or.inl rfl⟩
    · next htokens =>
      have hhead := Cursor.offers_head htokens
      have htail := Cursor.leaves_tail htokens c.operators
      dsimp only at h
      split at h
      · cases h
      · split at h
        · cases h
          exact ⟨rfl, hhead⟩
        · cases h
      · cases depth with
        | zero =>
          cases h
          exact ⟨rfl, hhead⟩
        | succ depth =>
          dsimp only at h
          split at h
          · next hinner =>
            cases h
            exact (ih depth rfl).behind htail hinner
          · cases h
      · cases depth with
        | zero =>
          cases h
          exact ⟨rfl, hhead⟩
        | succ depth =>
          have hsum := located_sum (ih depth rfl)
          dsimp only at h
          split at h
          · next hinner =>
            cases h
            exact hsum.behind htail hinner
          · next hinner => exact (located_closeParen _).behind (htail.trans (hsum.leaves hinner)) h
      · cases h
        exact ⟨rfl, hhead⟩
  · intro c e c' h
    obtain ⟨t, ts, htokens, hcases⟩ := operand_cases h
    have htail := Cursor.leaves_tail htokens c.operators
    rcases hcases with ⟨_, _, _, rfl⟩ | ⟨_, _, _, rfl⟩ | ⟨depth', _, hdepth, _, _, hinner⟩ |
      ⟨depth', _, _, hdepth, _, hinner, hclose⟩
    · exact htail
    · exact htail
    · exact htail.trans ((ih depth' hdepth).leaves hinner)
    · have hsum := located_sum (ih depth' hdepth)
      exact (htail.trans (hsum.leaves hinner)).trans ((located_closeParen _).leaves hclose)

theorem located_operand (depth : Nat) : Located (operand depth) := by
  induction depth with
  | zero =>
    apply located_operand_of
    intro depth' h
    cases h
  | succ depth ih =>
    apply located_operand_of
    intro depth' h
    cases h
    exact ih

/-- A list of tokens is refused at one of them, at the end, or for being empty. -/
theorem located_of_parseTokens {stop : Nat} {ts : List Token} {e : Error}
    (h : parseTokens stop ts = .error e) : e.reason.isSyntactic = true ∧
      (e.offset = 0 ∨ e.offset = stop ∨ ∃ t ∈ ts, e.offset = t.start) := by
  have hsum := located_sum (located_operand maxDepth)
  unfold parseTokens at h
  split at h
  · cases h
    exact ⟨rfl, Or.inl rfl⟩
  · split at h
    · next hrefused =>
      cases h
      exact ⟨hsum.refuses _ _ hrefused, Or.inr (hsum.offers hrefused)⟩
    · next hleft =>
      split at h
      · cases h
      · next htokens =>
        cases h
        exact ⟨rfl, Or.inr ((hsum.leaves hleft).offers (Cursor.offers_head htokens))⟩

theorem parse_of_lex_error {cs : List Char} {e : Error} (h : lex cs = .error e) :
    parse cs = .error e := by
  rw [parse, h]

theorem parse_error_cases {cs : List Char} {e : Error} (h : parse cs = .error e) :
    lex cs = .error e ∨ e.reason.isSyntactic = true := by
  unfold parse at h
  split at h
  · next hlex =>
    cases h
    exact Or.inl hlex
  · exact Or.inr (located_of_parseTokens h).1

/-- Whatever is refused before it is evaluated is malformed. -/
theorem malformed_of_parse {cs : List Char} {e : Error} (h : parse cs = .error e) :
    e.kind = .malformed := by
  rcases parse_error_cases h with hlex | hsyntactic
  · exact Reason.kind_of_isLexical (lexical_of_lex hlex)
  · exact Reason.kind_of_isSyntactic hsyntactic

theorem head_of_parse_error {cs : List Char} {c : Char}
    (h : parse cs = .error ⟨0, .unexpectedCharacter c⟩) : ∃ tail, cs = c :: tail := by
  rcases parse_error_cases h with hlex | hsyntactic
  · exact head_of_lex_error hlex
  · cases hsyntactic

end Motion.Formula
