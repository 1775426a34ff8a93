import Motion.Proofs.Formula.Completeness
import Motion.Proofs.Formula.Failures
import Motion.Proofs.Formula.Spans
import Motion.Proofs.Number.Widening

namespace Motion.Formula

/-- The parts of a tree, each behind its own operands: the order in which they are evaluated. -/
def Expr.inOrder : Expr → List Expr
  | number x => [number x]
  | var name offset => [var name offset]
  | neg e => e.inOrder ++ [neg e]
  | binary op left right offset => left.inOrder ++ right.inOrder ++ [binary op left right offset]

/-- A tree fails though none of its operands does. -/
inductive Fails (vars : Variables) : Expr → Error → Prop
  | unbound {name : String} {offset : Nat} (h : vars name = none) :
      Fails vars (.var name offset) ⟨offset, .unknownVariable name⟩
  | zero {left right : Expr} {x y : Float} {offset : Nat} (hl : left.eval vars = .ok x)
      (hr : right.eval vars = .ok y) (hy : y = 0.0 ∨ y = -0.0) :
      Fails vars (.binary .div left right offset) ⟨offset, .divisionByZero⟩

variable {vars : Variables}

/-- All parts of a tree that has a value have one. -/
theorem eval_ok_of_mem_inOrder {e : Expr} {x : Float} (h : e.eval vars = .ok x) :
    ∀ part ∈ e.inOrder, ∃ y, part.eval vars = .ok y := by
  induction e generalizing x with
  | number _ => exact List.forall_mem_singleton.mpr ⟨x, h⟩
  | var _ _ => exact List.forall_mem_singleton.mpr ⟨x, h⟩
  | neg e ih =>
    obtain ⟨y, he, -⟩ := bind_eq_ok_iff.mp h
    exact List.forall_mem_append.mpr ⟨ih he, List.forall_mem_singleton.mpr ⟨x, h⟩⟩
  | binary op left right offset ihl ihr =>
    obtain ⟨l, hl, hrest⟩ := bind_eq_ok_iff.mp h
    obtain ⟨r, hr, -⟩ := bind_eq_ok_iff.mp hrest
    have hoperands := List.forall_mem_append.mpr ⟨ihl hl, ihr hr⟩
    exact List.forall_mem_append.mpr ⟨hoperands, List.forall_mem_singleton.mpr ⟨x, h⟩⟩

theorem divides_of_apply_error {op : Operator} {offset : Nat} {x y : Float} {err : Error}
    (h : op.apply offset x y = .error err) :
    op = .div ∧ err = ⟨offset, .divisionByZero⟩ ∧ (y = 0.0 ∨ y = -0.0) := by
  cases op with
  | div =>
    unfold Operator.apply at h
    dsimp only at h
    split at h
    · next hzero =>
      cases h
      exact ⟨rfl, rfl, Number.eq_zero_of_beq hzero⟩
    · cases h
  | _ => cases h

/-- A tree fails in the first of its parts that fails by itself. -/
theorem eval_eq_error {e : Expr} {err : Error} (h : e.eval vars = .error err) :
    ∃ before part after, e.inOrder = before ++ part :: after ∧
      (∀ p ∈ before, ∃ x, p.eval vars = .ok x) ∧ Fails vars part err := by
  induction e with
  | number x => cases h
  | var name offset =>
    unfold Expr.eval at h
    split at h
    · cases h
    · next hnone =>
      cases h
      exact ⟨[], _, [], rfl, List.forall_mem_nil _, .unbound hnone⟩
  | neg e ih =>
    rcases bind_eq_error_iff.mp h with he | ⟨x, -, hpure⟩
    · obtain ⟨before, part, after, hsplit, hbefore, hpart⟩ := ih he
      refine ⟨before, part, after ++ [e.neg], ?_, hbefore, hpart⟩
      rw [Expr.inOrder, hsplit, List.append_assoc, List.cons_append]
    · cases hpure
  | binary op left right offset ihl ihr =>
    rcases bind_eq_error_iff.mp h with hl | ⟨l, hl, hrest⟩
    · obtain ⟨before, part, after, hsplit, hbefore, hpart⟩ := ihl hl
      refine ⟨before, part, after ++ right.inOrder ++ [.binary op left right offset], ?_, hbefore,
        hpart⟩
      rw [Expr.inOrder, hsplit]
      simp only [List.append_assoc, List.cons_append]
    · have hleft := eval_ok_of_mem_inOrder hl
      rcases bind_eq_error_iff.mp hrest with hr | ⟨r, hr, happly⟩
      · obtain ⟨before, part, after, hsplit, hbefore, hpart⟩ := ihr hr
        refine ⟨left.inOrder ++ before, part, after ++ [.binary op left right offset], ?_, ?_, hpart⟩
        · rw [Expr.inOrder, hsplit]
          simp only [List.append_assoc, List.cons_append]
        · exact List.forall_mem_append.mpr ⟨hleft, hbefore⟩
      · obtain ⟨rfl, rfl, hzero⟩ := divides_of_apply_error happly
        refine ⟨left.inOrder ++ right.inOrder, _, [], rfl, ?_, .zero hl hr hzero⟩
        exact List.forall_mem_append.mpr ⟨hleft, eval_ok_of_mem_inOrder hr⟩

theorem Fails.eval {part : Expr} {err : Error} (h : Fails vars part err) :
    part.eval vars = .error err := by
  cases h with
  | unbound h => rw [Expr.eval, h]
  | @zero left right x y offset hl hr hy =>
    have happly : Operator.div.apply offset x y = .error ⟨offset, .divisionByZero⟩ := by
      rcases hy with rfl | rfl <;> rfl
    have hrest := bind_eq_error_iff.mpr (Or.inr ⟨y, hr, happly⟩)
    exact bind_eq_error_iff.mpr (Or.inr ⟨x, hl, hrest⟩)

/-- Two places where evaluation comes to a part without a value are the same. -/
theorem eq_of_first_failing {before before' after after' : List Expr} {part part' : Expr}
    (hsplit : before ++ part :: after = before' ++ part' :: after')
    (hbefore : ∀ p ∈ before, ∃ x, p.eval vars = .ok x)
    (hbefore' : ∀ p ∈ before', ∃ x, p.eval vars = .ok x)
    (hpart : ∀ x, part.eval vars ≠ .ok x) (hpart' : ∀ x, part'.eval vars ≠ .ok x) :
    part = part' := by
  rcases List.append_eq_append_iff.mp hsplit with ⟨more, rfl, hmore⟩ | ⟨more, rfl, hmore⟩
  · cases more with
    | nil => exact (List.cons.inj hmore).1
    | cons p more =>
      obtain ⟨rfl, -⟩ := List.cons.inj hmore
      obtain ⟨x, hx⟩ := hbefore' part (List.mem_append_right _ List.mem_cons_self)
      exact absurd hx (hpart x)
  · cases more with
    | nil => exact (List.cons.inj hmore).1.symm
    | cons p more =>
      obtain ⟨rfl, -⟩ := List.cons.inj hmore
      obtain ⟨x, hx⟩ := hbefore part' (List.mem_append_right _ List.mem_cons_self)
      exact absurd hx (hpart' x)

theorem eval_eq_error_iff {e : Expr} {err : Error} : e.eval vars = .error err ↔
    ∃ before part after, e.inOrder = before ++ part :: after ∧
      (∀ p ∈ before, ∃ x, p.eval vars = .ok x) ∧ Fails vars part err := by
  refine ⟨eval_eq_error, ?_⟩
  rintro ⟨before, part, after, hsplit, hbefore, hpart⟩
  have hnone : ∀ x, part.eval vars ≠ .ok x := by
    intro x hx
    rw [hpart.eval] at hx
    cases hx
  cases heval : e.eval vars with
  | ok x =>
    obtain ⟨y, hy⟩ := eval_ok_of_mem_inOrder heval part (by simp [hsplit])
    exact absurd hy (hnone y)
  | error err' =>
    obtain ⟨before', part', after', hsplit', hbefore', hpart'⟩ := eval_eq_error heval
    have hnone' : ∀ x, part'.eval vars ≠ .ok x := by
      intro x hx
      rw [hpart'.eval] at hx
      cases hx
    rw [hsplit] at hsplit'
    obtain rfl := eq_of_first_failing hsplit' hbefore hbefore' hnone hnone'
    rw [← hpart'.eval, hpart.eval]

/-- The tokens of a tree that is not in parentheses: a name, or an operator with what its operands
are read from. -/
inductive Written : List Token → Expr → Prop
  | number {x : Float} {start stop : Nat} : Written [⟨.number x, start, stop⟩] (.number x)
  | name {name : String} {start stop : Nat} :
      Written [⟨.identifier name, start, stop⟩] (.var name start)
  | minus {start stop : Nat} {ts : List Token} {e : Expr} {n d : Nat}
      (h : Derives .operand ts e n d) : Written (⟨.minus, start, stop⟩ :: ts) (.neg e)
  | product {t : Token} {op : Operator} {ts₁ ts₂ : List Token} {l r : Expr} {n₁ n₂ d₁ d₂ : Nat}
      (hl : Derives .product ts₁ l n₁ d₁) (ht : Operator.multiplicative? t.kind = some op)
      (hr : Derives .operand ts₂ r n₂ d₂) :
      Written (ts₁ ++ t :: ts₂) (.binary op l r t.start)
  | sum {t : Token} {op : Operator} {ts₁ ts₂ : List Token} {l r : Expr} {n₁ n₂ d₁ d₂ : Nat}
      (hl : Derives .sum ts₁ l n₁ d₁) (ht : Operator.additive? t.kind = some op)
      (hr : Derives .product ts₂ r n₂ d₂) :
      Written (ts₁ ++ t :: ts₂) (.binary op l r t.start)

/-- Among some tokens a part of a tree is written. -/
def WrittenIn (ts : List Token) (part : Expr) : Prop := ∃ mine, mine <:+: ts ∧ Written mine part

theorem WrittenIn.mono {ts ts' : List Token} {part : Expr} (h : WrittenIn ts part)
    (hsub : ts <:+: ts') : WrittenIn ts' part := by
  obtain ⟨mine, hmine, hpart⟩ := h
  exact ⟨mine, hmine.trans hsub, hpart⟩

/-- The parts of an operator's tree are written in its operands, or it is the operator itself. -/
theorem writtenIn_binary {op : Operator} {l r : Expr} {t : Token} {ts₁ ts₂ : List Token}
    (hl : ∀ part ∈ l.inOrder, WrittenIn ts₁ part) (hr : ∀ part ∈ r.inOrder, WrittenIn ts₂ part)
    (hself : Written (ts₁ ++ t :: ts₂) (.binary op l r t.start)) :
    ∀ part ∈ (Expr.binary op l r t.start).inOrder, WrittenIn (ts₁ ++ t :: ts₂) part := by
  have hleft : ts₁ <:+: ts₁ ++ t :: ts₂ := (List.prefix_append _ _).isInfix
  have hright : ts₂ <:+: ts₁ ++ t :: ts₂ :=
    ((List.suffix_cons t ts₂).trans (List.suffix_append _ _)).isInfix
  intro part hpart
  rcases List.mem_append.mp hpart with hoperand | hpart
  · rcases List.mem_append.mp hoperand with hpart | hpart
    · exact (hl part hpart).mono hleft
    · exact (hr part hpart).mono hright
  · rw [List.mem_singleton.mp hpart]
    exact ⟨_, List.infix_refl _, hself⟩

theorem writtenIn_of_derives {level : Level} {ts : List Token} {e : Expr} {n d : Nat}
    (h : Derives level ts e n d) : ∀ part ∈ e.inOrder, WrittenIn ts part := by
  induction h with
  | number => exact List.forall_mem_singleton.mpr ⟨_, List.infix_refl _, .number⟩
  | identifier => exact List.forall_mem_singleton.mpr ⟨_, List.infix_refl _, .name⟩
  | minus h ih =>
    intro part hpart
    rcases List.mem_append.mp hpart with hpart | hpart
    · exact (ih part hpart).mono (List.suffix_cons _ _).isInfix
    · rw [List.mem_singleton.mp hpart]
      exact ⟨_, List.infix_refl _, .minus h⟩
  | group _ ih =>
    intro part hpart
    apply (ih part hpart).mono
    exact (List.prefix_append _ _).isInfix.trans (List.suffix_cons _ _).isInfix
  | ofOperand _ ih => exact ih
  | multiply hl ht hr ihl ihr => exact writtenIn_binary ihl ihr (.product hl ht hr)
  | ofProduct _ ih => exact ih
  | add hl ht hr ihl ihr => exact writtenIn_binary ihl ihr (.sum hl ht hr)

theorem name_of_writtenIn {ts : List Token} {name : String} {offset : Nat}
    (h : WrittenIn ts (.var name offset)) : ∃ stop, ⟨.identifier name, offset, stop⟩ ∈ ts := by
  obtain ⟨mine, hmine, hname⟩ := h
  cases hname with
  | name => exact ⟨_, hmine.subset List.mem_cons_self⟩

theorem slash_of_writtenIn {ts : List Token} {l r : Expr} {offset : Nat}
    (h : WrittenIn ts (.binary .div l r offset)) : ∃ ts₁ ts₂ stop n₁ d₁ n₂ d₂,
      ts₁ ++ ⟨.slash, offset, stop⟩ :: ts₂ <:+: ts ∧ Derives .product ts₁ l n₁ d₁ ∧
        Derives .operand ts₂ r n₂ d₂ := by
  obtain ⟨mine, hmine, hdivision⟩ := h
  cases hdivision with
  | @product t op ts₁ ts₂ l r n₁ n₂ d₁ d₂ hl ht hr =>
    obtain ⟨kind, start, stop⟩ := t
    cases kind <;> cases ht
    exact ⟨ts₁, ts₂, stop, n₁, d₁, n₂, d₂, hmine, hl, hr⟩
  | @sum t op ts₁ ts₂ l r n₁ n₂ d₁ d₂ hl ht hr =>
    obtain ⟨kind, start, stop⟩ := t
    cases kind <;> cases ht

theorem IsBoundary.le {cs : List Char} {n : Nat} (h : IsBoundary cs n) : n ≤ byteLength cs :=
  h.le_rawEndPos

theorem standsIn_of_lex {cs : List Char} {ts : List Token} (h : lex cs = .ok ts) :
    ∀ t ∈ ts, t.StandsIn cs := (covers_of_tokenizes (lexFrom_eq_ok_iff.mp h)).standsIn

/-- Whatever is refused before it is evaluated is refused between two characters. -/
theorem isBoundary_of_parse_error {cs : List Char} {e : Error} (h : parse cs = .error e) :
    IsBoundary cs e.offset := by
  unfold parse at h
  split at h
  · next hlex =>
    cases h
    obtain ⟨before, rest, ts, k, rfl, -, -, hoffset, hfaulty⟩ := faulty_of_lex_error hlex
    rw [hoffset]
    exact isBoundary_of_faulty hfaulty before
  · next ts hlex =>
    have hlength := byteLength_of_tokenizes (lexFrom_eq_ok_iff.mp hlex)
    rcases (located_of_parseTokens h).2 with hzero | hstop | ⟨t, ht, hstart⟩
    · rw [hzero]
      exact isBoundary_append [] cs
    · rw [hstop, ← hlength]
      have hend := isBoundary_append cs []
      rwa [List.append_nil] at hend
    · rw [hstart]
      exact (standsIn_of_lex hlex t ht).boundaries.1

/-- A formula with some tokens is read as a tree, and its evaluation comes to a part of the tree:
all that is evaluated before has a value. -/
structure ComesTo (vars : Variables) (cs : List Char) (ts : List Token) (part : Expr) : Prop where
  lexed : lex cs = .ok ts
  earlier : ∃ tree before after, parse cs = .ok tree ∧ tree.inOrder = before ++ part :: after ∧
    ∀ p ∈ before, ∃ x, p.eval vars = .ok x

theorem ComesTo.writtenIn {cs : List Char} {ts : List Token} {part : Expr}
    (h : ComesTo vars cs ts part) : WrittenIn ts part := by
  obtain ⟨hlex, tree, before, after, hparse, hsplit, -⟩ := h
  obtain ⟨ts', n, d, hlex', hder, -, -⟩ := parse_eq_ok_iff.mp hparse
  rw [hlex] at hlex'
  cases hlex'
  apply writtenIn_of_derives hder
  rw [hsplit]
  exact List.mem_append_right before List.mem_cons_self

/-- A formula fails if it is none, or if its evaluation comes to a part that fails by itself. -/
theorem evaluateChars_eq_error_iff {cs : List Char} {err : Error} :
    evaluateChars vars cs = .error err ↔ parse (body cs) = .error err ∨
      ∃ ts part, ComesTo vars (body cs) ts part ∧ Fails vars part err := by
  constructor
  · intro h
    rcases bind_eq_error_iff.mp h with hparse | ⟨tree, hparse, heval⟩
    · exact Or.inl hparse
    · obtain ⟨before, part, after, hsplit, hbefore, hpart⟩ := eval_eq_error_iff.mp heval
      obtain ⟨ts, -, -, hlex, -⟩ := parse_eq_ok_iff.mp hparse
      exact Or.inr ⟨ts, part, ⟨hlex, tree, before, after, hparse, hsplit, hbefore⟩, hpart⟩
  · rintro (hparse | ⟨ts, part, ⟨-, tree, before, after, hparse, hsplit, hbefore⟩, hpart⟩)
    · exact bind_eq_error_iff.mpr (Or.inl hparse)
    · have heval := eval_eq_error_iff.mpr ⟨before, part, after, hsplit, hbefore, hpart⟩
      exact bind_eq_error_iff.mpr (Or.inr ⟨tree, hparse, heval⟩)

/-- The name of a variable stands in the formula where the tree says, as a token of its own. -/
theorem ComesTo.name {cs : List Char} {ts : List Token} {name : String} {offset : Nat}
    (h : ComesTo vars cs ts (.var name offset)) : ∃ before after,
      cs = before ++ name.toList ++ after ∧ offset = byteLength before ∧
        IsLexeme (.identifier name) name.toList ∧ EndsLexeme name.toList after ∧
        ⟨.identifier name, offset, offset + byteLength name.toList⟩ ∈ ts := by
  obtain ⟨stop, hmem⟩ := name_of_writtenIn h.writtenIn
  obtain ⟨before, text, after, hcs, hstart, hstop, hkind, hends⟩ := standsIn_of_lex h.lexed _ hmem
  obtain rfl := hkind.text_identifier
  change offset = byteLength before at hstart
  change stop = byteLength (before ++ name.toList) at hstop
  obtain rfl : stop = offset + byteLength name.toList := by
    rw [hstop, byteLength_append, hstart]
  exact ⟨before, after, hcs, hstart, hkind, hends, hmem⟩

/-- The slash of a division stands in the formula where the tree says, between the operands. -/
theorem ComesTo.slash {cs : List Char} {ts : List Token} {l r : Expr} {offset : Nat}
    (h : ComesTo vars cs ts (.binary .div l r offset)) : ∃ before after,
      cs = before ++ '/' :: after ∧ offset = byteLength before ∧
        ∃ ts₁ ts₂ n₁ d₁ n₂ d₂, ts₁ ++ ⟨.slash, offset, offset + 1⟩ :: ts₂ <:+: ts ∧
          Derives .product ts₁ l n₁ d₁ ∧ Derives .operand ts₂ r n₂ d₂ := by
  obtain ⟨ts₁, ts₂, stop, n₁, d₁, n₂, d₂, hmine, hl, hr⟩ := slash_of_writtenIn h.writtenIn
  have hmem : ⟨.slash, offset, stop⟩ ∈ ts := hmine.subset (by simp)
  obtain ⟨before, text, after, hcs, hstart, hstop, hkind, -⟩ := standsIn_of_lex h.lexed _ hmem
  obtain rfl := hkind.text_slash
  change offset = byteLength before at hstart
  change stop = byteLength (before ++ ['/']) at hstop
  obtain rfl : stop = offset + 1 := by
    rw [hstop, byteLength_append, hstart]
    rfl
  rw [List.append_assoc] at hcs
  exact ⟨before, after, hcs, hstart, ts₁, ts₂, n₁, d₁, n₂, d₂, hmine, hl, hr⟩

/-- Failures are reported where they are: between two characters of the formula, an unknown variable
at its name and a division by zero at its slash, after all that is evaluated before. Where the
evaluation comes to one of these two, it fails with it. -/
theorem evaluate_error_located (vars : Variables) (text : String) :
    (∀ err, evaluate vars text = .error err →
      IsBoundary (body text.toList) err.offset ∧ err.offset ≤ byteLength (body text.toList) ∧
      (err.kind = .unknownVariable → ∃ name ts, vars name = none ∧
        err.message = "unknown variable '" ++ name ++ "'" ∧
        ComesTo vars (body text.toList) ts (.var name err.offset) ∧
        ∃ before after, body text.toList = before ++ name.toList ++ after ∧
          err.offset = byteLength before ∧ IsLexeme (.identifier name) name.toList ∧
          EndsLexeme name.toList after ∧
          ⟨.identifier name, err.offset, err.offset + byteLength name.toList⟩ ∈ ts) ∧
      (err.kind = .divisionByZero → ∃ l r x y ts, l.eval vars = .ok x ∧ r.eval vars = .ok y ∧
        (y = 0.0 ∨ y = -0.0) ∧ ComesTo vars (body text.toList) ts (.binary .div l r err.offset) ∧
        ∃ before after, body text.toList = before ++ '/' :: after ∧ err.offset = byteLength before ∧
          ∃ ts₁ ts₂ n₁ d₁ n₂ d₂, ts₁ ++ ⟨.slash, err.offset, err.offset + 1⟩ :: ts₂ <:+: ts ∧
            Derives .product ts₁ l n₁ d₁ ∧ Derives .operand ts₂ r n₂ d₂)) ∧
    ∀ ts part err, ComesTo vars (body text.toList) ts part → Fails vars part err →
      evaluate vars text = .error err := by
  constructor
  · intro err h
    rcases evaluateChars_eq_error_iff.mp h with hparse | ⟨ts, part, hcomes, hfails⟩
    · have hboundary := isBoundary_of_parse_error hparse
      have hkind := malformed_of_parse hparse
      refine ⟨hboundary, hboundary.le, ?_, ?_⟩
      · intro hunknown
        rw [hkind] at hunknown
        cases hunknown
      · intro hzero
        rw [hkind] at hzero
        cases hzero
    · cases hfails with
      | @unbound name offset hnone =>
        obtain ⟨before, after, hbody, hoffset, hplace⟩ := hcomes.name
        have hboundary : IsBoundary (body text.toList) offset := by
          rw [hbody, hoffset, List.append_assoc]
          exact isBoundary_append _ _
        refine ⟨hboundary, hboundary.le, ?_, ?_⟩
        · intro _
          exact ⟨name, ts, hnone, rfl, hcomes, before, after, hbody, hoffset, hplace⟩
        · rintro ⟨⟩
      | @zero l r x y offset hl hr hy =>
        obtain ⟨before, after, hbody, hoffset, hoperands⟩ := hcomes.slash
        have hboundary : IsBoundary (body text.toList) offset := by
          rw [hbody, hoffset]
          exact isBoundary_append _ _
        refine ⟨hboundary, hboundary.le, ?_, ?_⟩
        · rintro ⟨⟩
        · intro _
          exact ⟨l, r, x, y, ts, hl, hr, hy, hcomes, before, after, hbody, hoffset, hoperands⟩
  · intro ts part err hcomes hfails
    exact evaluateChars_eq_error_iff.mpr (Or.inr ⟨ts, part, hcomes, hfails⟩)

/-- A zero divided by a name that nothing is bound to, and by itself. -/
theorem evaluate_error_located_ratio :
    (∃ name, Variables.ofList [("b", 0.0)] name = none ∧
      "unknown variable 'c'" = "unknown variable '" ++ name ++ "'" ∧
      ∃ before after, "-b/c".toList = before ++ name.toList ++ after ∧ 3 = byteLength before) ∧
    ∃ before after, body "\x7b\x7b -b/b \x7d\x7d".toList = before ++ '/' :: after ∧
      2 = byteLength before := by
  have hplain : body "-b/c".toList = "-b/c".toList := by cbv
  have htree : parse "-b/c".toList =
      .ok (.binary .div (.neg (.var "b" 1)) (.var "c" 3) 2) := by cbv
  have hdelimited : parse (body "\x7b\x7b -b/b \x7d\x7d".toList) =
      .ok (.binary .div (.neg (.var "b" 1)) (.var "b" 3) 2) := by cbv
  constructor
  · have hunknown : evaluate (Variables.ofList [("b", 0.0)]) "-b/c" =
        .error ⟨3, .unknownVariable "c"⟩ := by
      rw [evaluate, evaluateChars, hplain, htree]
      rfl
    obtain ⟨name, ts, hnone, hmessage, -, before, after, hbody, hoffset, -⟩ :=
      ((evaluate_error_located _ _).1 _ hunknown).2.2.1 rfl
    rw [hplain] at hbody
    exact ⟨name, hnone, hmessage, before, after, hbody, hoffset⟩
  · have hzero : evaluate (Variables.ofList [("b", 0.0)]) "\x7b\x7b -b/b \x7d\x7d" =
        .error ⟨2, .divisionByZero⟩ := by
      rw [evaluate, evaluateChars, hdelimited]
      rfl
    obtain ⟨l, r, x, y, ts, -, -, -, -, before, after, hbody, hoffset, -⟩ :=
      ((evaluate_error_located _ _).1 _ hzero).2.2.2 rfl
    exact ⟨before, after, hbody, hoffset⟩

end Motion.Formula
