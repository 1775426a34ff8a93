import Motion.Proofs.Formula.Completeness
import Motion.Proofs.Formula.Failures

/-! A formula between blanks has the tokens and the tree of the formula alone, moved by the blanks
in front of it. -/
namespace Motion.Formula

def Token.move (f : Nat → Nat) (t : Token) : Token := ⟨t.kind, f t.start, f t.stop⟩

def Error.move (f : Nat → Nat) (e : Error) : Error := ⟨f e.offset, e.reason⟩

def Expr.move (f : Nat → Nat) : Expr → Expr
  | number x => number x
  | var name offset => var name (f offset)
  | neg e => neg (e.move f)
  | binary op left right offset => binary op (left.move f) (right.move f) (f offset)

theorem apply_move (f : Nat → Nat) (op : Operator) (offset : Nat) (l r : Float) :
    op.apply (f offset) l r = (op.apply offset l r).mapError (Error.move f) := by
  cases op with
  | div =>
    unfold Operator.apply
    dsimp only
    split <;> rfl
  | _ => rfl

/-- A moved tree has the same value, and the same failure at the moved place. -/
theorem eval_move (vars : Variables) (f : Nat → Nat) (e : Expr) :
    (e.move f).eval vars = (e.eval vars).mapError (Error.move f) := by
  induction e with
  | number x => rfl
  | var name offset =>
    simp only [Expr.move, Expr.eval]
    split <;> rfl
  | neg e ih =>
    simp only [Expr.move, Expr.eval, ih]
    cases e.eval vars <;> rfl
  | binary op left right offset ihl ihr =>
    simp only [Expr.move, Expr.eval, ihl, ihr, apply_move]
    cases left.eval vars with
    | error e => rfl
    | ok l => cases right.eval vars <;> rfl

/-- Moved tokens derive the moved tree. -/
theorem derives_move (f : Nat → Nat) {level : Level} {ts : List Token} {e : Expr} {n d : Nat}
    (h : Derives level ts e n d) : Derives level (ts.map (Token.move f)) (e.move f) n d := by
  induction h with
  | number => exact .number
  | identifier => exact .identifier
  | minus _ ih => exact ih.minus
  | group _ ih =>
    rw [List.map_cons, List.map_append]
    exact ih.group
  | ofOperand _ ih => exact ih.ofOperand
  | multiply _ ht _ ihl ihr =>
    rw [List.map_append, List.map_cons]
    exact .multiply (t := Token.move f _) ihl ht ihr
  | ofProduct _ ih => exact ih.ofProduct
  | add _ ht _ ihl ihr =>
    rw [List.map_append, List.map_cons]
    exact .add (t := Token.move f _) ihl ht ihr

/-- To move forward and back again changes nothing. -/
theorem map_move_sub (k : Nat) (ts : List Token) :
    (ts.map (Token.move (· + k))).map (Token.move (· - k)) = ts := by
  have hback : Token.move (· - k) ∘ Token.move (· + k) = id := by
    funext t
    simp only [Function.comp, Token.move, Nat.add_sub_cancel, id]
  rw [List.map_map, hback, List.map_id]

/-- The outcome of cutting a text that begins `k` bytes later. -/
def moveTokens (k : Nat) (outcome : Except Error (List Token)) : Except Error (List Token) :=
  (outcome.map (List.map (Token.move (· + k)))).mapError (Error.move (· + k))

theorem scanToken_add (offset k : Nat) (c : Char) (r : List Char) :
    scanToken (offset + k) c r = (scanToken offset c r).mapError (Error.move (· + k)) := by
  unfold scanToken
  split
  · split
    · rfl
    · next m _ =>
      simp only [Except.mapError, Error.move]
      congr 2
      omega
  · split
    · rfl
    · split <;> rfl

theorem lexFrom_add (offset k : Nat) (cs : List Char) :
    lexFrom (offset + k) cs = moveTokens k (lexFrom offset cs) := by
  induction offset, cs using lexFrom_induction with
  | hnil offset => rw [lexFrom_nil, lexFrom_nil]; rfl
  | hblank offset c r hc ih =>
    rw [lexFrom_of_blank hc, lexFrom_of_blank hc, ← ih]
    congr 1
    omega
  | herror offset c r e hc he =>
    have he' : scanToken (offset + k) c r = .error (e.move (· + k)) := by
      rw [scanToken_add, he]
      rfl
    rw [lexFrom_of_error hc he, lexFrom_of_error hc he']
    rfl
  | htoken offset c r l hc hl ih =>
    have hl' : scanToken (offset + k) c r = .ok l := by
      rw [scanToken_add, hl]
      rfl
    have hstop : offset + k + l.text.length = offset + l.text.length + k := by omega
    rw [lexFrom_of_token hc hl, lexFrom_of_token hc hl', hstop, ih]
    cases lexFrom (offset + l.text.length) l.rest <;> rfl

section
variable {before after : List Char} (hbefore : ∀ c ∈ before, isFormulaBlank c = true)
  (hafter : ∀ c ∈ after, isFormulaBlank c = true)
include hbefore hafter

theorem lex_between_blanks (cs : List Char) :
    lex (before ++ (cs ++ after)) = moveTokens before.length (lex cs) := by
  have hmove := lexFrom_add 0 before.length cs
  rw [lex, lexFrom_blanks_append hbefore, lexFrom_append_blanks hafter, hmove]
  rfl

theorem parse_between_blanks {cs : List Char} {e : Expr} (h : parse cs = .ok e) :
    parse (before ++ (cs ++ after)) = .ok (e.move (· + before.length)) := by
  obtain ⟨ts, n, d, hlex, hder, hn, hd⟩ := parse_eq_ok_iff.mp h
  have hmoved : lex (before ++ (cs ++ after)) = .ok (ts.map (Token.move (· + before.length))) := by
    rw [lex_between_blanks hbefore hafter, hlex]
    rfl
  exact parse_eq_ok_iff.mpr ⟨_, n, d, hmoved, derives_move _ hder, hn, hd⟩

/-- Blanks make no formula of what is none without them. -/
theorem parse_error_between_blanks {cs : List Char} {e : Error} (h : parse cs = .error e) :
    ∃ e', parse (before ++ (cs ++ after)) = .error e' := by
  cases hmoved : parse (before ++ (cs ++ after)) with
  | error e' => exact ⟨e', rfl⟩
  | ok tree =>
    exfalso
    obtain ⟨ts, n, d, hlex, hder, hn, hd⟩ := parse_eq_ok_iff.mp hmoved
    rw [lex_between_blanks hbefore hafter] at hlex
    cases hcs : lex cs with
    | error e' =>
      rw [hcs] at hlex
      cases hlex
    | ok ts' =>
      rw [hcs] at hlex
      cases hlex
      have hback := derives_move (· - before.length) hder
      rw [map_move_sub] at hback
      have hok := parse_eq_ok_iff.mpr ⟨ts', n, d, hcs, hback, hn, hd⟩
      rw [h] at hok
      cases hok

end

end Motion.Formula
