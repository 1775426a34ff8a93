import Motion.Proofs.Formula.Counting
import Motion.Proofs.Formula.Height

/-! How many parentheses and minus signs are open while a formula is parsed, by the parser that
counts them. -/
namespace Motion.Formula

namespace Counting

variable {α : Type}

/-- Two parsers come to the same tree at the same place, or to the same error. -/
inductive Agrees : Except Error (α × Cursor) → Option (Except Error α × Walk) → Prop
  | ok (a : α) (w : Walk) : Agrees (.ok (a, w.cursor)) (some (.ok a, w))
  | error (e : Error) (w : Walk) : Agrees (.error e) (some (.error e, w))

/-- What a parser does that may open `depth` more, the counting one does where that much is left of
the limit, if it has a round for every token and one to end on. -/
structure Follows (level : Level) (rounds depth : Nat) (p : Parser Expr) (q : Counting Expr) :
    Prop where
  agrees : ∀ w : Walk, w.depth + depth = maxDepth → w.cursor.tokens.length < rounds →
    Agrees (p w.cursor) (q.runOn w)
  sound : Sound level depth p
  steady : Steady q

section Agrees

variable {level lower upper : Level} {rounds depth : Nat} {p : Parser Expr} {q : Counting Expr}
  {operator? : Token.Kind → Option Operator} {w : Walk}

/-- Both fail, or both leave a tree, the count as it was, and no more tokens and operators. -/
theorem Follows.cases (h : Follows level rounds depth p q) (hdepth : w.depth + depth = maxDepth)
    (hrounds : w.cursor.tokens.length < rounds) :
    (∃ e w', p w.cursor = .ok (e, w'.cursor) ∧ q.runOn w = some (.ok e, w') ∧
        w'.depth = w.depth ∧ w'.cursor.tokens.length ≤ w.cursor.tokens.length ∧
        w'.cursor.operators ≤ w.cursor.operators) ∨
      ∃ err w', p w.cursor = .error err ∧ q.runOn w = some (.error err, w') := by
  have hagrees := h.agrees w hdepth hrounds
  generalize hp : p w.cursor = outcome at hagrees
  generalize hq : q.runOn w = run at hagrees
  cases hagrees with
  | ok e w' =>
    obtain ⟨ts, n, d, htokens, _, _, hoperators⟩ := h.sound _ _ _ hp
    refine Or.inl ⟨e, w', rfl, rfl, h.steady.back hq, ?_, ?_⟩
    · rw [htokens, List.length_append]
      exact Nat.le_add_left _ _
    · rw [hoperators]
      exact Nat.le_add_left _ _
  | error err w' => exact Or.inr ⟨err, w', rfl, rfl⟩

theorem agrees_chainFrom (h : Follows level rounds depth p q) {r k : Nat} {left : Expr}
    (hdepth : w.depth + depth = maxDepth) (hrounds : w.cursor.tokens.length < rounds)
    (hr : w.cursor.operators ≤ r) (hk : w.cursor.tokens.length < k) :
    Agrees (Formula.chainFrom operator? p r left w.cursor)
      ((chainFrom operator? q k left).runOn w) := by
  induction k generalizing r left w with
  | zero => cases hk
  | succ k ih =>
    obtain ⟨⟨tokens, stop, operators⟩, d, deepest⟩ := w
    unfold Formula.chainFrom chainFrom
    rw [runOn_bind_of_ok runOn_peek]
    cases tokens with
    | nil => exact .ok left ⟨⟨[], stop, operators⟩, d, deepest⟩
    | cons t ts =>
      dsimp only [List.head?_cons, List.length_cons] at hdepth hrounds hr hk ⊢
      cases operator? t.kind with
      | none => exact .ok left ⟨⟨t :: ts, stop, operators⟩, d, deepest⟩
      | some op =>
        dsimp only
        rw [runOn_bind_of_ok runOn_bump_cons]
        cases operators with
        | zero =>
          rw [runOn_bind_of_error runOn_countOperator_zero]
          cases r with
          | zero => exact .error _ _
          | succ r => exact .error _ _
        | succ operators =>
          rw [runOn_bind_of_ok runOn_countOperator_succ]
          cases r with
          | zero => cases hr
          | succ r =>
            dsimp only
            rw [if_neg (Nat.succ_ne_zero operators), Nat.add_sub_cancel]
            rcases h.cases (w := ⟨⟨ts, stop, operators⟩, d, deepest⟩) hdepth
              (Nat.lt_of_succ_lt hrounds) with
              ⟨right, w', hp, hq, hback, htokens, hoperators⟩ | ⟨err, w', hp, hq⟩
            · rw [hp, runOn_bind_of_ok hq]
              dsimp only at hback htokens hoperators
              exact ih (by omega) (by omega) (by omega) (by omega)
            · rw [hp, runOn_bind_of_error hq]
              exact .error err w'

theorem Follows.chain (hj : Joins operator? lower upper) (h : Follows lower rounds depth p q) :
    Follows upper rounds depth (Formula.chain operator? p) (chain operator? rounds q) where
  agrees w hdepth hrounds := by
    unfold Formula.chain Counting.chain
    rcases h.cases hdepth hrounds with ⟨left, w', hp, hq, hback, htokens, _⟩ | ⟨err, w', hp, hq⟩
    · rw [hp, runOn_bind_of_ok hq]
      have hlt := Nat.lt_of_le_of_lt htokens hrounds
      exact agrees_chainFrom h (hback ▸ hdepth) hlt (Nat.le_refl _) hlt
    · rw [hp, runOn_bind_of_error hq]
      exact .error err w'
  sound := sound_chain hj h.sound
  steady := steady_chain h.steady rounds

theorem Follows.sum (h : Follows .operand rounds depth p q) :
    Follows .sum rounds depth (Formula.sum p) (sum rounds q) :=
  (h.chain joins_product).chain joins_sum

theorem agrees_closeParen (e : Expr) (w : Walk) : Agrees (Formula.closeParen e w.cursor)
    ((closeParen >>= fun _ => pure e).runOn w) := by
  obtain ⟨⟨tokens, stop, operators⟩, d, deepest⟩ := w
  unfold Formula.closeParen
  cases tokens with
  | nil => exact .error _ ⟨⟨[], stop, operators⟩, d, deepest⟩
  | cons t ts =>
    obtain ⟨kind, start, finish⟩ := t
    cases kind with
    | rightParen => exact .ok e ⟨⟨ts, stop, operators⟩, d, deepest⟩
    | _ => exact .error _ ⟨⟨_ :: ts, stop, operators⟩, d, deepest⟩

theorem agrees_variable (name : String) (offset : Nat) (w : Walk) :
    Agrees (if opensParen w.cursor.tokens then .error ⟨offset, .functionCall name⟩
      else .ok (.var name offset, w.cursor)) ((variableAt name offset).runOn w) := by
  obtain ⟨⟨tokens, stop, operators⟩, d, deepest⟩ := w
  cases tokens with
  | nil => exact .ok _ ⟨⟨[], stop, operators⟩, d, deepest⟩
  | cons t ts =>
    obtain ⟨kind, start, finish⟩ := t
    cases kind with
    | leftParen => exact .error _ ⟨⟨_ :: ts, stop, operators⟩, d, deepest⟩
    | _ => exact .ok _ ⟨⟨_ :: ts, stop, operators⟩, d, deepest⟩

/-- Nothing more may be opened where the count has reached the limit, and only there. -/
theorem agrees_nested {offset : Nat} {inner : Nat → Except Error (Expr × Cursor)}
    (hdepth : w.depth + depth = maxDepth)
    (h : ∀ depth', w.opened.depth + depth' = maxDepth →
      Agrees (inner depth') (q.runOn w.opened)) :
    Agrees (match depth with
      | 0 => .error ⟨offset, .tooDeep⟩
      | depth + 1 => inner depth) ((nested offset q).runOn w) := by
  cases depth with
  | zero =>
    rw [runOn_nested_of_full (Nat.le_of_eq hdepth.symm)]
    exact .error _ w
  | succ depth =>
    have hopened : w.opened.depth + depth = maxDepth := by
      change w.depth + 1 + depth = maxDepth
      omega
    have hagrees := h depth hopened
    rw [runOn_nested (by omega)]
    dsimp only
    generalize inner depth = outcome at hagrees ⊢
    generalize q.runOn w.opened = run at hagrees ⊢
    cases hagrees with
    | ok e w' => exact .ok e w'.closed
    | error err w' => exact .error err w'

theorem follows_operand (rounds depth : Nat) :
    Follows .operand rounds depth (Formula.operand depth) (operand rounds) := by
  refine ⟨?_, sound_operand depth, steady_operand rounds⟩
  induction rounds generalizing depth with
  | zero =>
    intro w _ hrounds
    cases hrounds
  | succ rounds ih =>
    intro w hdepth hrounds
    have hinner (depth) : Follows .operand rounds depth (Formula.operand depth) (operand rounds) :=
      ⟨ih depth, sound_operand depth, steady_operand rounds⟩
    obtain ⟨⟨tokens, stop, operators⟩, d, deepest⟩ := w
    unfold Formula.operand operand
    rw [runOn_bind_of_ok runOn_peek]
    cases tokens with
    | nil => exact .error _ ⟨⟨[], stop, operators⟩, d, deepest⟩
    | cons t ts =>
      dsimp only [List.head?_cons, List.length_cons] at hdepth hrounds ⊢
      rw [runOn_bind_of_ok runOn_bump_cons]
      have hrounds : ts.length < rounds := Nat.lt_of_succ_lt_succ hrounds
      let w : Walk := ⟨⟨ts, stop, operators⟩, d, deepest⟩
      have hcursor : ⟨ts, stop, operators⟩ = w.opened.cursor := rfl
      obtain ⟨kind, start, finish⟩ := t
      cases kind with
      | number x => exact .ok _ w
      | identifier name => exact agrees_variable name start w
      | minus =>
        apply agrees_nested (w := w) hdepth
        intro depth hopened
        rw [hcursor]
        rcases (hinner depth).cases hopened hrounds with ⟨e, w', hp, hq, _⟩ | ⟨err, w', hp, hq⟩
        · rw [hp, runOn_bind_of_ok hq]
          exact .ok _ w'
        · rw [hp, runOn_bind_of_error hq]
          exact .error err w'
      | leftParen =>
        apply agrees_nested (w := w) hdepth
        intro depth hopened
        rw [hcursor]
        rcases (hinner depth).sum.cases hopened hrounds with
          ⟨e, w', hp, hq, _⟩ | ⟨err, w', hp, hq⟩
        · rw [hp, runOn_bind_of_ok hq]
          exact agrees_closeParen e w'
        · rw [hp, runOn_bind_of_error hq]
          exact .error err w'
      | _ => exact .error _ w

end Agrees

theorem runOn_expectEnd (e : Expr) (w : Walk) : (expectEnd e).runOn w =
    some (match w.cursor.tokens with
      | [] => .ok e
      | t :: _ => .error ⟨t.start, .expectedEnd t.kind⟩, w) := by
  obtain ⟨⟨tokens, stop, operators⟩, d, deepest⟩ := w
  cases tokens <;> rfl

/-- A round for each token and one to end on are enough. -/
theorem runOn_parseTokens (stop : Nat) (tokens : List Token) :
    ∃ w, (parseTokens (tokens.length + 1)).runOn ⟨⟨tokens, stop, maxOperators⟩, 0, 0⟩ =
      some (Formula.parseTokens stop tokens, w) := by
  cases tokens with
  | nil => exact ⟨_, rfl⟩
  | cons t ts =>
    let start : Walk := ⟨⟨t :: ts, stop, maxOperators⟩, 0, 0⟩
    have hcursor : ⟨t :: ts, stop, maxOperators⟩ = start.cursor := rfl
    have hsum := (follows_operand ((t :: ts).length + 1) maxDepth).sum
    unfold parseTokens Formula.parseTokens
    rw [runOn_bind_of_ok runOn_peek]
    dsimp only [List.head?_cons]
    rw [hcursor]
    rcases hsum.cases (w := start) (Nat.zero_add maxDepth) (Nat.lt_succ_self _) with
      ⟨e, w, hp, hq, _⟩ | ⟨err, w, hp, hq⟩
    · rw [hp, runOn_bind_of_ok hq]
      exact ⟨w, runOn_expectEnd e w⟩
    · rw [hp, runOn_bind_of_error hq]
      exact ⟨w, rfl⟩

/-- Both parsers come to the same outcome, and the one that counts does so within the limit. -/
theorem parse_eq (cs : List Char) : ∃ w, parse cs = some (Formula.parse cs, w) ∧ w.Within := by
  have hstart (tokens) : Walk.Within ⟨⟨tokens, cs.length, maxOperators⟩, 0, 0⟩ :=
    ⟨Nat.le_refl 0, Nat.zero_le maxDepth⟩
  unfold parse Formula.parse
  cases lex cs with
  | error e => exact ⟨_, rfl, hstart []⟩
  | ok tokens =>
    obtain ⟨w, hrun⟩ := runOn_parseTokens cs.length tokens
    exact ⟨w, hrun, ((steady_parseTokens _).leadsTo hrun).within (hstart tokens)⟩

end Counting

/-- The tree of every formula has at most 1024 operators and, on any path, 256 negations. So it is
at most 1281 nodes high, and that many open calls are enough to evaluate it. An evaluation that
comes to a value takes as many as its tree is high. While any text is parsed, accepted or not, at
most 256 parentheses and minus signs are open at once, and behind every part that is a sum, a
product or an operand as many as before it. -/
theorem depth_bounded (src : String) :
    (∀ e, parse src.toList = .ok e → e.binaries ≤ 1024 ∧ e.negations ≤ 256 ∧ e.height ≤ 1281 ∧
      ∀ vars, (e.evalWithin vars 1281).run = some (e.eval vars)) ∧
    (∀ (e : Expr) vars n x, (e.evalWithin vars n).run = some (.ok x) ↔
      e.height ≤ n ∧ e.eval vars = .ok x) ∧
    (∃ w, Counting.parse src.toList = some (parse src.toList, w) ∧ w.depth ≤ w.deepest ∧
      w.deepest ≤ 256) ∧
    ∀ level rounds w outcome w', (Counting.ofLevel rounds level).runOn w = some (outcome, w') →
      w.LeadsTo w' ∧ ∀ e, outcome = .ok e → w'.depth = w.depth := by
  refine ⟨?_, ?_, ?_, ?_⟩
  · intro e hparse
    obtain ⟨hbinaries, hnegations, hheight⟩ := measures_of_parse hparse
    exact ⟨hbinaries, hnegations, hheight, fun vars => Expr.evalWithin_of_height_le hheight⟩
  · intro e vars n x
    exact Expr.evalWithin_eq_ok_iff
  · obtain ⟨w, hrun, hwithin⟩ := Counting.parse_eq src.toList
    exact ⟨w, hrun, hwithin.depth_le, hwithin.deepest_le⟩
  · intro level rounds w outcome w' hrun
    have hsteady := Counting.steady_ofLevel rounds level
    refine ⟨hsteady.leadsTo hrun, ?_⟩
    rintro e rfl
    exact hsteady.back hrun

/-- A negated sum in parentheses, and one that breaks off. -/
theorem depth_bounded_negation :
    (∀ vars, ((Expr.neg (.binary .add (.var "x" 2) (.var "y" 6) 4)).evalWithin vars 1281).run =
      some ((Expr.neg (.binary .add (.var "x" 2) (.var "y" 6) 4)).eval vars)) ∧
    (∃ w', (Counting.ofLevel 7 .sum).runOn ⟨⟨[⟨.minus, 0, 1⟩, ⟨.leftParen, 1, 2⟩,
        ⟨.identifier "x", 2, 3⟩, ⟨.plus, 4, 5⟩, ⟨.identifier "y", 6, 7⟩, ⟨.rightParen, 7, 8⟩],
        8, 1024⟩, 0, 0⟩ =
      some (.ok (.neg (.binary .add (.var "x" 2) (.var "y" 6) 4)), w') ∧ w'.depth = 0) ∧
    ∃ w, Counting.parse "-(x +".toList = some (.error ⟨5, .unexpectedEnd⟩, w) ∧
      w.deepest ≤ 256 := by
  refine ⟨?_, ?_, ?_⟩
  · have hparse : parse "-(x + y)".toList =
        .ok (.neg (.binary .add (.var "x" 2) (.var "y" 6) 4)) := by cbv
    exact ((depth_bounded "-(x + y)").1 _ hparse).2.2.2
  · have hrun : (Counting.ofLevel 7 .sum).runOn ⟨⟨[⟨.minus, 0, 1⟩, ⟨.leftParen, 1, 2⟩,
        ⟨.identifier "x", 2, 3⟩, ⟨.plus, 4, 5⟩, ⟨.identifier "y", 6, 7⟩, ⟨.rightParen, 7, 8⟩],
        8, 1024⟩, 0, 0⟩ =
        some (.ok (.neg (.binary .add (.var "x" 2) (.var "y" 6) 4)), ⟨⟨[], 8, 1023⟩, 0, 2⟩) := rfl
    exact ⟨_, hrun, ((depth_bounded "-(x + y)").2.2.2 .sum 7 _ _ _ hrun).2 _ rfl⟩
  · obtain ⟨w, hrun, _, hdeepest⟩ := (depth_bounded "-(x +").2.2.1
    have hparse : parse "-(x +".toList = .error ⟨5, .unexpectedEnd⟩ := by cbv
    rw [hparse] at hrun
    exact ⟨w, hrun, hdeepest⟩

end Motion.Formula
