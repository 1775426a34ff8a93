import Motion.Proofs.Formula.Grammar

/-! The parser of formulas with counters, which go up and down where `operand` hands on how much
more may be opened. -/
namespace Motion.Formula

/-- Where a parser that counts is. -/
structure Walk where
  cursor : Cursor
  /-- How many parentheses and minus signs are open. -/
  depth : Nat
  /-- The most that have been open at once so far. -/
  deepest : Nat

/-- One parenthesis or minus sign more is open. -/
def Walk.opened (w : Walk) : Walk :=
  { w with depth := w.depth + 1, deepest := max w.deepest (w.depth + 1) }

def Walk.closed (w : Walk) : Walk := { w with depth := w.depth - 1 }

/-- A parser that counts. What it has counted is there after a failure too. There is no outcome
where its rounds run out. -/
abbrev Counting (α : Type) := ExceptT Error (StateT Walk Option) α

namespace Counting

variable {α β : Type}

def runOn (p : Counting α) (w : Walk) : Option (Except Error α × Walk) := p.run.run w

/-- No outcome, where there are too few rounds for the tokens. -/
def outOfRounds : Counting α := ExceptT.mk fun _ => none

/-- The next token, or none at the end of the text. -/
def peek : Counting (Option Token) := return (← get).cursor.tokens.head?

def bump : Counting Unit :=
  modify fun w => { w with cursor := { w.cursor with tokens := w.cursor.tokens.tail } }

/-- The byte length of the text. -/
def textEnd : Counting Nat := return (← get).cursor.stop

def countOperator (offset : Nat) : Counting Unit := do
  let w ← get
  if w.cursor.operators = 0 then throw ⟨offset, .tooManyOperators⟩
  set { w with cursor := { w.cursor with operators := w.cursor.operators - 1 } }

def enter (offset : Nat) : Counting Unit := do
  let w ← get
  if maxDepth ≤ w.depth then throw ⟨offset, .tooDeep⟩
  set w.opened

def leave : Counting Unit := modify Walk.closed

/-- What stands behind a parenthesis or a minus sign. -/
def nested (offset : Nat) (inner : Counting α) : Counting α := do
  enter offset
  let a ← inner
  leave
  return a

def chainFrom (operator? : Token.Kind → Option Operator) (operand : Counting Expr) :
    Nat → Expr → Counting Expr
  | 0, _ => outOfRounds
  | rounds + 1, left => do
    match ← peek with
    | none => return left
    | some t =>
      match operator? t.kind with
      | none => return left
      | some op => do
        bump
        countOperator t.start
        let right ← operand
        chainFrom operator? operand rounds (.binary op left right t.start)

def chain (operator? : Token.Kind → Option Operator) (rounds : Nat) (operand : Counting Expr) :
    Counting Expr := do
  chainFrom operator? operand rounds (← operand)

def product (rounds : Nat) (operand : Counting Expr) : Counting Expr :=
  chain Operator.multiplicative? rounds operand

def sum (rounds : Nat) (operand : Counting Expr) : Counting Expr :=
  chain Operator.additive? rounds (product rounds operand)

def closeParen : Counting Unit := do
  match ← peek with
  | none => throw ⟨← textEnd, .expectedParen none⟩
  | some ⟨.rightParen, _, _⟩ => bump
  | some t => throw ⟨t.start, .expectedParen t.kind⟩

def variableAt (name : String) (offset : Nat) : Counting Expr := do
  match ← peek with
  | some ⟨.leftParen, _, _⟩ => throw ⟨offset, .functionCall name⟩
  | _ => return .var name offset

/-- An operand that begins with a token, where `inner` parses the operands inside it. -/
def operandAt (rounds : Nat) (inner : Counting Expr) (t : Token) : Counting Expr :=
  match t.kind with
  | .number x => return .number x
  | .identifier name => variableAt name t.start
  | .minus => nested t.start do return .neg (← inner)
  | .leftParen => nested t.start do
    let e ← sum rounds inner
    closeParen
    return e
  | kind => throw ⟨t.start, .unexpectedToken kind⟩

def operand : Nat → Counting Expr
  | 0 => outOfRounds
  | rounds + 1 => do
    match ← peek with
    | none => throw ⟨← textEnd, .unexpectedEnd⟩
    | some t => do
      bump
      operandAt rounds (operand rounds) t

def ofLevel (rounds : Nat) : Level → Counting Expr
  | .operand => operand rounds
  | .product => product rounds (operand rounds)
  | .sum => sum rounds (operand rounds)

/-- What a formula comes to behind its sum. -/
def expectEnd (e : Expr) : Counting Expr := do
  match ← peek with
  | none => return e
  | some t => throw ⟨t.start, .expectedEnd t.kind⟩

def parseTokens (rounds : Nat) : Counting Expr := do
  match ← peek with
  | none => throw ⟨0, .empty⟩
  | some _ => expectEnd (← sum rounds (operand rounds))

/-- The tree of a formula by the parser that counts. -/
def parse (cs : List Char) : Option (Except Error Expr × Walk) :=
  match lex cs with
  | .error e => some (.error e, ⟨⟨[], cs.length, maxOperators⟩, 0, 0⟩)
  | .ok tokens => (parseTokens (tokens.length + 1)).runOn ⟨⟨tokens, cs.length, maxOperators⟩, 0, 0⟩

section Runs

variable {p : Counting α} {f : α → Counting β} {w w' : Walk} {a : α} {e : Error}

theorem runOn_bind (p : Counting α) (f : α → Counting β) (w : Walk) :
    (p >>= f).runOn w = (p.runOn w).bind fun
      | (.ok a, w') => (f a).runOn w'
      | (.error e, w') => some (.error e, w') := by
  rw [runOn, ExceptT.run_bind, StateT.run_bind]
  apply congrArg
  funext ⟨outcome, w'⟩
  cases outcome <;> rfl

theorem runOn_bind_of_ok (h : p.runOn w = some (.ok a, w')) :
    (p >>= f).runOn w = (f a).runOn w' := by
  rw [runOn_bind, h]
  rfl

theorem runOn_bind_of_error (h : p.runOn w = some (.error e, w')) :
    (p >>= f).runOn w = some (.error e, w') := by
  rw [runOn_bind, h]
  rfl

/-- Two parsers in a row both run, or the first one fails. -/
theorem runOn_bind_cases {outcome : Except Error β}
    (h : (p >>= f).runOn w = some (outcome, w')) :
    (∃ a w₁, p.runOn w = some (.ok a, w₁) ∧ (f a).runOn w₁ = some (outcome, w')) ∨
      ∃ e, outcome = .error e ∧ p.runOn w = some (.error e, w') := by
  rw [runOn_bind] at h
  obtain ⟨⟨first, w₁⟩, hp, hf⟩ := Option.bind_eq_some_iff.mp h
  cases first with
  | ok a => exact Or.inl ⟨a, w₁, hp, hf⟩
  | error e =>
    cases hf
    exact Or.inr ⟨e, rfl, hp⟩

theorem runOn_pure (a : α) : runOn (pure a) w = some (.ok a, w) := rfl

theorem runOn_throw (e : Error) : runOn (throw e : Counting α) w = some (.error e, w) := rfl

theorem runOn_peek : peek.runOn w = some (.ok w.cursor.tokens.head?, w) := rfl

theorem runOn_bump : bump.runOn w =
    some (.ok (), { w with cursor := { w.cursor with tokens := w.cursor.tokens.tail } }) := rfl

theorem runOn_bump_cons {t : Token} {ts : List Token} {stop operators depth deepest : Nat} :
    bump.runOn ⟨⟨t :: ts, stop, operators⟩, depth, deepest⟩ =
      some (.ok (), ⟨⟨ts, stop, operators⟩, depth, deepest⟩) := runOn_bump

theorem runOn_textEnd : textEnd.runOn w = some (.ok w.cursor.stop, w) := rfl

theorem runOn_countOperator (offset : Nat) : (countOperator offset).runOn w =
    some (if w.cursor.operators = 0 then (.error ⟨offset, .tooManyOperators⟩, w)
      else
        (.ok (), { w with cursor := { w.cursor with operators := w.cursor.operators - 1 } })) := by
  change (if w.cursor.operators = 0 then _ else _ : Counting Unit).runOn w = _
  split <;> rfl

theorem runOn_countOperator_zero {offset stop depth deepest : Nat} {ts : List Token} :
    (countOperator offset).runOn ⟨⟨ts, stop, 0⟩, depth, deepest⟩ =
      some (.error ⟨offset, .tooManyOperators⟩, ⟨⟨ts, stop, 0⟩, depth, deepest⟩) :=
  runOn_countOperator offset

theorem runOn_countOperator_succ {offset stop operators depth deepest : Nat} {ts : List Token} :
    (countOperator offset).runOn ⟨⟨ts, stop, operators + 1⟩, depth, deepest⟩ =
      some (.ok (), ⟨⟨ts, stop, operators⟩, depth, deepest⟩) := runOn_countOperator offset

theorem runOn_enter (offset : Nat) : (enter offset).runOn w =
    some (if maxDepth ≤ w.depth then (.error ⟨offset, .tooDeep⟩, w) else (.ok (), w.opened)) := by
  change (if maxDepth ≤ w.depth then _ else _ : Counting Unit).runOn w = _
  split <;> rfl

/-- Behind the last parenthesis or minus sign that may be open there is nothing to parse. -/
theorem runOn_nested_of_full {offset : Nat} (h : maxDepth ≤ w.depth) :
    (nested offset p).runOn w = some (.error ⟨offset, .tooDeep⟩, w) := by
  have henter : (enter offset).runOn w = some (.error ⟨offset, .tooDeep⟩, w) := by
    rw [runOn_enter, if_pos h]
  exact runOn_bind_of_error henter

theorem runOn_nested {offset : Nat} (h : w.depth < maxDepth) :
    (nested offset p).runOn w = (p.runOn w.opened).bind fun
      | (.ok a, w') => some (.ok a, w'.closed)
      | (.error e, w') => some (.error e, w') := by
  have henter : (enter offset).runOn w = some (.ok (), w.opened) := by
    rw [runOn_enter, if_neg (Nat.not_le_of_lt h)]
  rw [nested, runOn_bind_of_ok henter, runOn_bind]
  rfl

end Runs

end Counting

/-- What is open is within the limit and has been counted. -/
structure Walk.Within (w : Walk) : Prop where
  depth_le : w.depth ≤ w.deepest
  deepest_le : w.deepest ≤ maxDepth

/-- On the way nothing that was open is forgotten, and the limit is kept. -/
structure Walk.LeadsTo (w w' : Walk) : Prop where
  deepest_le : w.deepest ≤ w'.deepest
  within : w.Within → w'.Within

theorem Walk.LeadsTo.trans {w w' w'' : Walk} (h : w.LeadsTo w') (h' : w'.LeadsTo w'') :
    w.LeadsTo w'' :=
  ⟨Nat.le_trans h.deepest_le h'.deepest_le, fun hw => h'.within (h.within hw)⟩

theorem Walk.leadsTo_of_depth_le {w w' : Walk} (hdepth : w'.depth ≤ w.depth)
    (hdeepest : w'.deepest = w.deepest) : w.LeadsTo w' := by
  refine ⟨Nat.le_of_eq hdeepest.symm, fun hw => ⟨?_, ?_⟩⟩
  · rw [hdeepest]
    exact Nat.le_trans hdepth hw.depth_le
  · rw [hdeepest]
    exact hw.deepest_le

theorem Walk.leadsTo_opened {w : Walk} (h : w.depth < maxDepth) : w.LeadsTo w.opened :=
  ⟨Nat.le_max_left _ _, fun hw => ⟨Nat.le_max_right _ _, Nat.max_le.mpr ⟨hw.deepest_le, h⟩⟩⟩

theorem Walk.leadsTo_closed (w : Walk) : w.LeadsTo w.closed :=
  leadsTo_of_depth_le (Nat.sub_le w.depth 1) rfl

namespace Counting

/-- A parser closes what it opens, unless it fails, and keeps the limit. -/
structure Steady (p : Counting α) : Prop where
  back : ∀ {w a w'}, p.runOn w = some (.ok a, w') → w'.depth = w.depth
  leadsTo : ∀ {w outcome w'}, p.runOn w = some (outcome, w') → w.LeadsTo w'

section Steady

variable {p : Counting α} {f : α → Counting β}

/-- Where a parser opens nothing it is steady. -/
theorem steady_of_unmoved (h : ∀ w, ∃ outcome w', p.runOn w = some (outcome, w') ∧
    w'.depth = w.depth ∧ w'.deepest = w.deepest) : Steady p := by
  have hmoves {w outcome w'} (hrun : p.runOn w = some (outcome, w')) :
      w'.depth = w.depth ∧ w'.deepest = w.deepest := by
    obtain ⟨_, _, hrun', hunmoved⟩ := h w
    rw [hrun'] at hrun
    cases hrun
    exact hunmoved
  constructor
  · intro w a w' hrun
    exact (hmoves hrun).1
  · intro w outcome w' hrun
    obtain ⟨hdepth, hdeepest⟩ := hmoves hrun
    exact Walk.leadsTo_of_depth_le (Nat.le_of_eq hdepth) hdeepest

theorem steady_pure (a : α) : Steady (pure a : Counting α) :=
  steady_of_unmoved fun w => ⟨_, w, runOn_pure a, rfl, rfl⟩

theorem steady_throw (e : Error) : Steady (throw e : Counting α) :=
  steady_of_unmoved fun w => ⟨_, w, runOn_throw e, rfl, rfl⟩

theorem steady_peek : Steady peek := steady_of_unmoved fun w => ⟨_, w, runOn_peek, rfl, rfl⟩

theorem steady_bump : Steady bump := steady_of_unmoved fun _ => ⟨_, _, runOn_bump, rfl, rfl⟩

theorem steady_textEnd : Steady textEnd :=
  steady_of_unmoved fun w => ⟨_, w, runOn_textEnd, rfl, rfl⟩

theorem steady_countOperator (offset : Nat) : Steady (countOperator offset) := by
  apply steady_of_unmoved
  intro w
  rw [runOn_countOperator]
  split
  · exact ⟨_, _, rfl, rfl, rfl⟩
  · exact ⟨_, _, rfl, rfl, rfl⟩

theorem steady_outOfRounds : Steady (outOfRounds : Counting α) where
  back hrun := by cases hrun
  leadsTo hrun := by cases hrun

theorem Steady.bind (hp : Steady p) (hf : ∀ a, Steady (f a)) : Steady (p >>= f) where
  back hrun := by
    rcases runOn_bind_cases hrun with ⟨a, w₁, hfirst, hrest⟩ | ⟨e, herror, _⟩
    · exact ((hf a).back hrest).trans (hp.back hfirst)
    · cases herror
  leadsTo hrun := by
    rcases runOn_bind_cases hrun with ⟨a, w₁, hfirst, hrest⟩ | ⟨e, _, hfirst⟩
    · exact (hp.leadsTo hfirst).trans ((hf a).leadsTo hrest)
    · exact hp.leadsTo hfirst

/-- Neither opening nor closing is steady, but both around a steady parser are. -/
theorem Steady.nested (hp : Steady p) (offset : Nat) : Steady (nested offset p) := by
  constructor
  · intro w a w' hrun
    by_cases hfull : maxDepth ≤ w.depth
    · rw [runOn_nested_of_full hfull] at hrun
      cases hrun
    · rw [runOn_nested (Nat.lt_of_not_le hfull)] at hrun
      obtain ⟨⟨outcome, w₁⟩, hinner, hleave⟩ := Option.bind_eq_some_iff.mp hrun
      cases outcome with
      | error e => cases hleave
      | ok a =>
        cases hleave
        exact congrArg (· - 1) (hp.back hinner)
  · intro w outcome w' hrun
    by_cases hfull : maxDepth ≤ w.depth
    · rw [runOn_nested_of_full hfull] at hrun
      cases hrun
      exact Walk.leadsTo_of_depth_le (Nat.le_refl _) rfl
    · have hlt := Nat.lt_of_not_le hfull
      rw [runOn_nested hlt] at hrun
      obtain ⟨⟨outcome, w₁⟩, hinner, hleave⟩ := Option.bind_eq_some_iff.mp hrun
      have hinto := (Walk.leadsTo_opened hlt).trans (hp.leadsTo hinner)
      cases outcome with
      | error e =>
        cases hleave
        exact hinto
      | ok a =>
        cases hleave
        exact hinto.trans w₁.leadsTo_closed

theorem steady_closeParen : Steady closeParen := by
  refine steady_peek.bind fun t? => ?_
  split
  · exact steady_textEnd.bind fun stop => steady_throw _
  · exact steady_bump
  · exact steady_throw _

variable {operator? : Token.Kind → Option Operator} {inner : Counting Expr}

theorem steady_chainFrom (h : Steady inner) (rounds : Nat) (left : Expr) :
    Steady (chainFrom operator? inner rounds left) := by
  induction rounds generalizing left with
  | zero => exact steady_outOfRounds
  | succ rounds ih =>
    refine steady_peek.bind fun t? => ?_
    split
    · exact steady_pure left
    · next t =>
      split
      · exact steady_pure left
      · next op hop =>
        exact steady_bump.bind fun _ => (steady_countOperator t.start).bind fun _ =>
          h.bind fun right => ih _

theorem steady_chain (h : Steady inner) (rounds : Nat) :
    Steady (chain operator? rounds inner) :=
  h.bind fun left => steady_chainFrom h rounds left

theorem steady_product (h : Steady inner) (rounds : Nat) : Steady (product rounds inner) :=
  steady_chain h rounds

theorem steady_sum (h : Steady inner) (rounds : Nat) : Steady (sum rounds inner) :=
  steady_chain (steady_product h rounds) rounds

theorem steady_variableAt (name : String) (offset : Nat) : Steady (variableAt name offset) := by
  refine steady_peek.bind fun t? => ?_
  split
  · exact steady_throw _
  · exact steady_pure _

theorem steady_operandAt (h : Steady inner) (rounds : Nat) (t : Token) :
    Steady (operandAt rounds inner t) := by
  unfold operandAt
  split
  · exact steady_pure _
  · exact steady_variableAt _ _
  · exact (h.bind fun e => steady_pure _).nested t.start
  · have hgroup := (steady_sum h rounds).bind fun e =>
      steady_closeParen.bind fun _ => steady_pure e
    exact hgroup.nested t.start
  · exact steady_throw _

theorem steady_operand (rounds : Nat) : Steady (operand rounds) := by
  induction rounds with
  | zero => exact steady_outOfRounds
  | succ rounds ih =>
    refine steady_peek.bind fun t? => ?_
    split
    · exact steady_textEnd.bind fun stop => steady_throw _
    · next t => exact steady_bump.bind fun _ => steady_operandAt ih rounds t

theorem steady_ofLevel (rounds : Nat) (level : Level) : Steady (ofLevel rounds level) := by
  have hoperand := steady_operand rounds
  cases level with
  | operand => exact hoperand
  | product => exact steady_product hoperand rounds
  | sum => exact steady_sum hoperand rounds

theorem steady_expectEnd (e : Expr) : Steady (expectEnd e) := by
  refine steady_peek.bind fun t? => ?_
  split
  · exact steady_pure e
  · exact steady_throw _

theorem steady_parseTokens (rounds : Nat) : Steady (parseTokens rounds) := by
  refine steady_peek.bind fun t? => ?_
  split
  · exact steady_throw _
  · exact (steady_sum (steady_operand rounds) rounds).bind fun e => steady_expectEnd e

end Steady

end Counting

end Motion.Formula
