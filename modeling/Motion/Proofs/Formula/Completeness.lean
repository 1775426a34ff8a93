import Motion.Proofs.Formula.Grammar

/-! The parser takes the tokens of a tree off whatever may stand behind them. -/
namespace Motion.Formula

variable {operator? : Token.Kind → Option Operator} {depth : Nat} {p : Parser Expr}

/-- No operator of a chain stands at the front of the tokens. -/
def Stops (operator? : Token.Kind → Option Operator) (rest : List Token) : Prop :=
  ∀ t ∈ rest.head?, operator? t.kind = none

theorem chainFrom_of_stops {rounds : Nat} {left : Expr} {c : Cursor}
    (h : Stops operator? c.tokens) : chainFrom operator? p rounds left c = .ok (left, c) := by
  unfold chainFrom
  split
  · rfl
  · next t ts htokens =>
    have hnone : operator? t.kind = none := by
      apply h
      rw [htokens]
      rfl
    rw [hnone]

theorem chainFrom_of_operator {t : Token} {op : Operator} {ts : List Token} {stop k : Nat}
    {rounds : Nat} {left right : Expr} {c : Cursor} (ht : operator? t.kind = some op)
    (hright : p ⟨ts, stop, k⟩ = .ok (right, c)) :
    chainFrom operator? p (rounds + 1) left ⟨t :: ts, stop, k + 1⟩ =
      chainFrom operator? p rounds (.binary op left right t.start) c := by
  rw [chainFrom]
  dsimp only
  rw [ht]
  dsimp only
  rw [if_neg (Nat.succ_ne_zero k), Nat.add_sub_cancel, hright]

theorem chainFrom_of_no_operators {rounds : Nat} {left : Expr} {c : Cursor}
    (h : c.operators = 0) :
    chainFrom operator? p rounds left c = chainFrom operator? p 0 left c := by
  cases rounds with
  | zero => rfl
  | succ rounds =>
    rw [chainFrom, chainFrom]
    split
    · rfl
    · split
      · rfl
      · dsimp only
        rw [if_pos h]

/-- As long as there are enough rounds for the operators, their number does not count. -/
theorem chainFrom_rounds
    (hmono : ∀ c e c', p c = .ok (e, c') → c'.operators ≤ c.operators)
    {rounds rounds' : Nat} {left : Expr} {c : Cursor} (h : c.operators ≤ rounds)
    (h' : c.operators ≤ rounds') :
    chainFrom operator? p rounds left c = chainFrom operator? p rounds' left c := by
  induction rounds generalizing rounds' left c with
  | zero => exact (chainFrom_of_no_operators (Nat.le_zero.mp h)).symm
  | succ rounds ih =>
    cases rounds' with
    | zero => exact chainFrom_of_no_operators (Nat.le_zero.mp h')
    | succ rounds' =>
      rw [chainFrom, chainFrom]
      split
      · rfl
      · next t ts htokens =>
        split
        · rfl
        · next op hop =>
          dsimp only
          split
          · rfl
          · next hpos =>
            cases hright : p { c with tokens := ts, operators := c.operators - 1 } with
            | error e => rfl
            | ok result =>
              obtain ⟨right, c₁⟩ := result
              have hle : c₁.operators ≤ c.operators - 1 := hmono _ _ _ hright
              dsimp only
              exact ih (by omega) (by omega)

/-- A parser takes the tokens of a tree off everything that may follow them. -/
def Takes (p : Parser Expr) (follow : List Token → Prop) (ts : List Token) (e : Expr) (n : Nat) :
    Prop :=
  ∀ rest stop k, follow rest → p ⟨ts ++ rest, stop, n + k⟩ = .ok (e, ⟨rest, stop, k⟩)

/-- A chain gets to a tree and goes on from there. The operators that are left serve as the number
of rounds. -/
def Reaches (operator? : Token.Kind → Option Operator) (p : Parser Expr)
    (follow : List Token → Prop) (ts : List Token) (e : Expr) (n : Nat) : Prop :=
  ∀ rest stop k, follow rest → chain operator? p ⟨ts ++ rest, stop, n + k⟩ =
    chainFrom operator? p k e ⟨rest, stop, k⟩

variable {follow : List Token → Prop} {ts : List Token} {e : Expr} {n : Nat}

theorem reaches_of_takes (h : Takes p follow ts e n) : Reaches operator? p follow ts e n := by
  intro rest stop k hrest
  rw [chain, h rest stop k hrest]

theorem reaches_join (hmono : ∀ c e c', p c = .ok (e, c') → c'.operators ≤ c.operators)
    (hfollow : ∀ t rest, (operator? t.kind).isSome → follow (t :: rest))
    {t : Token} {op : Operator} {ts₁ ts₂ : List Token} {l r : Expr} {n₁ n₂ : Nat}
    (hl : Reaches operator? p follow ts₁ l n₁) (ht : operator? t.kind = some op)
    (hr : Takes p follow ts₂ r n₂) :
    Reaches operator? p follow (ts₁ ++ t :: ts₂) (.binary op l r t.start) (n₁ + 1 + n₂) := by
  intro rest stop k hrest
  have hsome : (operator? t.kind).isSome := by rw [ht]; rfl
  have hleft := hl (t :: (ts₂ ++ rest)) stop (n₂ + k + 1) (hfollow t _ hsome)
  have hcount : n₁ + (n₂ + k + 1) = n₁ + 1 + n₂ + k := by omega
  rw [hcount] at hleft
  calc
    chain operator? p ⟨(ts₁ ++ t :: ts₂) ++ rest, stop, n₁ + 1 + n₂ + k⟩ =
        chain operator? p ⟨ts₁ ++ t :: (ts₂ ++ rest), stop, n₁ + 1 + n₂ + k⟩ := by
      rw [List.append_assoc, List.cons_append]
    _ = chainFrom operator? p (n₂ + k + 1) l ⟨t :: (ts₂ ++ rest), stop, n₂ + k + 1⟩ := hleft
    _ = chainFrom operator? p (n₂ + k) (.binary op l r t.start) ⟨rest, stop, k⟩ :=
      chainFrom_of_operator ht (hr rest stop k hrest)
    _ = chainFrom operator? p k (.binary op l r t.start) ⟨rest, stop, k⟩ :=
      chainFrom_rounds hmono (Nat.le_add_left k n₂) (Nat.le_refl k)

theorem takes_of_reaches (h : Reaches operator? p follow ts e n) :
    Takes (chain operator? p) (fun rest => follow rest ∧ Stops operator? rest) ts e n := by
  intro rest stop k hrest
  rw [h rest stop k hrest.1, chainFrom_of_stops hrest.2]

/-- What the parser of a level does with the tokens of a tree of that level. -/
def Accepts (depth : Nat) : Level → List Token → Expr → Nat → Prop
  | .operand => Takes (operand depth) (fun rest => opensParen rest = false)
  | .product =>
    Reaches Operator.multiplicative? (operand depth) (fun rest => opensParen rest = false)
  | .sum =>
    Reaches Operator.additive? (chain Operator.multiplicative? (operand depth))
      (fun rest => opensParen rest = false ∧ Stops Operator.multiplicative? rest)

theorem takes_sum_of_accepts (h : Accepts depth .sum ts e n) :
    Takes (sum (operand depth)) (fun rest => (opensParen rest = false ∧
      Stops Operator.multiplicative? rest) ∧ Stops Operator.additive? rest) ts e n :=
  takes_of_reaches h

theorem opensParen_of_multiplicative {t : Token} (h : (Operator.multiplicative? t.kind).isSome)
    (rest : List Token) : opensParen (t :: rest) = false := by
  obtain ⟨kind, start, stop⟩ := t
  cases kind <;> first | rfl | cases h

theorem opensParen_of_additive {t : Token} (h : (Operator.additive? t.kind).isSome)
    (rest : List Token) :
    opensParen (t :: rest) = false ∧ Stops Operator.multiplicative? (t :: rest) := by
  obtain ⟨kind, start, stop⟩ := t
  constructor
  · cases kind <;> first | rfl | cases h
  · intro t' ht'
    obtain rfl : _ = t' := Option.some.inj ht'
    cases kind <;> first | rfl | cases h

theorem takes_number (x : Float) (start stop : Nat) :
    Takes (operand depth) (fun rest => opensParen rest = false) [⟨.number x, start, stop⟩]
      (.number x) 0 := by
  intro rest stop k _
  rw [operand, Nat.zero_add]
  rfl

theorem takes_identifier (name : String) (start stop : Nat) :
    Takes (operand depth) (fun rest => opensParen rest = false) [⟨.identifier name, start, stop⟩]
      (.var name start) 0 := by
  intro rest stop k hrest
  rw [operand, Nat.zero_add, List.cons_append, List.nil_append]
  dsimp only
  rw [hrest, if_neg Bool.false_ne_true]

theorem takes_minus {start stop : Nat}
    (h : Takes (operand depth) (fun rest => opensParen rest = false) ts e n) :
    Takes (operand (depth + 1)) (fun rest => opensParen rest = false) (⟨.minus, start, stop⟩ :: ts)
      (.neg e) n := by
  intro rest stop k hrest
  rw [operand, List.cons_append]
  dsimp only
  rw [h rest stop k hrest]

theorem takes_group {start stop start' stop' : Nat} (h : Accepts depth .sum ts e n) :
    Takes (operand (depth + 1)) (fun rest => opensParen rest = false)
      (⟨.leftParen, start, stop⟩ :: (ts ++ [⟨.rightParen, start', stop'⟩])) e n := by
  intro rest stop k _
  have hfollow : (opensParen (⟨.rightParen, start', stop'⟩ :: rest) = false ∧
      Stops Operator.multiplicative? (⟨.rightParen, start', stop'⟩ :: rest)) ∧
      Stops Operator.additive? (⟨.rightParen, start', stop'⟩ :: rest) := by
    refine ⟨⟨rfl, ?_⟩, ?_⟩
    · rintro t ⟨⟩
      rfl
    · rintro t ⟨⟩
      rfl
  have hsum := takes_sum_of_accepts h (⟨.rightParen, start', stop'⟩ :: rest) stop k hfollow
  rw [operand, List.cons_append, List.append_assoc, List.singleton_append]
  dsimp only
  rw [hsum]
  rfl

/-- The parser accepts every tree of the grammar that it has the depth for. -/
theorem accepts_of_derives {level : Level} {d : Nat} (h : Derives level ts e n d) (hd : d ≤ depth) :
    Accepts depth level ts e n := by
  induction h generalizing depth with
  | number => exact takes_number _ _ _
  | identifier => exact takes_identifier _ _ _
  | minus _ ih =>
    obtain ⟨depth, rfl⟩ := Nat.exists_eq_succ_of_ne_zero (Nat.ne_of_gt (Nat.zero_lt_of_lt hd))
    exact takes_minus (ih (Nat.le_of_succ_le_succ hd))
  | group _ ih =>
    obtain ⟨depth, rfl⟩ := Nat.exists_eq_succ_of_ne_zero (Nat.ne_of_gt (Nat.zero_lt_of_lt hd))
    exact takes_group (ih (Nat.le_of_succ_le_succ hd))
  | ofOperand _ ih => exact reaches_of_takes (ih hd)
  | multiply _ ht _ ihl ihr =>
    obtain ⟨hdl, hdr⟩ := Nat.max_le.mp hd
    exact reaches_join (sound_operand depth).operators_le
      (fun t rest h => opensParen_of_multiplicative h rest) (ihl hdl) ht (ihr hdr)
  | ofProduct _ ih => exact reaches_of_takes (takes_of_reaches (ih hd))
  | add _ ht _ ihl ihr =>
    obtain ⟨hdl, hdr⟩ := Nat.max_le.mp hd
    exact reaches_join (sound_chain joins_product (sound_operand depth)).operators_le
      (fun t rest h => opensParen_of_additive h rest) (ihl hdl) ht (takes_of_reaches (ihr hdr))

/-- The tokens of a tree, with nothing behind them, leave the operators that it does not use. -/
theorem sum_of_derives {d : Nat} (h : Derives .sum ts e n d) (hd : d ≤ depth) (stop k : Nat) :
    sum (operand depth) ⟨ts, stop, n + k⟩ = .ok (e, ⟨[], stop, k⟩) := by
  have hnone : ∀ operator? : Token.Kind → Option Operator, Stops operator? [] := by
    rintro operator? t ⟨⟩
  have hsum := takes_sum_of_accepts (accepts_of_derives h hd) [] stop k
    ⟨⟨rfl, hnone _⟩, hnone _⟩
  rw [List.append_nil] at hsum
  exact hsum

theorem derives_unique {e' : Expr} {n' d d' : Nat} (h : Derives .sum ts e n d)
    (h' : Derives .sum ts e' n' d') : e = e' ∧ n = n' := by
  have hleft := sum_of_derives h (Nat.le_max_left d d') 0 n'
  have hright := sum_of_derives h' (Nat.le_max_right d d') 0 n
  rw [Nat.add_comm n' n, hleft] at hright
  cases hright
  exact ⟨rfl, rfl⟩

theorem parseTokens_eq_ok_iff {stop : Nat} :
    parseTokens stop ts = .ok e ↔
      ∃ n d, Derives .sum ts e n d ∧ n ≤ maxOperators ∧ d ≤ maxDepth := by
  constructor
  · intro h
    unfold parseTokens at h
    split at h
    · cases h
    · split at h
      · cases h
      · next e₁ c hsum =>
        obtain ⟨ts₁, n, d, hts, hder, hd, hn⟩ := sound_sum (sound_operand maxDepth) _ _ _ hsum
        split at h
        · next hnil =>
          cases h
          rw [hnil, List.append_nil] at hts
          change ts = ts₁ at hts
          subst hts
          exact ⟨n, d, hder, Nat.le.intro hn.symm, hd⟩
        · cases h
  · rintro ⟨n, d, h, hn, hd⟩
    obtain ⟨k, hk⟩ := Nat.exists_eq_add_of_le hn
    have hsum := sum_of_derives h hd stop k
    rw [← hk] at hsum
    unfold parseTokens
    split
    · exact absurd rfl (tokens_ne_nil_of_derives h)
    · rw [hsum]

theorem parse_eq_ok_iff {cs : List Char} :
    parse cs = .ok e ↔
      ∃ ts n d, lex cs = .ok ts ∧ Derives .sum ts e n d ∧ n ≤ maxOperators ∧ d ≤ maxDepth := by
  unfold parse
  cases hlex : lex cs with
  | error err => simp
  | ok ts =>
    dsimp only
    rw [parseTokens_eq_ok_iff]
    simp

end Motion.Formula
