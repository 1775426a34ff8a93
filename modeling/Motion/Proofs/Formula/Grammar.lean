import Motion.Formula.Parser
import Motion.Proofs.Outcome

/-! The grammar of formulas as derivations, and the parser's soundness for it. -/
namespace Motion.Formula

/-- The three levels of the grammar, from the tightest to the loosest. -/
inductive Level where
  | operand
  | product
  | sum

/-- Tokens form a tree at a level of the grammar. The first number counts the binary operators, the
second one the parentheses and minus signs that are open at the deepest point. -/
inductive Derives : Level → List Token → Expr → Nat → Nat → Prop
  | number {x : Float} {start stop : Nat} :
      Derives .operand [⟨.number x, start, stop⟩] (.number x) 0 0
  | identifier {name : String} {start stop : Nat} :
      Derives .operand [⟨.identifier name, start, stop⟩] (.var name start) 0 0
  | minus {start stop : Nat} {ts : List Token} {e : Expr} {n d : Nat}
      (h : Derives .operand ts e n d) :
      Derives .operand (⟨.minus, start, stop⟩ :: ts) (.neg e) n (d + 1)
  | group {start stop start' stop' : Nat} {ts : List Token} {e : Expr} {n d : Nat}
      (h : Derives .sum ts e n d) :
      Derives .operand (⟨.leftParen, start, stop⟩ :: (ts ++ [⟨.rightParen, start', stop'⟩])) e n
        (d + 1)
  | ofOperand {ts : List Token} {e : Expr} {n d : Nat} (h : Derives .operand ts e n d) :
      Derives .product ts e n d
  | multiply {t : Token} {op : Operator} {ts₁ ts₂ : List Token} {l r : Expr} {n₁ n₂ d₁ d₂ : Nat}
      (hl : Derives .product ts₁ l n₁ d₁) (ht : Operator.multiplicative? t.kind = some op)
      (hr : Derives .operand ts₂ r n₂ d₂) :
      Derives .product (ts₁ ++ t :: ts₂) (.binary op l r t.start) (n₁ + 1 + n₂) (max d₁ d₂)
  | ofProduct {ts : List Token} {e : Expr} {n d : Nat} (h : Derives .product ts e n d) :
      Derives .sum ts e n d
  | add {t : Token} {op : Operator} {ts₁ ts₂ : List Token} {l r : Expr} {n₁ n₂ d₁ d₂ : Nat}
      (hl : Derives .sum ts₁ l n₁ d₁) (ht : Operator.additive? t.kind = some op)
      (hr : Derives .product ts₂ r n₂ d₂) :
      Derives .sum (ts₁ ++ t :: ts₂) (.binary op l r t.start) (n₁ + 1 + n₂) (max d₁ d₂)

theorem tokens_ne_nil_of_derives {level : Level} {ts : List Token} {e : Expr} {n d : Nat}
    (h : Derives level ts e n d) : ts ≠ [] := by
  induction h with
  | number => simp
  | identifier => simp
  | minus _ _ => simp
  | group _ _ => simp
  | ofOperand _ ih => exact ih
  | multiply _ _ _ _ _ => simp
  | ofProduct _ ih => exact ih
  | add _ _ _ _ _ => simp

/-- The trees of a level are chains of trees of the level below. -/
structure Joins (operator? : Token.Kind → Option Operator) (lower upper : Level) : Prop where
  single : ∀ {ts e n d}, Derives lower ts e n d → Derives upper ts e n d
  join : ∀ {t op ts₁ ts₂ l r n₁ n₂ d₁ d₂}, Derives upper ts₁ l n₁ d₁ →
    operator? t.kind = some op → Derives lower ts₂ r n₂ d₂ →
    Derives upper (ts₁ ++ t :: ts₂) (.binary op l r t.start) (n₁ + 1 + n₂) (max d₁ d₂)

theorem joins_product : Joins Operator.multiplicative? .operand .product :=
  ⟨.ofOperand, .multiply⟩

theorem joins_sum : Joins Operator.additive? .product .sum := ⟨.ofProduct, .add⟩

/-- Whatever a parser takes off the tokens derives its tree and uses up the operators in it. -/
def Sound (level : Level) (depth : Nat) (p : Parser Expr) : Prop :=
  ∀ c e c', p c = .ok (e, c') → ∃ ts n d, c.tokens = ts ++ c'.tokens ∧ Derives level ts e n d ∧
    d ≤ depth ∧ c.operators = n + c'.operators

variable {operator? : Token.Kind → Option Operator} {lower upper : Level} {depth : Nat}
  {p : Parser Expr}

/-- A chain ends where it stands, or takes an operator and an operand and goes on. -/
theorem chainFrom_cases {rounds : Nat} {left : Expr} {c : Cursor} {e : Expr} {c' : Cursor}
    (h : chainFrom operator? p rounds left c = .ok (e, c')) :
    e = left ∧ c' = c ∨
      ∃ t ts op rounds' right c₁, rounds = rounds' + 1 ∧ c.tokens = t :: ts ∧
        operator? t.kind = some op ∧ 0 < c.operators ∧
        p { c with tokens := ts, operators := c.operators - 1 } = .ok (right, c₁) ∧
        chainFrom operator? p rounds' (.binary op left right t.start) c₁ = .ok (e, c') := by
  unfold chainFrom at h
  split at h
  · cases h
    exact Or.inl ⟨rfl, rfl⟩
  · next t ts htokens =>
    split at h
    · cases h
      exact Or.inl ⟨rfl, rfl⟩
    · next op hop =>
      cases rounds with
      | zero => cases h
      | succ rounds =>
        dsimp only at h
        split at h
        · cases h
        · next hpos =>
          split at h
          · cases h
          · next right c₁ hright =>
            exact Or.inr ⟨t, ts, op, rounds, right, c₁, rfl, htokens, hop, Nat.pos_of_ne_zero hpos,
              hright, h⟩

/-- A chain derives what it has so far together with what it goes on to take. -/
theorem derives_of_chainFrom (hj : Joins operator? lower upper) (hp : Sound lower depth p)
    {rounds : Nat} {left : Expr} {c : Cursor} {e : Expr} {c' : Cursor} {ts₀ : List Token}
    {n₀ d₀ : Nat} (hleft : Derives upper ts₀ left n₀ d₀) (hd : d₀ ≤ depth)
    (h : chainFrom operator? p rounds left c = .ok (e, c')) :
    ∃ ts n d, c.tokens = ts ++ c'.tokens ∧ Derives upper (ts₀ ++ ts) e (n₀ + n) d ∧ d ≤ depth ∧
      c.operators = n + c'.operators := by
  induction rounds generalizing left c ts₀ n₀ d₀ with
  | zero =>
    rcases chainFrom_cases h with ⟨rfl, rfl⟩ | ⟨_, _, _, _, _, _, hrounds, _⟩
    · exact ⟨[], 0, d₀, rfl, by rwa [List.append_nil], hd, (Nat.zero_add _).symm⟩
    · cases hrounds
  | succ rounds ih =>
    rcases chainFrom_cases h with ⟨rfl, rfl⟩ |
      ⟨t, ts, op, rounds', right, c₁, hrounds, htokens, hop, hpos, hright, hrest⟩
    · exact ⟨[], 0, d₀, rfl, by rwa [List.append_nil], hd, (Nat.zero_add _).symm⟩
    · obtain rfl : rounds = rounds' := Nat.succ.inj hrounds
      obtain ⟨ts₁, n₁, d₁, hts, hder, hd₁, hn₁⟩ := hp _ _ _ hright
      have hmax : max d₀ d₁ ≤ depth := Nat.max_le.mpr ⟨hd, hd₁⟩
      obtain ⟨ts₂, n₂, d₂, hts₂, hder₂, hd₂, hn₂⟩ := ih (hj.join hleft hop hder) hmax hrest
      refine ⟨t :: (ts₁ ++ ts₂), 1 + n₁ + n₂, d₂, ?_, ?_, hd₂, ?_⟩
      · change ts = ts₁ ++ c₁.tokens at hts
        rw [htokens, hts, hts₂, List.cons_append, List.append_assoc]
      · rw [List.append_assoc, List.cons_append] at hder₂
        rw [← Nat.add_assoc, ← Nat.add_assoc]
        exact hder₂
      · change c.operators - 1 = n₁ + c₁.operators at hn₁
        omega

theorem sound_chain (hj : Joins operator? lower upper) (hp : Sound lower depth p) :
    Sound upper depth (chain operator? p) := by
  intro c e c' h
  unfold chain at h
  split at h
  · cases h
  · next left c₁ hleft =>
    obtain ⟨ts₁, n₁, d₁, hts, hder, hd₁, hn₁⟩ := hp _ _ _ hleft
    obtain ⟨ts₂, n₂, d₂, hts₂, hder₂, hd₂, hn₂⟩ :=
      derives_of_chainFrom hj hp (hj.single hder) hd₁ h
    refine ⟨ts₁ ++ ts₂, n₁ + n₂, d₂, ?_, hder₂, hd₂, ?_⟩
    · rw [hts, hts₂, List.append_assoc]
    · omega

theorem sound_sum (hp : Sound .operand depth p) : Sound .sum depth (sum p) :=
  sound_chain joins_sum (sound_chain joins_product hp)

theorem closeParen_eq_ok {e e' : Expr} {c c' : Cursor} (h : closeParen e c = .ok (e', c')) :
    e' = e ∧ (∃ start stop, c.tokens = ⟨.rightParen, start, stop⟩ :: c'.tokens) ∧
      c'.operators = c.operators := by
  unfold closeParen at h
  split at h
  · cases h
  · next start stop ts htokens =>
    cases h
    exact ⟨rfl, ⟨start, stop, htokens⟩, rfl⟩
  · cases h

/-- An operand is a number, a name without a call, a negation or a group. -/
theorem operand_cases {c : Cursor} {e : Expr} {c' : Cursor}
    (h : operand depth c = .ok (e, c')) :
    ∃ t ts, c.tokens = t :: ts ∧
      ((∃ x, t.kind = .number x ∧ e = .number x ∧ c' = { c with tokens := ts }) ∨
        (∃ name, t.kind = .identifier name ∧ e = .var name t.start ∧
          c' = { c with tokens := ts }) ∨
        (∃ depth' e₁, depth = depth' + 1 ∧ t.kind = .minus ∧ e = .neg e₁ ∧
          operand depth' { c with tokens := ts } = .ok (e₁, c')) ∨
        ∃ depth' e₁ c₁, depth = depth' + 1 ∧ t.kind = .leftParen ∧
          sum (operand depth') { c with tokens := ts } = .ok (e₁, c₁) ∧
          closeParen e₁ c₁ = .ok (e, c')) := by
  unfold operand at h
  split at h
  · cases h
  · next t ts htokens =>
    refine ⟨t, ts, htokens, ?_⟩
    dsimp only at h
    split at h
    · next x hkind =>
      cases h
      exact Or.inl ⟨x, hkind, rfl, rfl⟩
    · next name hkind =>
      split at h
      · cases h
      · cases h
        exact Or.inr (Or.inl ⟨name, hkind, rfl, rfl⟩)
    · next hkind =>
      cases depth with
      | zero => cases h
      | succ depth =>
        dsimp only at h
        split at h
        · cases h
        · next e₁ c₁ hinner =>
          cases h
          exact Or.inr (Or.inr (Or.inl ⟨depth, e₁, rfl, hkind, rfl, hinner⟩))
    · next hkind =>
      cases depth with
      | zero => cases h
      | succ depth =>
        dsimp only at h
        split at h
        · cases h
        · next e₁ c₁ hinner => exact Or.inr (Or.inr (Or.inr ⟨depth, e₁, c₁, rfl, hkind, hinner, h⟩))
    · cases h

/-- In one more parenthesis or minus sign an operand is sound as far as the shallower ones are. -/
theorem sound_operand_of
    (ih : ∀ depth', depth = depth' + 1 → Sound .operand depth' (operand depth')) :
    Sound .operand depth (operand depth) := by
  intro c e c' h
  obtain ⟨⟨kind, start, stop⟩, ts, htokens, hcases⟩ := operand_cases h
  rcases hcases with ⟨x, rfl, rfl, rfl⟩ | ⟨name, rfl, rfl, rfl⟩ |
    ⟨depth', e₁, hdepth, rfl, rfl, hinner⟩ | ⟨depth', e₁, c₁, hdepth, rfl, hinner, hclose⟩
  · exact ⟨_, 0, 0, htokens, .number, Nat.zero_le depth, (Nat.zero_add _).symm⟩
  · exact ⟨_, 0, 0, htokens, .identifier, Nat.zero_le depth, (Nat.zero_add _).symm⟩
  · obtain ⟨ts₁, n, d, hts, hder, hd, hn⟩ := ih depth' hdepth _ _ _ hinner
    refine ⟨⟨.minus, start, stop⟩ :: ts₁, n, d + 1, ?_, hder.minus, by omega, hn⟩
    change ts = ts₁ ++ c'.tokens at hts
    rw [htokens, hts, List.cons_append]
  · obtain ⟨ts₁, n, d, hts, hder, hd, hn⟩ := sound_sum (ih depth' hdepth) _ _ _ hinner
    obtain ⟨rfl, ⟨start', stop', hright⟩, hoperators⟩ := closeParen_eq_ok hclose
    refine ⟨⟨.leftParen, start, stop⟩ :: (ts₁ ++ [⟨.rightParen, start', stop'⟩]), n, d + 1, ?_,
      hder.group, by omega, hn.trans (by rw [hoperators])⟩
    change ts = ts₁ ++ c₁.tokens at hts
    rw [htokens, hts, hright, List.cons_append, List.append_assoc]
    rfl

theorem sound_operand (depth : Nat) : Sound .operand depth (operand depth) := by
  induction depth with
  | zero =>
    apply sound_operand_of
    intro depth' h
    cases h
  | succ depth ih =>
    apply sound_operand_of
    intro depth' h
    cases h
    exact ih

theorem Sound.operators_le {level : Level} (hp : Sound level depth p) (c : Cursor) (e : Expr)
    (c' : Cursor) (h : p c = .ok (e, c')) : c'.operators ≤ c.operators := by
  obtain ⟨_, n, _, _, _, _, hn⟩ := hp _ _ _ h
  omega

end Motion.Formula
