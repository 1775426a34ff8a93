import Mathlib
import Motion.Formula.Evaluate
import Motion.Proofs.Formula.Completeness
import Motion.Proofs.Formula.Spans

namespace Motion.Formula

/-- A tree that has been read fails only over its variables and divisions. -/
theorem kind_of_eval {vars : Variables} {e : Expr} {err : Error} (h : e.eval vars = .error err) :
    err.kind ≠ .malformed := by
  induction e with
  | number x => cases h
  | var name offset =>
    unfold Expr.eval at h
    split at h
    · cases h
    · cases h
      show ErrorKind.unknownVariable ≠ .malformed
      decide
  | neg e ih =>
    rcases bind_eq_error_iff.mp h with h | ⟨x, _, h⟩
    · exact ih h
    · cases h
  | binary op left right offset ihl ihr =>
    rcases bind_eq_error_iff.mp h with h | ⟨l, _, h⟩
    · exact ihl h
    · rcases bind_eq_error_iff.mp h with h | ⟨r, _, h⟩
      · exact ihr h
      · cases op with
        | add => cases h
        | sub => cases h
        | mul => cases h
        | div =>
          unfold Operator.apply at h
          dsimp only at h
          split at h
          · cases h
            show ErrorKind.divisionByZero ≠ .malformed
            decide
          · cases h

/-- A malformed formula is refused before any variable is looked up. -/
theorem evaluate_eq_error_iff_parse {vars : Variables} {text : String} {err : Error}
    (hkind : err.kind = .malformed) :
    evaluate vars text = .error err ↔ parse (body text.toList) = .error err := by
  constructor
  · intro h
    rcases bind_eq_error_iff.mp h with h | ⟨e, _, h⟩
    · exact h
    · exact absurd hkind (kind_of_eval h)
  · intro h
    exact bind_eq_error_iff.mpr (Or.inl h)

/-- The parser decides the grammar within its limits: a text is a formula exactly if its tokens
derive a tree with at most 1024 binary operators and at most 256 parentheses and minus signs open at
once. Tokens derive no more than one tree and stand at the bytes that the tree repeats, and whether
and how a text is malformed does not depend on the variables. -/
theorem parse_iff_derives :
    (∀ (src : String) (e : Expr), parse src.toList = .ok e ↔
      ∃ ts n d, lex src.toList = .ok ts ∧ Derives .sum ts e n d ∧ n ≤ 1024 ∧ d ≤ 256) ∧
    (∀ (ts : List Token) (e e' : Expr) (n n' d d' : Nat), Derives .sum ts e n d →
      Derives .sum ts e' n' d' → e = e' ∧ n = n') ∧
    (∀ (src : String) (ts : List Token), lex src.toList = .ok ts → Reads 0 src.toList ts) ∧
    ∀ (vars vars' : Variables) (src : String) (err : Error), err.kind = .malformed →
      (evaluate vars src = .error err ↔ evaluate vars' src = .error err) := by
  refine ⟨fun src e => parse_eq_ok_iff, ?_, ?_, ?_⟩
  · intro ts e e' n n' d d' h h'
    exact derives_unique h h'
  · intro src ts h
    exact reads_of_lex h
  · intro vars vars' src err hkind
    rw [evaluate_eq_error_iff_parse hkind, evaluate_eq_error_iff_parse hkind]

/-- A product of a negation, and a sum that breaks off. -/
theorem parse_iff_derives_product :
    (∃ ts n d, lex "-x * y".toList = .ok ts ∧
      Derives .sum ts (.binary .mul (.neg (.var "x" 1)) (.var "y" 5) 3) n d ∧ n ≤ 1024 ∧
        d ≤ 256) ∧
    (∀ e n d, Derives .sum [⟨.minus, 0, 1⟩, ⟨.identifier "x", 1, 2⟩, ⟨.star, 3, 4⟩,
        ⟨.identifier "y", 5, 6⟩] e n d →
      e = .binary .mul (.neg (.var "x" 1)) (.var "y" 5) 3 ∧ n = 1) ∧
    Reads 0 "-x * y".toList [⟨.minus, 0, 1⟩, ⟨.identifier "x", 1, 2⟩, ⟨.star, 3, 4⟩,
      ⟨.identifier "y", 5, 6⟩] ∧
    ∀ vars, evaluate vars "x +" = .error ⟨3, .unexpectedEnd⟩ := by
  refine ⟨?_, ?_, ?_, ?_⟩
  · apply (parse_iff_derives.1 "-x * y" _).mp
    cbv
  · intro e n d h
    apply parse_iff_derives.2.1 _ _ _ _ _ _ _ h
    exact .ofProduct (.multiply (t := ⟨.star, 3, 4⟩) (.ofOperand (.minus .identifier)) rfl
      .identifier)
  · apply parse_iff_derives.2.2.1
    cbv
  · intro vars
    have hkind : (⟨3, .unexpectedEnd⟩ : Error).kind = .malformed := rfl
    apply (parse_iff_derives.2.2.2 (fun _ => none) vars "x +" _ hkind).mp
    cbv

end Motion.Formula
