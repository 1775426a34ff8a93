import Motion.Proofs.Formula.Completeness

/-! The limits of the parser bound the height of a tree, and evaluation goes as deep as the tree is
high. -/
namespace Motion.Formula

namespace Expr

/-- How many binary nodes a tree has. -/
def binaries : Expr → Nat
  | number _ => 0
  | var _ _ => 0
  | neg e => e.binaries
  | binary _ left right _ => left.binaries + 1 + right.binaries

/-- The most negations on a path from the root to a leaf. -/
def negations : Expr → Nat
  | number _ => 0
  | var _ _ => 0
  | neg e => e.negations + 1
  | binary _ left right _ => max left.negations right.negations

/-- The number of nodes on the longest path from the root to a leaf. -/
def height : Expr → Nat
  | number _ => 1
  | var _ _ => 1
  | neg e => e.height + 1
  | binary _ left right _ => max left.height right.height + 1

theorem height_pos (e : Expr) : 0 < e.height := by
  cases e <;> exact Nat.succ_pos _

theorem height_le (e : Expr) : e.height ≤ e.negations + e.binaries + 1 := by
  induction e with
  | number x => exact Nat.le_refl 1
  | var name offset => exact Nat.le_refl 1
  | neg e ih =>
    simp only [height, negations, binaries]
    omega
  | binary op left right offset ihl ihr =>
    simp only [height, negations, binaries]
    omega

/-- Evaluation as `eval` does it where only so many calls of it may be open at once. There is no
outcome where it would take more. -/
def evalWithin (vars : Variables) : Nat → Expr → ExceptT Error Option Float
  | 0, _ => ExceptT.mk none
  | _ + 1, number x => pure x
  | _ + 1, var name offset =>
    match vars name with
    | some x => pure x
    | none => throw ⟨offset, .unknownVariable name⟩
  | calls + 1, neg e => do return -(← evalWithin vars calls e)
  | calls + 1, binary op left right offset => do
    let l ← evalWithin vars calls left
    let r ← evalWithin vars calls right
    ExceptT.mk (some (op.apply offset l r))

variable {vars : Variables} {n : Nat}

theorem evalWithin_of_height_le {e : Expr} (h : e.height ≤ n) :
    (e.evalWithin vars n).run = some (e.eval vars) := by
  induction e generalizing n with
  | number x =>
    obtain ⟨n, rfl⟩ := Nat.exists_eq_add_of_le' h
    rfl
  | var name offset =>
    obtain ⟨n, rfl⟩ := Nat.exists_eq_add_of_le' h
    simp only [height, evalWithin, eval]
    cases vars name <;> rfl
  | neg e ih =>
    obtain ⟨n, rfl⟩ := Nat.exists_eq_add_of_le' (Nat.le_trans (height_pos e.neg) h)
    have hinner := ih (Nat.le_of_succ_le_succ h)
    rw [evalWithin, eval, ExceptT.run_bind, hinner]
    cases e.eval vars <;> rfl
  | binary op left right offset ihl ihr =>
    obtain ⟨n, rfl⟩ := Nat.exists_eq_add_of_le' (Nat.le_trans (height_pos _) h)
    obtain ⟨hl, hr⟩ := Nat.max_le.mp (Nat.le_of_succ_le_succ h)
    rw [evalWithin, eval, ExceptT.run_bind, ihl hl]
    cases left.eval vars with
    | error err => rfl
    | ok l =>
      change (evalWithin vars n right >>= fun r => ExceptT.mk (some (op.apply offset l r))).run = _
      rw [ExceptT.run_bind, ihr hr]
      cases right.eval vars <;> rfl

theorem height_le_of_evalWithin {e : Expr} {x : Float}
    (h : (e.evalWithin vars n).run = some (.ok x)) : e.height ≤ n := by
  induction e generalizing n x with
  | number y =>
    cases n with
    | zero => cases h
    | succ n => exact Nat.succ_pos n
  | var name offset =>
    cases n with
    | zero => cases h
    | succ n => exact Nat.succ_pos n
  | neg e ih =>
    cases n with
    | zero => cases h
    | succ n =>
      rw [evalWithin, ExceptT.run_bind] at h
      obtain ⟨inner, hinner, hrest⟩ := Option.bind_eq_some_iff.mp h
      cases inner with
      | error err => cases hrest
      | ok y => exact Nat.succ_le_succ (ih hinner)
  | binary op left right offset ihl ihr =>
    cases n with
    | zero => cases h
    | succ n =>
      rw [evalWithin, ExceptT.run_bind] at h
      obtain ⟨outcome, hleft, hrest⟩ := Option.bind_eq_some_iff.mp h
      cases outcome with
      | error err => cases hrest
      | ok l =>
        change (evalWithin vars n right >>= fun r =>
          ExceptT.mk (some (op.apply offset l r))).run = _ at hrest
        rw [ExceptT.run_bind] at hrest
        obtain ⟨outcome, hright, hrest⟩ := Option.bind_eq_some_iff.mp hrest
        cases outcome with
        | error err => cases hrest
        | ok r => exact Nat.succ_le_succ (Nat.max_le.mpr ⟨ihl hleft, ihr hright⟩)

/-- An evaluation that comes to a value goes exactly as deep as its tree is high. -/
theorem evalWithin_eq_ok_iff {e : Expr} {x : Float} :
    (e.evalWithin vars n).run = some (.ok x) ↔ e.height ≤ n ∧ e.eval vars = .ok x := by
  constructor
  · intro h
    have hheight := height_le_of_evalWithin h
    rw [evalWithin_of_height_le hheight] at h
    exact ⟨hheight, Option.some.inj h⟩
  · rintro ⟨hheight, hvalue⟩
    rw [evalWithin_of_height_le hheight, hvalue]

end Expr

theorem measures_of_derives {level : Level} {ts : List Token} {e : Expr} {n d : Nat}
    (h : Derives level ts e n d) : e.binaries = n ∧ e.negations ≤ d := by
  induction h with
  | number => exact ⟨rfl, Nat.le_refl 0⟩
  | identifier => exact ⟨rfl, Nat.le_refl 0⟩
  | minus _ ih => exact ⟨ih.1, Nat.succ_le_succ ih.2⟩
  | group _ ih => exact ⟨ih.1, Nat.le_succ_of_le ih.2⟩
  | ofOperand _ ih => exact ih
  | multiply _ _ _ ihl ihr =>
    simp only [Expr.binaries, Expr.negations]
    omega
  | ofProduct _ ih => exact ih
  | add _ _ _ ihl ihr =>
    simp only [Expr.binaries, Expr.negations]
    omega

theorem measures_of_parse {cs : List Char} {e : Expr} (h : parse cs = .ok e) :
    e.binaries ≤ 1024 ∧ e.negations ≤ 256 ∧ e.height ≤ 1281 := by
  obtain ⟨ts, n, d, _, hder, hn, hd⟩ := parse_eq_ok_iff.mp h
  obtain ⟨hbinaries, hnegations⟩ := measures_of_derives hder
  have hbinaries : e.binaries ≤ 1024 := hbinaries ▸ hn
  have hnegations : e.negations ≤ 256 := Nat.le_trans hnegations hd
  have hheight := e.height_le
  exact ⟨hbinaries, hnegations, by omega⟩

end Motion.Formula
