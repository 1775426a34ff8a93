import Motion.Pattern.Match

/-! Which patterns an engine compiles, and what it says against the others. -/
namespace Motion.Pattern

/-- An engine builds the expression of every alternative. -/
def Engine.Builds (engine : Engine) : Prop :=
  ∀ alternative, engine.refusal? (expression alternative) = none

theorem builds_unlimited : Engine.unlimited.Builds := fun _ => rfl

/-- An engine says something against the first alternative of a pattern that it does not build. -/
def Refuses (engine : Engine) (pattern message : String) : Prop :=
  ∃ before b after, alternatives pattern.toList = before ++ b :: after ∧
    engine.refusal? (expression b) = some message ∧
    ∀ a ∈ before, engine.refusal? (expression a) = none

variable {engine : Engine} {pattern : String}

theorem refusal?_eq_some_iff {message : String} :
    refusal? engine (alternatives pattern.toList) = some message ↔
      Refuses engine pattern message := List.findSome?_eq_some_iff

theorem refusal?_eq_none_iff {branches : List (List Char)} :
    refusal? engine branches = none ↔
      ∀ b ∈ branches, engine.refusal? (expression b) = none := List.findSome?_eq_none_iff

/-- A valid pattern compiles unless the engine refuses one of its alternatives. -/
theorem compile_of_valid (h : validate pattern = .ok ()) :
    compile engine pattern =
      (refusal? engine (alternatives pattern.toList)).elim
        (.ok ⟨pattern, alternatives pattern.toList⟩)
        fun message => .error (.invalid pattern message) := by
  rw [compile, h]
  simp only [bind, Except.bind]
  cases refusal? engine (alternatives pattern.toList) <;> rfl

theorem compile_of_not_valid {e : Error} (h : validate pattern = .error e) :
    compile engine pattern = .error e := by
  rw [compile, h]
  rfl

theorem compile_eq_ok_iff {p : Pattern} :
    compile engine pattern = .ok p ↔
      validate pattern = .ok () ∧
        (∀ b ∈ alternatives pattern.toList, engine.refusal? (expression b) = none) ∧
        p = ⟨pattern, alternatives pattern.toList⟩ := by
  cases hvalid : validate pattern with
  | error e => simp [compile_of_not_valid hvalid]
  | ok u =>
    rw [compile_of_valid hvalid, ← refusal?_eq_none_iff]
    cases refusal? engine (alternatives pattern.toList) <;> simp [eq_comm]

/-- A pattern fails to compile where it is not valid, and where the engine refuses an alternative of
it. -/
theorem compile_fails_iff {e : Error} :
    compile engine pattern = .error e ↔
      validate pattern = .error e ∨
        validate pattern = .ok () ∧ ∃ message, Refuses engine pattern message ∧
          e = .invalid pattern message := by
  cases hvalid : validate pattern with
  | error e => simp [compile_of_not_valid hvalid]
  | ok u =>
    simp only [compile_of_valid hvalid, ← refusal?_eq_some_iff]
    cases refusal? engine (alternatives pattern.toList) <;> simp [eq_comm]

/-- An engine that takes expressions of at most five characters refuses the second alternative. -/
example : compile ⟨fun regex => if 5 < regex.length then some "too long" else none⟩ "a* OR ab*" =
    .error (.invalid "a* OR ab*" "too long") := by rfl

theorem compile_of_builds (hbuilds : engine.Builds) (h : validate pattern = .ok ()) :
    compile engine pattern = .ok ⟨pattern, alternatives pattern.toList⟩ :=
  compile_eq_ok_iff.mpr ⟨h, fun b _ => hbuilds b, rfl⟩

/-- What one engine compiles, the engine that builds everything compiles in the same way. -/
theorem compile_unlimited {p : Pattern} (h : compile engine pattern = .ok p) :
    compile .unlimited pattern = .ok p := by
  obtain ⟨hvalid, -, rfl⟩ := compile_eq_ok_iff.mp h
  exact compile_of_builds builds_unlimited hvalid

theorem isMatch_of_compile {p : Pattern} (h : compile engine pattern = .ok p) (name : String) :
    isMatch engine name pattern = p.matchesName name := by
  rw [isMatch, h]

theorem isMatch_of_not_valid {e : Error} (h : validate pattern = .error e) (name : String) :
    isMatch engine name pattern = false := by
  rw [isMatch, compile_of_not_valid h]

end Motion.Pattern
