import Motion.Proofs.Pattern.Engine

/-! What an alternative matches as a relation on folded texts, and the tables of `matchTails` as its
decision procedure. -/
namespace Motion.Pattern

/-- A pattern fits a name: an asterisk stands for any run without a line feed, every other character
for itself. -/
inductive Fits : List Char → List Char → Prop
  | nil : Fits [] []
  | letter {c : Char} {ps cs : List Char} (hc : c ≠ wildcard) (h : Fits ps cs) :
      Fits (c :: ps) (c :: cs)
  | stop {ps cs : List Char} (h : Fits ps cs) : Fits (wildcard :: ps) cs
  | take {c : Char} {ps cs : List Char} (hc : wildcardTakes c) (h : Fits (wildcard :: ps) cs) :
      Fits (wildcard :: ps) (c :: cs)

/-- Every pattern fits itself, since an asterisk may stand for an asterisk. -/
theorem fits_refl (w : List Char) : Fits w w := by
  induction w with
  | nil => exact Fits.nil
  | cons c w ih =>
    by_cases hc : c = wildcard
    · subst hc
      have htakes : wildcardTakes wildcard := by decide
      exact Fits.take htakes (Fits.stop ih)
    · exact Fits.letter hc ih

theorem fits_nil_iff (cs : List Char) : Fits [] cs ↔ cs = [] := by
  constructor
  · intro h
    cases h
    rfl
  · rintro rfl
    exact Fits.nil

theorem fits_letter_iff {p : Char} (hp : p ≠ wildcard) (ps cs : List Char) :
    Fits (p :: ps) cs ↔ ∃ rest, cs = p :: rest ∧ Fits ps rest := by
  constructor
  · intro h
    cases h with
    | letter _ h => exact ⟨_, rfl, h⟩
    | stop _ => exact absurd rfl hp
    | take _ _ => exact absurd rfl hp
  · rintro ⟨rest, rfl, h⟩
    exact Fits.letter hp h

theorem fits_wildcard_nil_iff (ps : List Char) : Fits (wildcard :: ps) [] ↔ Fits ps [] := by
  constructor
  · intro h
    cases h with
    | stop h => exact h
  · exact Fits.stop

theorem fits_wildcard_cons_iff (ps : List Char) (c : Char) (cs : List Char) :
    Fits (wildcard :: ps) (c :: cs) ↔
      Fits ps (c :: cs) ∨ wildcardTakes c ∧ Fits (wildcard :: ps) cs := by
  constructor
  · intro h
    cases h with
    | letter hc _ => exact absurd rfl hc
    | stop h => exact Or.inl h
    | take hc h => exact Or.inr ⟨hc, h⟩
  · rintro (h | ⟨hc, h⟩)
    · exact Fits.stop h
    · exact Fits.take hc h

/-- The table of a longer name goes on with the table of its tail. -/
theorem matchTails_cons (c : Char) (cs ps : List Char) :
    matchTails (c :: cs) ps = (matchTails (c :: cs) ps).headD false :: matchTails cs ps := by
  -- on the pattern, since a table is made from that of the rest of the pattern
  induction ps with
  | nil => simp [matchTails, List.replicate_succ]
  | cons p ps ih =>
    by_cases hp : p = wildcard
    · simp only [matchTails, hp, if_true]
      rw [ih]
      rfl
    · simp only [matchTails, hp, if_false]
      rw [ih]
      rfl

theorem headD_letter_nil {p : Char} (hp : p ≠ wildcard) (ps : List Char) :
    (matchTails [] (p :: ps)).headD false = false := by
  simp only [matchTails, hp, if_false, letterTails, List.headD_cons]

theorem headD_letter_cons {p : Char} (hp : p ≠ wildcard) (ps : List Char) (c : Char)
    (cs : List Char) :
    (matchTails (c :: cs) (p :: ps)).headD false =
      (p == c && (matchTails cs ps).headD false) := by
  simp only [matchTails, hp, if_false]
  rw [matchTails_cons]
  rfl

theorem headD_wildcard_nil (ps : List Char) :
    (matchTails [] (wildcard :: ps)).headD false = (matchTails [] ps).headD false := by
  simp only [matchTails, if_true, wildcardTails]

theorem headD_wildcard_cons (ps : List Char) (c : Char) (cs : List Char) :
    (matchTails (c :: cs) (wildcard :: ps)).headD false =
      ((matchTails (c :: cs) ps).headD false ||
        (wildcardTakes c && (matchTails cs (wildcard :: ps)).headD false)) := by
  simp only [matchTails, if_true]
  rw [matchTails_cons]
  rfl

/-- A table begins with whether the pattern fits the whole name. -/
theorem headD_matchTails_iff (name ps : List Char) :
    (matchTails name ps).headD false = true ↔ Fits ps name := by
  induction ps generalizing name with
  | nil =>
    rw [fits_nil_iff]
    cases name <;> simp [matchTails, List.replicate_succ]
  | cons p ps ih =>
    by_cases hp : p = wildcard
    · subst hp
      induction name with
      | nil => rw [headD_wildcard_nil, ih, fits_wildcard_nil_iff]
      | cons c cs ihc =>
        rw [headD_wildcard_cons, fits_wildcard_cons_iff, Bool.or_eq_true, Bool.and_eq_true, ih, ihc]
    · rw [fits_letter_iff hp]
      cases name with
      | nil =>
        rw [headD_letter_nil hp]
        simp
      | cons c cs =>
        rw [headD_letter_cons hp, Bool.and_eq_true, beq_iff_eq, ih]
        constructor
        · rintro ⟨rfl, h⟩
          exact ⟨cs, rfl, h⟩
        · rintro ⟨rest, heq, h⟩
          cases heq
          exact ⟨rfl, h⟩

theorem matchesWhole_iff (alternative name : List Char) :
    matchesWhole alternative name ↔ Fits (alternative.map Text.fold) (name.map Text.fold) :=
  headD_matchTails_iff _ _

theorem groups_ne_nil (rs : List (List Char)) : groups rs ≠ [] := by
  cases rs with
  | nil => simp [groups]
  | cons r rs =>
    unfold groups
    split
    · simp
    · split <;> simp

variable {engine : Engine} {pattern : String}

theorem exists_compile_eq_ok (hbuilds : engine.Builds) (h : (validate pattern).toBool) :
    ∃ p, compile engine pattern = .ok p := by
  cases hvalid : validate pattern with
  | error e =>
    rw [hvalid] at h
    cases h
  | ok u => exact ⟨_, compile_of_builds hbuilds hvalid⟩

/-- A pattern that compiles matches some name, such as its own first alternative. -/
theorem exists_matchesName {p : Pattern} (h : compile engine pattern = .ok p) :
    ∃ name, p.matchesName name := by
  obtain ⟨-, -, rfl⟩ := compile_eq_ok_iff.mp h
  have hne : alternatives pattern.toList ≠ [] := by
    intro hnil
    exact groups_ne_nil _ (List.map_eq_nil_iff.mp hnil)
  obtain ⟨b, hb⟩ := List.exists_mem_of_ne_nil _ hne
  refine ⟨String.ofList b, ?_⟩
  rw [matchesName, List.any_eq_true]
  refine ⟨b, hb, ?_⟩
  rw [String.toList_ofList]
  exact (matchesWhole_iff b b).mpr (fits_refl _)

end Motion.Pattern
