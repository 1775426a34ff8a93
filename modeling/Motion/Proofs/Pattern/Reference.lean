import Motion.Proofs.Pattern.Alternatives
import Motion.Proofs.Text.Fold

/-! What a pattern matches, by cuts of the name into texts that differ from its literals in case
only. -/
namespace Motion.Pattern
open Motion.Text (fold IsCaseless)

/-- Two texts that differ in case only, character by character. -/
def SameFolded (a b : List Char) : Prop := List.Forall₂ (fun x y => fold x = fold y) a b

/-- A name cut along literals: something like the first one, and then for each later one a run
without a line feed and something like the literal. -/
def CutsAs (first : List Char) (later : List (List Char)) (name : List Char) : Prop :=
  ∃ (start : List Char) (segments : List (List Char × List Char)),
    name = start ++ segments.flatMap (fun s => s.1 ++ s.2) ∧ SameFolded first start ∧
      List.Forall₂ (fun literal s => '\n' ∉ s.1 ∧ SameFolded literal s.2) later segments

/-- An alternative with an asterisk before each of its later literals. -/
def joined (first : List Char) (later : List (List Char)) : List Char :=
  first ++ later.flatMap fun literal => wildcard :: literal

theorem isCaseless_of_mem {c : Char} (h : c ∈ '\n' :: metacharacters) : IsCaseless c := by
  have hdisjoint : Text.pointSet (('\n' :: metacharacters).map Char.toNat) &&&
      Text.pointSet Text.casePoints = 0 := by decide +kernel
  exact Text.disjoint_of_land_eq_zero hdisjoint (List.mem_map_of_mem h)

theorem isCaseless_wildcard : IsCaseless wildcard := isCaseless_of_mem (by decide)

theorem isCaseless_newline : IsCaseless '\n' := isCaseless_of_mem List.mem_cons_self

theorem fold_wildcard : fold wildcard = wildcard := Text.fold_of_isCaseless isCaseless_wildcard

theorem fold_ne_wildcard {c : Char} (h : c ≠ wildcard) : fold c ≠ wildcard := by
  intro heq
  rw [← fold_wildcard, Text.fold_eq_iff_of_isCaseless isCaseless_wildcard] at heq
  exact h heq

theorem wildcardTakes_fold (c : Char) : wildcardTakes (fold c) = true ↔ c ≠ '\n' := by
  have hnewline : fold '\n' = '\n' := Text.fold_of_isCaseless isCaseless_newline
  rw [wildcardTakes, decide_eq_true_iff]
  nth_rewrite 1 [← hnewline]
  rw [ne_eq, Text.fold_eq_iff_of_isCaseless isCaseless_newline]

/-- A literal takes its own length off the name. -/
theorem fits_literal_iff {literal : List Char} (h : wildcard ∉ literal) (ps name : List Char) :
    Fits (literal.map fold ++ ps) (name.map fold) ↔
      ∃ start rest, name = start ++ rest ∧ SameFolded literal start ∧ Fits ps (rest.map fold) := by
  induction literal generalizing name with
  | nil =>
    constructor
    · intro hfits
      exact ⟨[], name, rfl, .nil, hfits⟩
    · rintro ⟨start, rest, rfl, hsame, hfits⟩
      cases hsame
      exact hfits
  | cons l literal ih =>
    rw [List.mem_cons, not_or] at h
    rw [List.map_cons, List.cons_append, fits_letter_iff (fold_ne_wildcard (Ne.symm h.1))]
    constructor
    · rintro ⟨cs, hcs, hfits⟩
      obtain ⟨c, tail, rfl, hc, rfl⟩ := List.map_eq_cons_iff.mp hcs
      obtain ⟨start, rest, rfl, hsame, hrest⟩ := (ih h.2 tail).mp hfits
      exact ⟨c :: start, rest, rfl, .cons hc.symm hsame, hrest⟩
    · rintro ⟨start, rest, rfl, hsame, hfits⟩
      cases hsame with
      | @cons _ c _ start hc hsame =>
        refine ⟨(start ++ rest).map fold, ?_, (ih h.2 _).mpr ⟨start, rest, rfl, hsame, hfits⟩⟩
        rw [List.cons_append, List.map_cons, hc]

/-- An asterisk takes any run without a line feed off the name. -/
theorem fits_wildcard_iff (ps name : List Char) :
    Fits (wildcard :: ps) (name.map fold) ↔
      ∃ run rest, name = run ++ rest ∧ '\n' ∉ run ∧ Fits ps (rest.map fold) := by
  induction name with
  | nil =>
    rw [List.map_nil, fits_wildcard_nil_iff]
    constructor
    · intro hfits
      exact ⟨[], [], rfl, List.not_mem_nil, hfits⟩
    · rintro ⟨run, rest, heq, -, hfits⟩
      obtain ⟨-, rfl⟩ := List.append_eq_nil_iff.mp heq.symm
      exact hfits
  | cons c name ih =>
    rw [List.map_cons, fits_wildcard_cons_iff, ← List.map_cons, wildcardTakes_fold, ih]
    constructor
    · rintro (hfits | ⟨hc, run, rest, rfl, hrun, hfits⟩)
      · exact ⟨[], c :: name, rfl, List.not_mem_nil, hfits⟩
      · refine ⟨c :: run, rest, rfl, ?_, hfits⟩
        rw [List.mem_cons, not_or]
        exact ⟨Ne.symm hc, hrun⟩
    · rintro ⟨run, rest, heq, hrun, hfits⟩
      cases run with
      | nil =>
        left
        rw [heq]
        exact hfits
      | cons d run =>
        right
        obtain ⟨rfl, rfl⟩ := List.cons.inj heq
        rw [List.mem_cons, not_or] at hrun
        exact ⟨Ne.symm hrun.1, run, rest, rfl, hrun.2, hfits⟩

theorem fits_later_iff {later : List (List Char)} (h : ∀ literal ∈ later, wildcard ∉ literal)
    (name : List Char) :
    Fits ((later.flatMap fun literal => wildcard :: literal).map fold) (name.map fold) ↔
      ∃ segments : List (List Char × List Char), name = segments.flatMap (fun s => s.1 ++ s.2) ∧
        List.Forall₂ (fun literal s => '\n' ∉ s.1 ∧ SameFolded literal s.2) later segments := by
  induction later generalizing name with
  | nil =>
    rw [List.flatMap_nil, List.map_nil, fits_nil_iff, List.map_eq_nil_iff]
    constructor
    · rintro rfl
      exact ⟨[], rfl, .nil⟩
    · rintro ⟨segments, rfl, hall⟩
      cases hall
      rfl
  | cons literal later ih =>
    obtain ⟨hliteral, hlater⟩ := List.forall_mem_cons.mp h
    rw [List.flatMap_cons, List.cons_append, List.map_cons, List.map_append, fold_wildcard,
      fits_wildcard_iff]
    constructor
    · rintro ⟨run, tail, rfl, hrun, hfits⟩
      obtain ⟨text, rest, rfl, hsame, hfits⟩ := (fits_literal_iff hliteral _ tail).mp hfits
      obtain ⟨segments, rfl, hall⟩ := (ih hlater rest).mp hfits
      refine ⟨(run, text) :: segments, ?_, .cons ⟨hrun, hsame⟩ hall⟩
      rw [List.flatMap_cons, List.append_assoc]
    · rintro ⟨segments, rfl, hall⟩
      cases hall with
      | @cons _ s _ segments hs hall =>
        have hrest := (ih hlater _).mpr ⟨segments, rfl, hall⟩
        refine ⟨s.1, s.2 ++ segments.flatMap fun s => s.1 ++ s.2, ?_, hs.1, ?_⟩
        · rw [List.flatMap_cons, List.append_assoc]
        · exact (fits_literal_iff hliteral _ _).mpr ⟨s.2, _, rfl, hs.2, hrest⟩

/-- Matching decides whether a name can be cut along the literals of an alternative. -/
theorem matchesWhole_joined_iff {first : List Char} {later : List (List Char)}
    (h : ∀ literal ∈ first :: later, wildcard ∉ literal) (name : List Char) :
    matchesWhole (joined first later) name = true ↔ CutsAs first later name := by
  obtain ⟨hfirst, hlater⟩ := List.forall_mem_cons.mp h
  rw [matchesWhole_iff, joined, List.map_append, fits_literal_iff hfirst]
  constructor
  · rintro ⟨start, rest, rfl, hsame, hfits⟩
    obtain ⟨segments, rfl, hall⟩ := (fits_later_iff hlater rest).mp hfits
    exact ⟨start, segments, rfl, hsame, hall⟩
  · rintro ⟨start, segments, rfl, hsame, hall⟩
    exact ⟨start, _, rfl, hsame, (fits_later_iff hlater _).mpr ⟨segments, rfl, hall⟩⟩

/-- Every alternative has literals that it is made of. -/
theorem exists_eq_joined (alternative : List Char) :
    ∃ first later, alternative = joined first later ∧
      ∀ literal ∈ first :: later, wildcard ∉ literal := by
  induction alternative with
  | nil => exact ⟨[], [], rfl, by simp⟩
  | cons c alternative ih =>
    obtain ⟨first, later, rfl, hall⟩ := ih
    by_cases hc : c = wildcard
    · refine ⟨[], first :: later, ?_, ?_⟩
      · rw [hc]
        rfl
      · rw [List.forall_mem_cons]
        exact ⟨List.not_mem_nil, hall⟩
    · obtain ⟨hfirst, hlater⟩ := List.forall_mem_cons.mp hall
      refine ⟨c :: first, later, rfl, ?_⟩
      rw [List.forall_mem_cons, List.mem_cons, not_or]
      exact ⟨⟨Ne.symm hc, hfirst⟩, hlater⟩

theorem expression_literal {literal : List Char} (h : wildcard ∉ literal) :
    literal.flatMap (fun c => if c = wildcard then ['.', '*'] else escaped c) =
      literal.flatMap escaped := by
  apply List.flatMap_congr
  intro c hc
  have hne : c ≠ wildcard := by
    rintro rfl
    exact h hc
  rw [if_neg hne]

/-- The expression of an alternative has its literals, escaped, with a run before each later one. -/
theorem expression_joined {first : List Char} {later : List (List Char)}
    (h : ∀ literal ∈ first :: later, wildcard ∉ literal) :
    expression (joined first later) = String.ofList ('^' :: first.flatMap escaped ++
      later.flatMap (fun literal => '.' :: '*' :: literal.flatMap escaped) ++ ['$']) := by
  obtain ⟨hfirst, hlater⟩ := List.forall_mem_cons.mp h
  have hrest : (later.flatMap fun literal => wildcard :: literal).flatMap
      (fun c => if c = wildcard then ['.', '*'] else escaped c) =
        later.flatMap fun literal => '.' :: '*' :: literal.flatMap escaped := by
    rw [List.flatMap_assoc]
    apply List.flatMap_congr
    intro literal hliteral
    rw [List.flatMap_cons, if_pos rfl, expression_literal (hlater literal hliteral)]
    rfl
  rw [expression, joined, List.flatMap_append, expression_literal hfirst, hrest]
  rfl

example : expression "arm.*(upper)".toList = "^arm\\..*\\(upper\\)$" := by decide

variable {engine : Engine} {pattern : String}

/-- A valid pattern matches what one of its alternatives matches. -/
theorem isMatch_iff_of_valid (hbuilds : engine.Builds) (h : validate pattern = .ok ())
    {pieces : List (List Char)} (hcut : CutAtSeparators pattern.toList pieces) (name : String) :
    isMatch engine name pattern = true ↔
      ∃ piece ∈ pieces, matchesWhole (Text.trim piece) name.toList = true := by
  rw [isMatch_of_compile (compile_of_builds hbuilds h), matchesName, alternatives_eq_map_trim hcut,
    List.any_map, List.any_eq_true]
  rfl

end Motion.Pattern
