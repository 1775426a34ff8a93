import Motion.Param.Value
import Motion.Proofs.Formula.Delimiters
import Motion.Proofs.Formula.Evaluation
import Motion.Proofs.Number.Reading

namespace Motion.Param.Value
open Formula (Variables Error evaluate stripDelimiters? delimited parse lex)
open Number (WritesNumber IsSign Numeral)

section
variable (vars : Variables) {s : String}

theorem resolve_of_delimited {inner : List Char} (h : stripDelimiters? s.toList = some inner) :
    resolve vars (text s) = (parse (Formula.body inner) >>= fun e => e.eval vars) := by
  rw [resolve, resolveText, h]
  rfl

theorem parse_brace (tail : List Char) :
    parse ('{' :: tail) = .error ⟨0, .unexpectedCharacter '{'⟩ :=
  Formula.parse_of_lex_error (Formula.lexFrom_of_error (by decide) rfl)

/-- What is trimmed and has delimiters begins with a brace, which no token begins with. -/
theorem parse_of_delimited {cs inner : List Char} (htrim : Text.trim cs = cs)
    (h : stripDelimiters? cs = some inner) : parse cs = .error ⟨0, .unexpectedCharacter '{'⟩ := by
  obtain ⟨content, hcs, -⟩ := Formula.stripDelimiters?_eq_some_iff.mp h
  rw [← htrim, hcs]
  exact parse_brace _

/-- A formula that is refused for its first character is refused for it by the parser. -/
theorem head_of_evaluation {cs : List Char} {c : Char}
    (h : (parse cs >>= fun e => e.eval vars) = .error ⟨0, .unexpectedCharacter c⟩) :
    ∃ tail, cs = c :: tail := by
  rcases bind_eq_error_iff.mp h with hparse | ⟨e, -, heval⟩
  · exact Formula.head_of_parse_error hparse
  · exact absurd rfl (Formula.kind_of_eval heval)

/-- A text in delimiters is the formula inside. One more pair of delimiters makes no formula of it,
but as a parameter it stands for what is inside both pairs. So the two ways differ where there are
two pairs, unless what they enclose begins with a brace and is none for either. -/
theorem resolve_text_eq_evaluate_iff {inner : List Char}
    (h : stripDelimiters? s.toList = some inner) :
    evaluate vars s = (parse inner >>= fun e => e.eval vars) ∧
    resolve vars (text s) = (parse (Formula.body inner) >>= fun e => e.eval vars) ∧
    (stripDelimiters? inner ≠ none → evaluate vars s = .error ⟨0, .unexpectedCharacter '{'⟩) ∧
    (resolve vars (text s) = evaluate vars s ↔
      stripDelimiters? inner = none ∨ ∃ tail, stripDelimiters? inner = some ('{' :: tail)) := by
  have hevaluate := Formula.evaluate_of_delimited vars h
  have hresolve := resolve_of_delimited vars h
  have htrim : Text.trim inner = inner := by
    obtain ⟨content, -, rfl⟩ := Formula.stripDelimiters?_eq_some_iff.mp h
    exact Text.trim_of_isTrimmed (Text.isTrimmed_trim content)
  have hbrace {innermost : List Char} (hinner : stripDelimiters? inner = some innermost) :
      evaluate vars s = .error ⟨0, .unexpectedCharacter '{'⟩ := by
    rw [hevaluate, parse_of_delimited htrim hinner]
    rfl
  refine ⟨hevaluate, hresolve, ?_, ?_⟩
  · intro hne
    obtain ⟨innermost, hinner⟩ := Option.ne_none_iff_exists'.mp hne
    exact hbrace hinner
  · cases hinner : stripDelimiters? inner with
    | none =>
      simp only [true_or, iff_true]
      rw [hresolve, hevaluate, Formula.body, hinner]
      rfl
    | some innermost =>
      have hbody : Formula.body inner = innermost := by
        rw [Formula.body, hinner]
        rfl
      rw [hresolve, hbrace hinner, hbody]
      constructor
      · intro hsame
        obtain ⟨tail, rfl⟩ := head_of_evaluation vars hsame
        exact Or.inr ⟨tail, rfl⟩
      · rintro (hnone | ⟨tail, htail⟩)
        · cases hnone
        · cases htail
          rw [parse_brace]
          rfl

end

/-- One pair of delimiters around a formula, and two pairs around a name. -/
theorem resolve_text_eq_evaluate_iff_name :
    stripDelimiters? (delimited "2 * speed").toList = some "2 * speed".toList ∧
    (∀ vars, resolve vars (text (delimited "2 * speed")) = evaluate vars (delimited "2 * speed")) ∧
    stripDelimiters? (delimited (delimited "speed")).toList = some (delimited "speed").toList ∧
    ∀ vars, evaluate vars (delimited (delimited "speed")) = .error ⟨0, .unexpectedCharacter '{'⟩ := by
  have hone : stripDelimiters? (delimited "2 * speed").toList = some "2 * speed".toList := by decide
  have htwo : stripDelimiters? (delimited (delimited "speed")).toList =
      some (delimited "speed").toList := by decide
  refine ⟨hone, ?_, htwo, ?_⟩
  · intro vars
    exact (resolve_text_eq_evaluate_iff vars hone).2.2.2.mpr (Or.inl (by decide))
  · intro vars
    exact (resolve_text_eq_evaluate_iff vars htwo).2.2.1 (by decide)

/-- Two pairs of delimiters around a name stand for its value, though this is no formula. -/
theorem exists_resolve_ne_evaluate : ∃ s vars, (stripDelimiters? s.toList).isSome = true ∧
    resolve vars (text s) = .ok 2.0 ∧
    evaluate vars s = .error ⟨0, .unexpectedCharacter '{'⟩ := by
  have htwo : stripDelimiters? (delimited (delimited "speed")).toList =
      some (delimited "speed").toList := by decide
  have hbody : Formula.body (delimited "speed").toList = "speed".toList := by decide
  have htree : parse "speed".toList = .ok (.var "speed" 0) := by cbv
  refine ⟨delimited (delimited "speed"), Variables.ofList [("speed", 2.0)], ?_, ?_, ?_⟩
  · rw [htwo]
    rfl
  · rw [resolve_of_delimited _ htwo, hbody, htree]
    rfl
  · have hrefused := parse_of_delimited (by decide) (Formula.stripDelimiters?_delimited "speed")
    rw [Formula.evaluate_of_delimited _ htwo, hrefused]
    rfl

section
variable (vars : Variables) {s : String}

theorem resolve_of_not_delimited (h : stripDelimiters? s.toList = none) :
    resolve vars (text s) =
      (Number.readFloat? (Text.trim s.toList)).elim (.error ⟨0, .notNumber s⟩) .ok := by
  rw [resolve, resolveText, h]
  cases Number.readFloat? (Text.trim s.toList) <;> rfl

/-- A text without delimiters stands for a number if it is one when it is trimmed, and for nothing
otherwise. It is one if it is a numeral, as formulas have them, or a word for infinity or NaN, in
both cases with an optional sign, and only the word for NaN gives NaN. -/
theorem resolve_text_eq_ok_iff (h : stripDelimiters? s.toList = none) :
    (∀ x, resolve vars (text s) = .ok x ↔ WritesNumber (Text.trim s.toList) x) ∧
    ((¬∃ x, WritesNumber (Text.trim s.toList) x) →
      resolve vars (text s) = .error ⟨0, .notNumber s⟩) ∧
    (∀ x, resolve vars (text s) = .ok x → (x.isNaN = true ↔
      ∃ sign r, IsSign sign ∧ Text.trim s.toList = sign.toList ++ r ∧
        r.map Char.toLower = "nan".toList)) ∧
    ∀ cs x, lex cs = .ok [⟨.number x, 0, cs.length⟩] ↔
      ∃ n : Numeral, n.IsProper ∧ n.text = cs ∧ n.value = x := by
  have hresolve := resolve_of_not_delimited vars h
  have hok (x : Float) : resolve vars (text s) = .ok x ↔ WritesNumber (Text.trim s.toList) x := by
    rw [hresolve, ← Number.readFloat?_eq_some_iff]
    cases Number.readFloat? (Text.trim s.toList) <;> simp
  refine ⟨hok, ?_, ?_, fun cs x => Formula.lex_eq_number_iff⟩
  · intro hnone
    cases hread : Number.readFloat? (Text.trim s.toList) with
    | some x => exact absurd ⟨x, Number.readFloat?_eq_some_iff.mp hread⟩ hnone
    | none => rw [hresolve, hread, Option.elim_none]
  · intro x hx
    exact Number.isNaN_iff_of_writesNumber ((hok x).mp hx)

end

/-- A fraction with a sign between blanks, and a name. -/
theorem resolve_text_eq_ok_iff_fraction :
    stripDelimiters? " -.5 ".toList = none ∧
    (∀ vars, resolve vars (text " -.5 ") = .ok (-(Numeral.value ⟨[], some ['5'], none⟩))) ∧
    stripDelimiters? "speed".toList = none ∧
    ∀ vars, resolve vars (text "speed") = .error ⟨0, .notNumber "speed"⟩ := by
  have hfraction : stripDelimiters? " -.5 ".toList = none := by decide
  have hname : stripDelimiters? "speed".toList = none := by decide
  have hdigits : ∀ c ∈ ['5'], Number.isDigit c = true := List.forall_mem_singleton.mpr rfl
  have hproper : Numeral.IsProper ⟨[], some ['5'], none⟩ :=
    ⟨by rintro c ⟨⟩, by rintro ds ⟨⟩; exact hdigits, Or.inr ⟨['5'], rfl, by decide⟩,
      by rintro e ⟨⟩⟩
  have hsign : IsSign (some '-') := by
    rintro c ⟨⟩
    exact Or.inr rfl
  have hother : ¬∃ x, WritesNumber (Text.trim "speed".toList) x := by
    rintro ⟨x, hx⟩
    have hread := Number.readFloat?_eq_some_iff.mpr hx
    cases hread
  refine ⟨hfraction, ?_, hname, ?_⟩
  · intro vars
    exact ((resolve_text_eq_ok_iff vars hfraction).1 _).mpr
      ⟨some '-', ['.', '5'], _, hsign, by decide, .numeral hproper, rfl⟩
  · intro vars
    exact (resolve_text_eq_ok_iff vars hname).2.1 hother

/-- The word for NaN is no numeral, with or without a sign, and stands for NaN. -/
theorem exists_resolve_word : ∃ s, stripDelimiters? s.toList = none ∧
    (∀ sign (n : Numeral), IsSign sign → n.IsProper → Text.trim s.toList ≠ sign.toList ++ n.text) ∧
    ∀ vars, ∃ x, resolve vars (text s) = .ok x ∧ x.isNaN = true := by
  have hplain : stripDelimiters? "nan".toList = none := by decide
  have hread : Number.readFloat? (Text.trim "nan".toList) = some (0.0 / 0.0) :=
    Number.readFloat?_eq_some_iff.mpr
      ⟨none, "nan".toList, _, by rintro c ⟨⟩, by decide, .notANumber (by decide), rfl⟩
  refine ⟨"nan", hplain, ?_, ?_⟩
  · intro sign n hsign hn htext
    have htrim : Text.trim "nan".toList = ['n', 'a', 'n'] := by decide
    rw [htrim] at htext
    cases sign with
    | none =>
      have hstart := Number.Numeral.startsAt_text hn
      rw [Option.toList_none, List.nil_append] at htext
      rw [← htext] at hstart
      cases hstart
    | some c =>
      have hc : 'n' = c := (List.cons.inj htext).1
      rcases hsign c rfl with rfl | rfl <;> cases hc
  · intro vars
    refine ⟨0.0 / 0.0, ?_, rfl⟩
    rw [resolve_of_not_delimited vars hplain, hread, Option.elim_some]

end Motion.Param.Value
