import Motion.Proofs.Formula.Places
import Motion.Proofs.Text.Lowercase

namespace Motion

namespace Text

theorem dropFront?_eq_some_iff {start cs rest : List Char} :
    dropFront? start cs = some rest ↔ cs = start ++ rest := by
  induction start generalizing cs with
  | nil => exact ⟨Option.some.inj, congrArg some⟩
  | cons c start ih =>
    cases cs with
    | nil => simp [dropFront?]
    | cons c' cs =>
      rw [dropFront?, List.cons_append]
      split
      · next heq => rw [ih, heq, List.cons.injEq, and_iff_right rfl]
      · next hne =>
        constructor
        · rintro ⟨⟩
        · intro heq
          exact absurd (List.cons.inj heq).1.symm hne

theorem dropBack?_eq_some_iff {ending cs rest : List Char} :
    dropBack? ending cs = some rest ↔ cs = rest ++ ending := by
  rw [dropBack?, Option.map_eq_some_iff]
  constructor
  · rintro ⟨r, hr, rfl⟩
    have hreverse := congrArg List.reverse (dropFront?_eq_some_iff.mp hr)
    rwa [List.reverse_reverse, List.reverse_append, List.reverse_reverse] at hreverse
  · rintro rfl
    refine ⟨rest.reverse, dropFront?_eq_some_iff.mpr ?_, List.reverse_reverse rest⟩
    rw [List.reverse_append]

end Text

namespace Formula
open Text (trim isBlank IsTrimmed)

/-- A text with delimiters around it. -/
def delimited (text : String) : String := String.ofList opening ++ text ++ String.ofList closing

theorem toList_delimited (text : String) :
    (delimited text).toList = opening ++ (text.toList ++ closing) := by
  rw [delimited, String.toList_append, String.toList_append, String.toList_ofList,
    String.toList_ofList, List.append_assoc]

theorem stripDelimiters?_eq_some_iff {cs inner : List Char} :
    stripDelimiters? cs = some inner ↔
      ∃ text, trim cs = opening ++ (text ++ closing) ∧ inner = trim text := by
  simp only [stripDelimiters?, Option.bind_eq_bind, Option.bind_eq_some_iff,
    Text.dropFront?_eq_some_iff, Text.dropBack?_eq_some_iff, Option.pure_def, Option.some.injEq]
  constructor
  · rintro ⟨rest, hfront, text, rfl, rfl⟩
    exact ⟨text, hfront, rfl⟩
  · rintro ⟨text, htrim, rfl⟩
    exact ⟨text ++ closing, htrim, text, rfl, rfl⟩

theorem isTrimmed_delimited (text : List Char) : IsTrimmed (opening ++ (text ++ closing)) where
  head _ := by
    change isBlank '{' = false
    decide
  last h := by
    have hlast : (opening ++ (text ++ closing)).getLast h = '}' := by
      simp [opening, closing]
    rw [hlast]
    decide

theorem stripDelimiters?_delimited (text : String) :
    stripDelimiters? (delimited text).toList = some (trim text.toList) := by
  rw [toList_delimited, stripDelimiters?_eq_some_iff]
  exact ⟨text.toList, Text.trim_of_isTrimmed (isTrimmed_delimited text.toList), rfl⟩

section
variable (vars : Variables)

theorem evaluate_of_not_delimited {text : String} (h : stripDelimiters? text.toList = none) :
    evaluate vars text = (parse text.toList >>= fun e => e.eval vars) := by
  rw [evaluate, evaluateChars, body, h]
  rfl

theorem evaluate_of_delimited {text : String} {inner : List Char}
    (h : stripDelimiters? text.toList = some inner) :
    evaluate vars text = (parse inner >>= fun e => e.eval vars) := by
  rw [evaluate, evaluateChars, body, h]
  rfl

/-- Only the blanks of formulas stand around a text. -/
def InFormulaBlanks (cs : List Char) : Prop :=
  ∃ before after, cs = before ++ (trim cs ++ after) ∧ (∀ c ∈ before, isFormulaBlank c = true) ∧
    ∀ c ∈ after, isFormulaBlank c = true

/-- Other blanks around a formula are characters that no token begins with. -/
theorem malformed_of_not_inFormulaBlanks {cs : List Char} (h : ¬InFormulaBlanks cs) :
    ∃ e, parse cs = .error e ∧ e.kind = .malformed := by
  cases hparse : parse cs with
  | error e => exact ⟨e, rfl, malformed_of_parse hparse⟩
  | ok tree =>
    exfalso
    obtain ⟨ts, _, _, hlex, -⟩ := parse_eq_ok_iff.mp hparse
    obtain ⟨before, after, hcs, hbefore, hafter⟩ := Text.exists_eq_append_trim cs
    have hformula : ∀ c ∈ cs, isBlank c = true → isFormulaBlank c = true := by
      intro c hc hblank
      exact isFormulaBlank_of_mem_lexFrom hlex hc hblank
    apply h
    refine ⟨before, after, hcs, ?_, ?_⟩
    · intro c hc
      apply hformula c _ (hbefore c hc)
      rw [hcs]
      exact List.mem_append_left _ hc
    · intro c hc
      apply hformula c _ (hafter c hc)
      rw [hcs]
      exact List.mem_append_right _ (List.mem_append_right _ hc)

/-- Between blanks of formulas a text evaluates as it does without them. -/
theorem kind_of_inFormulaBlanks {cs : List Char} (h : InFormulaBlanks cs) :
    (parse cs >>= fun e => e.eval vars).mapError Error.kind =
      (parse (trim cs) >>= fun e => e.eval vars).mapError Error.kind := by
  obtain ⟨before, after, hcs, hbefore, hafter⟩ := h
  cases htrim : parse (trim cs) with
  | ok tree =>
    have hmoved := parse_between_blanks hbefore hafter htrim
    rw [← hcs] at hmoved
    rw [hmoved]
    change ((tree.move _).eval vars).mapError Error.kind = (tree.eval vars).mapError Error.kind
    rw [eval_move]
    cases tree.eval vars <;> rfl
  | error e =>
    obtain ⟨e', hmoved⟩ := parse_error_between_blanks hbefore hafter htrim
    rw [← hcs] at hmoved
    rw [hmoved]
    change Except.error e'.kind = Except.error e.kind
    rw [malformed_of_parse hmoved, malformed_of_parse htrim]

/-- With and without delimiters a text has the same value or the same kind of failure, if only the
blanks of formulas stand around it. With other blanks it is malformed without delimiters, so it is
the same only if it is malformed with them too. -/
theorem evaluate_delimited_agrees_iff (text : String) (h : stripDelimiters? text.toList = none) :
    ((evaluate vars text).mapError Error.kind = (evaluate vars (delimited text)).mapError Error.kind ↔
      InFormulaBlanks text.toList ∨
        (evaluate vars (delimited text)).mapError Error.kind = .error .malformed) ∧
    (¬InFormulaBlanks text.toList →
      (evaluate vars text).mapError Error.kind = .error .malformed) := by
  rw [evaluate_of_not_delimited vars h, evaluate_of_delimited vars (stripDelimiters?_delimited text)]
  have houtside (hblanks : ¬InFormulaBlanks text.toList) :
      (parse text.toList >>= fun e => e.eval vars).mapError Error.kind = .error .malformed := by
    obtain ⟨e, he, hkind⟩ := malformed_of_not_inFormulaBlanks hblanks
    rw [he]
    exact congrArg Except.error hkind
  refine ⟨?_, houtside⟩
  by_cases hblanks : InFormulaBlanks text.toList
  · simp only [hblanks, true_or, iff_true]
    exact kind_of_inFormulaBlanks vars hblanks
  · simp only [hblanks, false_or, houtside hblanks]
    exact eq_comm

end

/-- A name between blanks of formulas, and one behind a no-break space. -/
theorem evaluate_delimited_agrees_iff_name :
    stripDelimiters? " speed\t".toList = none ∧
    (∀ vars, (evaluate vars " speed\t").mapError Error.kind =
      (evaluate vars (delimited " speed\t")).mapError Error.kind) ∧
    stripDelimiters? "\u00a0speed".toList = none ∧
    ∀ vars, (evaluate vars "\u00a0speed").mapError Error.kind = .error .malformed := by
  have hpadded : stripDelimiters? " speed\t".toList = none := by decide
  have hspaced : stripDelimiters? "\u00a0speed".toList = none := by decide
  have hblanks : InFormulaBlanks " speed\t".toList :=
    ⟨[' '], ['\t'], by decide, List.forall_mem_singleton.mpr rfl, List.forall_mem_singleton.mpr rfl⟩
  have hother : ¬InFormulaBlanks "\u00a0speed".toList := by
    rintro ⟨before, after, hcs, hbefore, -⟩
    cases before with
    | nil => cases hcs
    | cons c before =>
      have hc : '\u00a0' = c := (List.cons.inj hcs).1
      have hblank := hbefore c List.mem_cons_self
      rw [← hc] at hblank
      cases hblank
  refine ⟨hpadded, ?_, hspaced, ?_⟩
  · intro vars
    exact (evaluate_delimited_agrees_iff vars _ hpadded).1.mpr (Or.inl hblanks)
  · intro vars
    exact (evaluate_delimited_agrees_iff vars _ hspaced).2 hother

/-- Behind a no-break space a name is malformed without delimiters, and has its value with them. -/
theorem exists_evaluate_delimited_ne : ∃ text vars, stripDelimiters? text.toList = none ∧
    evaluate vars text = .error ⟨0, .unexpectedCharacter '\u00a0'⟩ ∧
    evaluate vars (delimited text) = .ok 2.0 := by
  have hplain : stripDelimiters? "\u00a0speed".toList = none := by decide
  have hrefused : parse "\u00a0speed".toList = .error ⟨0, .unexpectedCharacter '\u00a0'⟩ := by cbv
  have htree : parse "speed".toList = .ok (.var "speed" 0) := by cbv
  refine ⟨"\u00a0speed", Variables.ofList [("speed", 2.0)], hplain, ?_, ?_⟩
  · rw [evaluate_of_not_delimited _ hplain, hrefused]
    rfl
  · have htrim : trim "\u00a0speed".toList = "speed".toList := by decide
    rw [evaluate_of_delimited _ (stripDelimiters?_delimited _), htrim, htree]
    rfl

end Formula

end Motion
