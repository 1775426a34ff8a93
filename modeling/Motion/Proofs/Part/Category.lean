import Motion.Part.Category
import Motion.Proofs.Text.AsciiCase

namespace Motion.Part.Category

open Text

theorem wordsFrom_append_cons {c : Char} (hc : isWordChar c = false) (read a b : List Char) :
    wordsFrom read (a ++ c :: b) = wordsFrom read a ++ wordsFrom [] b := by
  induction a generalizing read with
  | nil => simp [wordsFrom, hc]
  | cons d a ih =>
    rw [List.cons_append, wordsFrom, wordsFrom, ih, ih]
    split
    · rfl
    · rw [List.append_assoc]

theorem words_append_cons {c : Char} (hc : isWordChar c = false) (a b : List Char) :
    words (a ++ c :: b) = words a ++ words b := wordsFrom_append_cons hc [] a b

theorem wordsFrom_of_word {w : List Char} (hw : ∀ c ∈ w, isWordChar c = true) (read : List Char) :
    wordsFrom read w = finishWord (w.reverse ++ read) := by
  induction w generalizing read with
  | nil => rfl
  | cons c w ih =>
    rw [List.forall_mem_cons] at hw
    rw [wordsFrom, if_pos hw.1, ih hw.2, List.reverse_cons, List.append_assoc, List.singleton_append]

theorem wordsFrom_asciiLower (read cs : List Char) :
    wordsFrom (asciiLower read) (asciiLower cs) = (wordsFrom read cs).map asciiLower := by
  have hfinish (read : List Char) : finishWord (asciiLower read) = (finishWord read).map asciiLower := by
    cases read with
    | nil => rfl
    | cons c read => simp [finishWord, asciiLower]
  induction cs generalizing read with
  | nil => exact hfinish read
  | cons c cs ih =>
    have hchar : isWordChar c.toLower = isWordChar c := isAlphanum_toLower c
    change wordsFrom (asciiLower read) (c.toLower :: asciiLower cs) = _
    rw [wordsFrom, wordsFrom, hchar]
    by_cases hc : isWordChar c = true
    · rw [if_pos hc, if_pos hc]
      exact ih (c :: read)
    · rw [if_neg hc, if_neg hc, List.map_append, hfinish]
      exact congrArg _ (ih [])

theorem ofWord?_asciiLower (w : List Char) : ofWord? (asciiLower w) = ofWord? w := by
  rw [ofWord?, ofWord?, trim_asciiLower, asciiLower_asciiLower]

theorem ofWord?_separator : ofWord? Pattern.separator = none := by decide +kernel

/-- The word between alternatives need not be passed over. -/
theorem ofText?_eq_findSome? (cs : List Char) : ofText? cs = (words cs).findSome? ofWord? := by
  rw [ofText?]
  induction words cs with
  | nil => rfl
  | cons w ws ih =>
    rw [List.findSome?_cons, ← ih]
    by_cases hw : w = Pattern.separator
    · simp [hw, ofWord?_separator]
    · simp [hw, List.findSome?_cons]

theorem ofText?_append_cons {c : Char} (hc : isWordChar c = false) (a b : List Char) :
    ofText? (a ++ c :: b) = (ofText? a).or (ofText? b) := by
  simp only [ofText?_eq_findSome?, words_append_cons hc, List.findSome?_append]

theorem ofText?_asciiLower (cs : List Char) : ofText? (asciiLower cs) = ofText? cs := by
  have hword : ofWord? ∘ asciiLower = ofWord? := funext ofWord?_asciiLower
  have hwords : words (asciiLower cs) = (words cs).map asciiLower := wordsFrom_asciiLower [] cs
  rw [ofText?_eq_findSome?, ofText?_eq_findSome?, hwords, List.findSome?_map, hword]

theorem ofText?_of_isCaseVariant {cs ds : List Char} (h : IsCaseVariant cs ds) :
    ofText? ds = ofText? cs := by
  rw [← ofText?_asciiLower, h.asciiLower_eq, ofText?_asciiLower]

theorem ofText?_of_word {w : List Char} (hw : ∀ c ∈ w, isWordChar c = true) :
    ofText? w = ofWord? w := by
  rw [ofText?_eq_findSome?, words, wordsFrom_of_word hw, List.append_nil, finishWord,
    List.isEmpty_reverse, List.reverse_reverse]
  cases w with
  | nil => decide +kernel
  | cons c w => simp

/-- Inference gives a text cut in two by a character of no word the category of its first half that
has one, and a single word its own. It does not depend on the case of ASCII letters, and a pattern
has the category of its first alternative that has one. -/
theorem inferText?_first_wins :
    (∀ (a b : String) (c : Char), c.isAlphanum = false →
      inferText? (a ++ String.singleton c ++ b) = (inferText? a).or (inferText? b)) ∧
    (∀ word : String, (∀ c ∈ word.toList, c.isAlphanum = true) → inferText? word = infer? word) ∧
    (∀ s t : String, IsCaseVariant s.toList t.toList → inferText? t = inferText? s) ∧
    ∀ p q : String, inferText? (p ++ " OR " ++ q) = (inferText? p).or (inferText? q) := by
  have hcut (a b : String) (c : Char) (hc : c.isAlphanum = false) :
      inferText? (a ++ String.singleton c ++ b) = (inferText? a).or (inferText? b) := by
    rw [inferText?, String.toList_append, String.toList_append, String.toList_singleton,
      List.append_assoc, List.singleton_append]
    exact ofText?_append_cons hc a.toList b.toList
  refine ⟨hcut, ?_, ?_, ?_⟩
  · intro word hword
    exact ofText?_of_word hword
  · intro s t h
    exact ofText?_of_isCaseVariant h
  · intro p q
    have hor : inferText? "OR" = none := by decide +kernel
    have hkeyword : " OR " = String.singleton ' ' ++ ("OR" ++ String.singleton ' ') := by
      decide +kernel
    have hblanks : p ++ " OR " ++ q =
        p ++ String.singleton ' ' ++ ("OR" ++ String.singleton ' ' ++ q) := by
      rw [hkeyword]
      simp only [String.append_assoc]
    rw [hblanks, hcut p _ ' ' rfl, hcut "OR" q ' ' rfl, hor, Option.none_or]

theorem inferText?_first_wins_legs :
    '_'.isAlphanum = false ∧ inferText? ("rear" ++ String.singleton '_' ++ "Legs") = some .limb ∧
    (∀ c ∈ "Legs".toList, c.isAlphanum = true) ∧ inferText? "Legs" = infer? "Legs" ∧
    IsCaseVariant "front OR Horn*".toList "FRONT or horn*".toList ∧
    inferText? "FRONT or horn*" = some .appendage := by
  obtain ⟨hcut, hword, hcase, hor⟩ := inferText?_first_wins
  have hall : "Legs".toList.all Char.isAlphanum = true := by decide +kernel
  have hletters : ∀ c ∈ "Legs".toList, c.isAlphanum = true := List.all_eq_true.mp hall
  have hvariant : IsCaseVariant "front OR Horn*".toList "FRONT or horn*".toList := by
    unfold IsCaseVariant
    decide +kernel
  refine ⟨rfl, ?_, hletters, hword "Legs" hletters, hvariant, ?_⟩
  · rw [hcut "rear" "Legs" '_' rfl]
    decide +kernel
  · rw [hcase "front OR Horn*" "FRONT or horn*" hvariant]
    exact (hor "front" "Horn*").trans (by decide +kernel)

end Motion.Part.Category
