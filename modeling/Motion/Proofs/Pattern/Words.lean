import Mathlib.Data.List.Count
import Motion.Proofs.Pattern.Alternatives
import Motion.Proofs.Text.Lowercase

namespace Motion.Pattern
open Motion.Text (isBlank IsTrimmed trim)

theorem not_isWord_of_blanks {run : List Char} (hne : run ≠ [])
    (h : ∀ c ∈ run, isBlank c = true) : ¬isWord run = true := by
  obtain ⟨c, r, rfl⟩ := List.exists_cons_of_ne_nil hne
  simp [isWord, h c List.mem_cons_self]

theorem isWord_of_not_blank {run : List Char} (h : ∀ c ∈ run, isBlank c = false) :
    isWord run = true := by
  rw [isWord, List.any_eq_false.mpr]
  · rfl
  · intro c hc
    rw [h c hc]
    exact Bool.false_ne_true

theorem filter_cons_of_ne_nil {w : List Char} (hne : w ≠ []) (ws : List (List Char)) :
    (w :: ws).filter (fun w => !w.isEmpty) = w :: ws.filter fun w => !w.isEmpty := by
  simp [hne]

theorem splitOnP_cons_blank {c : Char} (hc : isBlank c = true) (cs : List Char) :
    (c :: cs).splitOnP isBlank = [] :: cs.splitOnP isBlank := by
  rw [List.splitOnP_cons_eq_if_modifyHead, if_pos hc]

theorem filter_splitOnP_blanks_append {run : List Char} (h : ∀ c ∈ run, isBlank c = true)
    (cs : List Char) : ((run ++ cs).splitOnP isBlank).filter (fun w => !w.isEmpty) =
      (cs.splitOnP isBlank).filter fun w => !w.isEmpty := by
  induction run with
  | nil => rfl
  | cons c run ih =>
    rw [List.cons_append, splitOnP_cons_blank (h c List.mem_cons_self)]
    exact ih fun d hd => h d (List.mem_cons_of_mem c hd)

/-- Runs of blanks leave nothing between two blanks, other runs are words. -/
theorem filter_splitOnP_of_alternating {blank : Bool} {rs : List (List Char)}
    (h : Alternating blank rs) :
    (rs.flatten.splitOnP isBlank).filter (fun w => !w.isEmpty) = rs.filter isWord := by
  induction h with
  | nil => rfl
  | @cons blank run rest hne hrun hrest ih =>
    rw [List.flatten_cons]
    cases blank with
    | true =>
      have hword := not_isWord_of_blanks hne hrun
      rw [List.filter_cons_of_neg hword, filter_splitOnP_blanks_append hrun, ih]
    | false =>
      rw [List.filter_cons_of_pos (isWord_of_not_blank hrun), ← ih]
      cases hflat : rest.flatten with
      | nil => rw [List.append_nil, List.splitOnP_eq_singleton hrun, filter_cons_of_ne_nil hne]; rfl
      | cons c tail =>
        have hc : isBlank c = true := isBlank_head_of_alternating hrest c (by rw [hflat]; rfl)
        rw [List.splitOnP_append_cons_of_forall_mem hrun c hc, filter_cons_of_ne_nil hne,
          splitOnP_cons_blank hc]
        rfl

/-- Words are what stands between blanks, where something does. -/
theorem words_eq_filter_splitOnP (cs : List Char) :
    words cs = (cs.splitOnP isBlank).filter fun w => !w.isEmpty := by
  obtain ⟨blank, hruns⟩ := exists_alternating_runs cs
  have hsplit := filter_splitOnP_of_alternating hruns
  rw [runs, List.flatten_splitBy] at hsplit
  rw [hsplit]
  rfl

theorem words_append_cons_blank {c : Char} (hc : isBlank c = true) (cs cs' : List Char) :
    words (cs ++ c :: cs') = words cs ++ words cs' := by
  rw [words_eq_filter_splitOnP, words_eq_filter_splitOnP, words_eq_filter_splitOnP,
    List.splitOnP_append_cons cs cs' hc, List.filter_append]

theorem words_nil : words [] = [] := rfl

theorem words_cons_blank {c : Char} (hc : isBlank c = true) (cs : List Char) :
    words (c :: cs) = words cs := words_append_cons_blank hc [] cs

theorem words_blanks_append {blanks : List Char} (h : ∀ c ∈ blanks, isBlank c = true)
    (cs : List Char) : words (blanks ++ cs) = words cs := by
  induction blanks with
  | nil => rfl
  | cons c blanks ih =>
    rw [List.cons_append, words_cons_blank (h c List.mem_cons_self)]
    exact ih fun d hd => h d (List.mem_cons_of_mem c hd)

theorem words_append_blanks {blanks : List Char} (h : ∀ c ∈ blanks, isBlank c = true)
    (cs : List Char) : words (cs ++ blanks) = words cs := by
  cases blanks with
  | nil => rw [List.append_nil]
  | cons c blanks =>
    have hrest := words_blanks_append (fun d hd => h d (List.mem_cons_of_mem c hd)) []
    rw [List.append_nil] at hrest
    rw [words_append_cons_blank (h c List.mem_cons_self), hrest, words_nil, List.append_nil]

theorem words_of_word {w : List Char} (hne : w ≠ []) (h : ∀ c ∈ w, isBlank c = false) :
    words w = [w] := by
  rw [words_eq_filter_splitOnP, List.splitOnP_eq_singleton h, filter_cons_of_ne_nil hne]
  rfl

/-- No word goes on into a text that begins with a blank. -/
theorem words_append_of_head {cs cs' : List Char} (h : ∀ c ∈ cs'.head?, isBlank c = true) :
    words (cs ++ cs') = words cs ++ words cs' := by
  cases cs' with
  | nil => rw [List.append_nil, words_nil, List.append_nil]
  | cons c cs' =>
    have hc : isBlank c = true := h c rfl
    rw [words_append_cons_blank hc, words_cons_blank hc]

theorem words_trim (cs : List Char) : words (trim cs) = words cs := by
  obtain ⟨before, after, hcs, hbefore, hafter⟩ := Text.exists_eq_append_trim cs
  conv_rhs => rw [hcs, words_blanks_append hbefore, words_append_blanks hafter]

/-- A text has words unless nothing is left of it when it is trimmed. -/
theorem isEmpty_trim (cs : List Char) : (trim cs).isEmpty = (words cs).isEmpty := by
  rw [← words_trim]
  have htrimmed := Text.isTrimmed_trim cs
  generalize trim cs = text at *
  cases text with
  | nil => rfl
  | cons c text =>
    have hc : isBlank c = false := htrimmed.head (List.cons_ne_nil c text)
    obtain ⟨w, ws, hsplit⟩ := List.exists_cons_of_ne_nil (List.splitOnP_ne_nil isBlank text)
    rw [words_eq_filter_splitOnP, List.splitOnP_cons_eq_if_modifyHead, hc, hsplit]
    rfl

theorem head_groups_of_alternating {blank : Bool} {rs g : List (List Char)}
    {gs : List (List (List Char))} (h : Alternating blank rs) (hgroups : groups rs = g :: gs) :
    ∀ c ∈ g.flatten.head?, isBlank c = blank := by
  cases h with
  | nil =>
    cases hgroups
    rintro c ⟨⟩
  | @cons _ run rest hne hrun hrest =>
    by_cases hsep : run = separator
    · rw [groups, if_pos hsep] at hgroups
      cases hgroups
      rintro c ⟨⟩
    · obtain ⟨g', gs', hrestgroups⟩ := List.exists_cons_of_ne_nil (groups_ne_nil rest)
      rw [groups_cons_of_ne hsep hrestgroups] at hgroups
      cases hgroups
      intro c hc
      rw [List.flatten_cons, List.head?_append_of_ne_nil _ hne] at hc
      exact hrun c (List.mem_of_mem_head? hc)

theorem splitOn_separator_cons (ws : List (List Char)) :
    (separator :: ws).splitOn separator = [] :: ws.splitOn separator := by
  rw [List.splitOn, List.splitOnP_cons_eq_if_modifyHead, if_pos (beq_self_eq_true separator)]
  rfl

theorem splitOn_cons_of_ne {w : List Char} (h : w ≠ separator) (ws : List (List Char)) :
    (w :: ws).splitOn separator = (ws.splitOn separator).modifyHead (List.cons w) := by
  rw [List.splitOn, List.splitOnP_cons_eq_if_modifyHead, if_neg (by simpa using h)]
  rfl

theorem words_groups {blank : Bool} {rs : List (List Char)} (h : Alternating blank rs) :
    (groups rs).map (fun g => words g.flatten) = (rs.filter isWord).splitOn separator := by
  induction h with
  | nil => rfl
  | @cons blank run rest hne hrun hrest ih =>
    by_cases hsep : run = separator
    · have hword : isWord separator = true := by decide
      rw [groups, if_pos hsep, List.map_cons, ih, hsep, List.filter_cons_of_pos hword,
        splitOn_separator_cons]
      rfl
    · obtain ⟨g, gs, hgroups⟩ := List.exists_cons_of_ne_nil (groups_ne_nil rest)
      have hhead := head_groups_of_alternating hrest hgroups
      rw [hgroups, List.map_cons] at ih
      rw [groups_cons_of_ne hsep hgroups, List.map_cons, List.flatten_cons]
      cases blank with
      | true =>
        have hword := not_isWord_of_blanks hne hrun
        rw [words_blanks_append hrun, ih, List.filter_cons_of_neg hword]
      | false =>
        rw [words_append_of_head hhead, words_of_word hne hrun,
          List.filter_cons_of_pos (isWord_of_not_blank hrun), splitOn_cons_of_ne hsep, ← ih]
        rfl

/-- The words of the alternatives are those of the pattern, cut at the separators among them. -/
theorem words_alternatives (cs : List Char) :
    (alternatives cs).map words = (words cs).splitOn separator := by
  obtain ⟨blank, hruns⟩ := exists_alternating_runs cs
  have hgroups := words_groups hruns
  rw [alternatives, List.map_map]
  refine Eq.trans (List.map_congr_left fun g _ => ?_) hgroups
  exact words_trim g.flatten

/-- The words on both sides of an empty alternative, which begins with the words or behind a
separator and ends with them or before a separator. -/
structure IsGap (ws before after : List (List Char)) : Prop where
  split : ws = before ++ after
  left : ∀ w ∈ before.getLast?, w = separator
  right : ∀ w ∈ after.head?, w = separator

/-- Alternatives that each have a word, joined by separators. -/
structure IsJoined (ws : List (List Char)) : Prop where
  nonempty : ws ≠ []
  head : ws.head? ≠ some separator
  last : ws.getLast? ≠ some separator
  between : ∀ before after, ws ≠ before ++ separator :: separator :: after

theorem splitOn_append_separator (before after : List (List Char)) :
    (before ++ separator :: after).splitOn separator =
      before.splitOn separator ++ after.splitOn separator :=
  List.splitOnP_append_cons before after (beq_self_eq_true separator)

theorem length_splitOn (ws : List (List Char)) :
    (ws.splitOn separator).length = ws.count separator + 1 := by
  induction ws with
  | nil => rfl
  | cons w ws ih =>
    by_cases hsep : w = separator
    · rw [hsep, splitOn_separator_cons, List.length_cons, ih, List.count_cons_self]
    · rw [splitOn_cons_of_ne hsep, List.length_modifyHead, ih, List.count_cons_of_ne hsep]

theorem getElem?_splitOn_of_head {ws : List (List Char)} (h : ∀ w ∈ ws.head?, w = separator) :
    (ws.splitOn separator)[0]? = some [] := by
  cases ws with
  | nil => rfl
  | cons w ws =>
    obtain rfl : w = separator := h w rfl
    rw [splitOn_separator_cons]
    rfl

/-- A gap is an empty alternative, with as many before it as there are separators. -/
theorem IsGap.getElem?_splitOn {ws before after : List (List Char)} (h : IsGap ws before after) :
    (ws.splitOn separator)[before.count separator]? = some [] := by
  have hfirst := getElem?_splitOn_of_head h.right
  rw [h.split]
  rcases List.eq_nil_or_concat before with rfl | ⟨front, w, rfl⟩
  · exact hfirst
  · obtain rfl : w = separator := h.left w (by simp)
    have hcount : (front.concat separator).count separator = (front.splitOn separator).length := by
      rw [length_splitOn, List.concat_eq_append, List.count_append, List.count_singleton_self]
    rw [hcount, List.concat_eq_append, List.append_assoc, List.singleton_append,
      splitOn_append_separator, List.getElem?_append_right (Nat.le_refl _), Nat.sub_self]
    exact hfirst

theorem splitOn_of_not_mem {ws : List (List Char)} (h : separator ∉ ws) :
    ws.splitOn separator = [ws] := by
  apply List.splitOnP_eq_singleton
  intro w hw
  rw [beq_eq_false_iff_ne]
  rintro rfl
  exact h hw

/-- Words are one piece, or a piece in front of a separator and what is behind it. -/
theorem splitOn_cases (ws : List (List Char)) :
    ws.splitOn separator = [ws] ∨ ∃ piece rest, ws = piece ++ separator :: rest ∧
      separator ∉ piece ∧ ws.splitOn separator = piece :: rest.splitOn separator := by
  by_cases hmem : separator ∈ ws
  · obtain ⟨piece, rest, rfl, hpiece⟩ := List.eq_append_cons_of_mem hmem
    refine Or.inr ⟨piece, rest, rfl, hpiece, ?_⟩
    rw [splitOn_append_separator, splitOn_of_not_mem hpiece]
    rfl
  · exact Or.inl (splitOn_of_not_mem hmem)

/-- An empty alternative is a gap, with as many separators before it as there are alternatives. -/
theorem exists_isGap_of_getElem?_splitOn {k : Nat} {ws : List (List Char)}
    (h : (ws.splitOn separator)[k]? = some []) :
    ∃ before after, IsGap ws before after ∧ before.count separator = k := by
  -- on the number of the piece: each separator in front of it takes one piece away
  induction k generalizing ws with
  | zero =>
    rcases splitOn_cases ws with hone | ⟨piece, rest, rfl, -, hsplit⟩
    · rw [hone] at h
      cases h
      exact ⟨[], [], ⟨rfl, by simp, by simp⟩, rfl⟩
    · rw [hsplit] at h
      cases h
      exact ⟨[], separator :: rest, ⟨rfl, by simp, by simp⟩, rfl⟩
  | succ k ih =>
    rcases splitOn_cases ws with hone | ⟨piece, rest, rfl, hpiece, hsplit⟩
    · rw [hone] at h
      cases h
    · rw [hsplit, List.getElem?_cons_succ] at h
      obtain ⟨before, after, ⟨rfl, hleft, hright⟩, hcount⟩ := ih h
      refine ⟨piece ++ separator :: before, after, ⟨?_, ?_, hright⟩, ?_⟩
      · rw [List.append_assoc, List.cons_append]
      · intro w hw
        rw [List.getLast?_append, List.getLast?_cons] at hw
        cases hlast : before.getLast? with
        | none =>
          rw [hlast] at hw
          cases hw
          rfl
        | some w' =>
          rw [hlast] at hw
          cases hw
          exact hleft w' hlast
      · rw [List.count_append, List.count_eq_zero_of_not_mem hpiece, List.count_cons_self, hcount,
          Nat.zero_add]

/-- Of two gaps the one with fewer separators before it is the first one. -/
theorem IsGap.prefix_of_count_le {ws before after before' after' : List (List Char)}
    (h : IsGap ws before after) (h' : IsGap ws before' after')
    (hle : before.count separator ≤ before'.count separator) : before <+: before' := by
  have hfront : before <+: ws := by
    rw [h.split]
    exact List.prefix_append before after
  have hfront' : before' <+: ws := by
    rw [h'.split]
    exact List.prefix_append before' after'
  rcases List.prefix_or_prefix_of_prefix hfront hfront' with hprefix | ⟨more, rfl⟩
  · exact hprefix
  · rcases List.eq_nil_or_concat more with rfl | ⟨front, w, rfl⟩
    · exact (List.append_nil before').symm ▸ List.prefix_refl before'
    · exfalso
      obtain rfl : w = separator := h.left w (by simp)
      rw [List.concat_eq_append, List.count_append, List.count_append,
        List.count_singleton_self] at hle
      omega

/-- The first empty alternative has as many separators before it as there are alternatives. -/
theorem findIdx?_splitOn_eq_some_iff {ws : List (List Char)} {k : Nat} :
    (ws.splitOn separator).findIdx? (·.isEmpty) = some k ↔
      ∃ before after, IsGap ws before after ∧
        (∀ before' after', IsGap ws before' after' → before <+: before') ∧
        k = before.count separator := by
  rw [List.findIdx?_eq_some_iff_getElem]
  constructor
  · rintro ⟨hk, hempty, hfirst⟩
    have hpiece : (ws.splitOn separator)[k]? = some [] := by
      rw [List.getElem?_eq_getElem hk, List.isEmpty_iff.mp hempty]
    obtain ⟨before, after, hgap, hcount⟩ := exists_isGap_of_getElem?_splitOn hpiece
    refine ⟨before, after, hgap, ?_, hcount.symm⟩
    intro before' after' hgap'
    apply hgap.prefix_of_count_le hgap'
    rw [hcount]
    by_contra hless
    obtain ⟨hlt, hpiece'⟩ := List.getElem?_eq_some_iff.mp hgap'.getElem?_splitOn
    apply hfirst _ (Nat.lt_of_not_le hless)
    rw [hpiece']
    rfl
  · rintro ⟨before, after, hgap, hfirst, rfl⟩
    obtain ⟨hk, hpiece⟩ := List.getElem?_eq_some_iff.mp hgap.getElem?_splitOn
    refine ⟨hk, by rw [hpiece]; rfl, ?_⟩
    intro j hj hempty
    have hpiece' : (ws.splitOn separator)[j]? = some [] := by
      rw [List.getElem?_eq_getElem (hj.trans hk), List.isEmpty_iff.mp hempty]
    obtain ⟨before', after', hgap', hcount⟩ := exists_isGap_of_getElem?_splitOn hpiece'
    have hle := (hfirst before' after' hgap').sublist.count_le separator
    omega

theorem findIdx?_splitOn_eq_none_iff {ws : List (List Char)} :
    (ws.splitOn separator).findIdx? (·.isEmpty) = none ↔
      ∀ before after, ¬IsGap ws before after := by
  rw [List.findIdx?_eq_none_iff]
  constructor
  · intro h before after hgap
    have hmem := List.mem_of_getElem? hgap.getElem?_splitOn
    cases h [] hmem
  · intro h piece hpiece
    rw [← Bool.not_eq_true, List.isEmpty_iff]
    rintro rfl
    obtain ⟨k, hk⟩ := List.getElem?_of_mem hpiece
    obtain ⟨before, after, hgap, -⟩ := exists_isGap_of_getElem?_splitOn hk
    exact h before after hgap

theorem isJoined_iff {ws : List (List Char)} :
    IsJoined ws ↔ ∀ before after, ¬IsGap ws before after := by
  constructor
  · rintro h before after ⟨rfl, hleft, hright⟩
    rcases List.eq_nil_or_concat before with rfl | ⟨front, w, rfl⟩
    · cases after with
      | nil => exact h.nonempty rfl
      | cons w after =>
        obtain rfl : w = separator := hright w rfl
        exact h.head rfl
    · obtain rfl : w = separator := hleft w (by simp)
      cases after with
      | nil => exact h.last (by simp)
      | cons w after =>
        obtain rfl : w = separator := hright w rfl
        exact h.between front after (by simp)
  · intro h
    refine ⟨?_, ?_, ?_, ?_⟩
    · rintro rfl
      exact h [] [] ⟨rfl, by simp, by simp⟩
    · intro hhead
      apply h [] ws
      exact ⟨rfl, by simp, by simp [hhead]⟩
    · intro hlast
      apply h ws []
      exact ⟨(List.append_nil ws).symm, by simp [hlast], by simp⟩
    · rintro before after rfl
      apply h (before ++ [separator]) (separator :: after)
      exact ⟨by simp, by simp, by simp⟩

theorem CutAtSeparators.infix_of_mem {cs : List Char} {pieces : List (List Char)}
    (h : CutAtSeparators cs pieces) : ∀ piece ∈ pieces, piece <:+: cs := by
  induction h with
  | last _ => exact List.forall_mem_singleton.mpr (List.infix_refl _)
  | @next piece rest pieces _ _ _ ih =>
    intro piece' hpiece'
    rcases List.mem_cons.mp hpiece' with rfl | hpiece'
    · rw [List.append_assoc]
      exact (List.prefix_append _ _).isInfix
    · exact (ih piece' hpiece').trans (List.suffix_append _ _).isInfix

/-- Alternatives are texts from the pattern without blanks around them. -/
theorem verbatim_of_mem_alternatives {cs alternative : List Char}
    (h : alternative ∈ alternatives cs) : IsTrimmed alternative ∧ alternative <:+: cs := by
  have hcut := (cutAtSeparators_iff cs _).mpr rfl
  rw [alternatives_eq_map_trim hcut] at h
  obtain ⟨piece, hpiece, rfl⟩ := List.mem_map.mp h
  refine ⟨Text.isTrimmed_trim piece, ?_⟩
  obtain ⟨before, after, hsplit, -, -⟩ := Text.exists_eq_append_trim piece
  have htrim : trim piece <:+: piece := ⟨before, after, by rw [List.append_assoc]; exact hsplit.symm⟩
  exact htrim.trans (hcut.infix_of_mem piece hpiece)

theorem findIdx?_alternatives (cs : List Char) : (alternatives cs).findIdx? (·.isEmpty) =
    ((words cs).splitOn separator).findIdx? (·.isEmpty) := by
  have hempty (g : List (List Char)) :
      (trim g.flatten).isEmpty = (words (trim g.flatten)).isEmpty := by
    rw [words_trim, isEmpty_trim]
  rw [← words_alternatives, alternatives, List.map_map, List.findIdx?_map, List.findIdx?_map]
  exact congrArg (List.findIdx? · (groups (runs cs))) (funext hempty)

/-- A pattern is empty without words, and otherwise the pieces between separators decide. -/
theorem validate_cases (pattern : String) :
    words pattern.toList = [] ∧ validate pattern = .error .empty ∨
    words pattern.toList ≠ [] ∧
      ((∃ branch, ((words pattern.toList).splitOn separator).findIdx? (·.isEmpty) = some branch ∧
          validate pattern = .error (.emptyBranch pattern branch)) ∨
        ((words pattern.toList).splitOn separator).findIdx? (·.isEmpty) = none ∧
          validate pattern = .ok ()) := by
  unfold validate
  rw [Text.isBlankText, isEmpty_trim, findIdx?_alternatives]
  split
  · next hnil => exact Or.inl ⟨List.isEmpty_iff.mp hnil, rfl⟩
  · next hne =>
    refine Or.inr ⟨fun hnil => hne (List.isEmpty_iff.mpr hnil), ?_⟩
    split
    · next branch hbranch => exact Or.inl ⟨branch, hbranch, rfl⟩
    · next hnone => exact Or.inr ⟨hnone, rfl⟩

theorem validate_eq_ok_iff {pattern : String} : validate pattern = .ok () ↔
    ((words pattern.toList).splitOn separator).findIdx? (·.isEmpty) = none := by
  rcases validate_cases pattern with ⟨hnil, h⟩ | ⟨-, ⟨branch, hbranch, h⟩ | ⟨hnone, h⟩⟩
  · simp [h, hnil]
  · simp [h, hbranch]
  · simp [h, hnone]

theorem validate_eq_empty_iff {pattern : String} :
    validate pattern = .error .empty ↔ words pattern.toList = [] := by
  rcases validate_cases pattern with ⟨hnil, h⟩ | ⟨hne, ⟨branch, -, h⟩ | ⟨-, h⟩⟩
  · simp [h, hnil]
  · simp [h, hne]
  · simp [h, hne]

theorem validate_eq_emptyBranch_iff {pattern source : String} {branch : Nat} :
    validate pattern = .error (.emptyBranch source branch) ↔
      source = pattern ∧ words pattern.toList ≠ [] ∧
        ((words pattern.toList).splitOn separator).findIdx? (·.isEmpty) = some branch := by
  rcases validate_cases pattern with ⟨hnil, h⟩ | ⟨hne, ⟨branch, hbranch, h⟩ | ⟨hnone, h⟩⟩
  · simp [h, hnil]
  · simp [h, hne, hbranch, eq_comm]
  · simp [h, hnone]

/-- The alternatives of a valid pattern have words. -/
theorem ne_nil_of_mem_alternatives {pattern : String} (h : validate pattern = .ok ()) :
    ∀ alternative ∈ alternatives pattern.toList, alternative ≠ [] := by
  rintro alternative hmem rfl
  have hnone := List.findIdx?_eq_none_iff.mp (validate_eq_ok_iff.mp h)
  rw [← words_alternatives] at hnone
  cases hnone (words []) (List.mem_map_of_mem hmem)

/-- The words of a pattern decide whether it is valid: alternatives of one word or more, joined by
separators. Otherwise it is empty, or it is refused for its first empty alternative. A valid pattern
has the alternatives that its words have, each as it stands in the pattern. -/
theorem validate_iff_words (pattern : String) :
    words pattern.toList = (pattern.toList.splitOnP isBlank).filter (fun w => !w.isEmpty) ∧
    (validate pattern = .ok () ↔ IsJoined (words pattern.toList)) ∧
    (validate pattern = .error .empty ↔ words pattern.toList = []) ∧
    (∀ source branch, validate pattern = .error (.emptyBranch source branch) ↔
      source = pattern ∧ words pattern.toList ≠ [] ∧
        ∃ before after, IsGap (words pattern.toList) before after ∧
          (∀ before' after', IsGap (words pattern.toList) before' after' → before <+: before') ∧
          branch = before.count separator) ∧
    (validate pattern = .ok () →
      (alternatives pattern.toList).length = (words pattern.toList).count separator + 1 ∧
      (∀ alternative ∈ alternatives pattern.toList, alternative ≠ [] ∧ IsTrimmed alternative ∧
        alternative <:+: pattern.toList) ∧
      [separator].intercalate ((alternatives pattern.toList).map words) = words pattern.toList) := by
  refine ⟨words_eq_filter_splitOnP _, ?_, validate_eq_empty_iff, ?_, ?_⟩
  · rw [validate_eq_ok_iff, findIdx?_splitOn_eq_none_iff, isJoined_iff]
  · intro source branch
    rw [validate_eq_emptyBranch_iff, findIdx?_splitOn_eq_some_iff]
  · intro hvalid
    refine ⟨?_, ?_, ?_⟩
    · rw [← length_splitOn, ← words_alternatives, List.length_map]
    · intro alternative hmem
      exact ⟨ne_nil_of_mem_alternatives hvalid alternative hmem, verbatim_of_mem_alternatives hmem⟩
    · rw [words_alternatives, List.intercalate_splitOn]

/-- A pattern of two alternatives, one of them with a separator inside a word. -/
theorem validate_iff_words_floor :
    IsJoined (words "FLOOR* OR arm  l".toList) ∧
    (alternatives "FLOOR* OR arm  l".toList).length =
      (words "FLOOR* OR arm  l".toList).count separator + 1 ∧
    ∃ before after, IsGap (words "a OR OR".toList) before after ∧ 1 = before.count separator := by
  have hvalid : validate "FLOOR* OR arm  l" = .ok () := by decide
  have hgap : validate "a OR OR" = .error (.emptyBranch "a OR OR" 1) := by decide
  obtain ⟨-, hjoined, -, -, halternatives⟩ := validate_iff_words "FLOOR* OR arm  l"
  obtain ⟨-, -, before, after, hsplit, -, hbranch⟩ :=
    ((validate_iff_words "a OR OR").2.2.2.1 _ _).mp hgap
  exact ⟨hjoined.mp hvalid, (halternatives hvalid).1, before, after, hsplit, hbranch⟩

end Motion.Pattern
