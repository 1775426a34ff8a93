import Motion.Proofs.Number.Reading

namespace Motion.Number

theorem ends_dropWhile (p : Char → Bool) (cs : List Char) : Ends p (cs.dropWhile p) := by
  intro c hc
  have hfirst := List.head?_dropWhile_not p cs
  rw [Option.mem_def.mp hc] at hfirst
  exact hfirst

namespace Numeral

variable {n : Numeral} {cs rest : List Char}

/-- Behind the mantissa comes no digit, and behind bare digits no point either. -/
theorem ends_scanMantissa (cs : List Char) :
    Ends isDigit (scanMantissa cs).2.2 ∧
      ((scanMantissa cs).2.1 = none → ∀ r, (scanMantissa cs).2.2 ≠ '.' :: r) := by
  unfold scanMantissa
  split
  · next r _ =>
    refine ⟨ends_dropWhile isDigit r, ?_⟩
    rintro ⟨⟩
  · next hdot => exact ⟨ends_dropWhile isDigit cs, fun _ r hr => hdot r hr⟩

theorem ends_of_scanExponent_absent (h : scanExponent cs = .absent) :
    Ends (fun c => c = 'e' || c = 'E') cs := by
  rintro c hc
  cases cs with
  | nil => cases hc
  | cons c' r =>
    cases hc
    rw [← Bool.not_eq_true]
    intro hmarker
    rw [scanExponent, if_pos hmarker] at h
    dsimp only at h
    split at h <;> cases h

theorem ends_of_scanExponent_found {e : Exponent} (h : scanExponent cs = .found e rest) :
    Ends isDigit rest := by
  cases cs with
  | nil => cases h
  | cons c r =>
    simp only [scanExponent] at h
    split at h
    · split at h
      · cases h
      · cases h
        exact ends_dropWhile isDigit _
    · cases h

theorem ends_of_scan (h : scan cs = .found n rest) : Ends n.goesOn rest := by
  obtain ⟨hdigit, hdot⟩ := ends_scanMantissa cs
  unfold scan at h
  dsimp only at h
  intro c hc
  split at h
  · next habsent =>
    cases h
    have hmarker := ends_of_scanExponent_absent habsent c hc
    have hpoint : ¬((scanMantissa cs).2.1 = none ∧ c = '.') := by
      rintro ⟨hfraction, rfl⟩
      obtain ⟨r, hr⟩ := List.head?_eq_some_iff.mp hc
      exact hdot hfraction r hr
    simpa [goesOn, hdigit c hc, hmarker] using hpoint
  · cases h
  · next e rest' hfound =>
    cases h
    simp [goesOn, ends_of_scanExponent_found hfound c hc]

/-- The scanner takes a numeral off the front of a text exactly if what is left does not go on with
it. -/
theorem scan_eq_found_iff (hs : startsAt cs = true) :
    scan cs = .found n rest ↔ n.IsProper ∧ n.text ++ rest = cs ∧ Ends n.goesOn rest := by
  constructor
  · intro h
    exact ⟨isProper_of_scan hs h, text_append_of_scan h, ends_of_scan h⟩
  · rintro ⟨hn, rfl, hrest⟩
    exact scan_text_append hn hrest

/-- What does not go on with a numeral is in no longer numeral either. -/
theorem not_prefix_of_ends {c : Char} (hn : n.IsProper) (hc : n.goesOn c = false) {longer : Numeral}
    (hlonger : longer.IsProper) : ¬n.text ++ [c] <+: longer.text := by
  rintro ⟨more, hmore⟩
  have hends : Ends n.goesOn (c :: more) := by
    rintro d ⟨⟩
    exact hc
  have hscan := scan_text_append hn hends
  have htext : n.text ++ c :: more = longer.text := by simpa using hmore
  rw [htext, scan_text hlonger] at hscan
  cases hscan

theorem exists_longer_of_digit {c : Char} (hn : n.IsProper) (hc : isDigit c = true) :
    ∃ longer : Numeral, longer.IsProper ∧ n.text ++ [c] <+: longer.text := by
  have hconcat {ds : List Char} (hds : ∀ d ∈ ds, isDigit d = true) :
      ∀ d ∈ ds ++ [c], isDigit d = true := by
    intro d hd
    rcases List.mem_append.mp hd with hd | hd
    · exact hds d hd
    · rwa [List.mem_singleton.mp hd]
  obtain ⟨whole, fraction, exponent⟩ := n
  cases exponent with
  | some e =>
    have he := hn.exponent e rfl
    refine ⟨⟨whole, fraction, some { e with digits := e.digits ++ [c] }⟩, ?_, ?_⟩
    · refine ⟨hn.whole, hn.fraction, hn.mantissa, ?_⟩
      rintro e' ⟨⟩
      exact ⟨he.marker, he.sign, by simp, hconcat he.digits⟩
    · simp [text, Exponent.text]
  | none =>
    have hnone : ∀ e ∈ (none : Option Exponent), e.IsProper := by rintro e ⟨⟩
    cases fraction with
    | some ds =>
      refine ⟨⟨whole, some (ds ++ [c]), none⟩, ⟨hn.whole, ?_, ?_, hnone⟩, ?_⟩
      · rintro ds' ⟨⟩
        exact hconcat (hn.fraction ds rfl)
      · exact Or.inr ⟨_, rfl, by simp⟩
      · simp [text]
    | none =>
      refine ⟨⟨whole ++ [c], none, none⟩, ⟨hconcat hn.whole, hn.fraction, ?_, hnone⟩, ?_⟩
      · exact Or.inl (by simp)
      · simp [text]

theorem exists_longer_of_marker {c : Char} (hn : n.IsProper) (hnone : n.exponent = none)
    (hc : c = 'e' ∨ c = 'E') :
    ∃ longer : Numeral, longer.IsProper ∧ n.text ++ [c] <+: longer.text := by
  refine ⟨{ n with exponent := some ⟨c, none, ['0']⟩ }, ?_, ?_⟩
  · refine ⟨hn.whole, hn.fraction, hn.mantissa, ?_⟩
    rintro e ⟨⟩
    refine ⟨hc, ?_, List.cons_ne_nil _ _, List.forall_mem_singleton.mpr rfl⟩
    rintro d ⟨⟩
  · exact ⟨['0'], by simp [text, Exponent.text, hnone]⟩

theorem exists_longer_of_point (hn : n.IsProper) (hexponent : n.exponent = none)
    (hfraction : n.fraction = none) :
    ∃ longer : Numeral, longer.IsProper ∧ n.text ++ ['.'] <+: longer.text := by
  have hwhole : n.whole ≠ [] := by
    rcases hn.mantissa with hwhole | ⟨ds, hds, -⟩
    · exact hwhole
    · rw [hfraction] at hds
      cases hds
  refine ⟨{ n with fraction := some [] }, ⟨hn.whole, ?_, Or.inl hwhole, hn.exponent⟩, ?_⟩
  · rintro ds ⟨⟩ c hc
    cases hc
  · simp [text, hexponent, hfraction]

/-- A character goes on with a numeral exactly if a numeral begins with both. -/
theorem goesOn_iff {c : Char} (hn : n.IsProper) :
    n.goesOn c = true ↔ ∃ longer : Numeral, longer.IsProper ∧ n.text ++ [c] <+: longer.text := by
  constructor
  · intro hc
    simp only [goesOn, Bool.or_eq_true, Bool.and_eq_true, decide_eq_true_eq,
      Option.isNone_iff_eq_none] at hc
    rcases hc with (hdigit | ⟨hnone, hmarker⟩) | ⟨⟨hexponent, hfraction⟩, rfl⟩
    · exact exists_longer_of_digit hn hdigit
    · exact exists_longer_of_marker hn hnone hmarker
    · exact exists_longer_of_point hn hexponent hfraction
  · rintro ⟨longer, hlonger, hprefix⟩
    by_contra hc
    exact not_prefix_of_ends hn (Bool.eq_false_iff.mpr hc) hlonger hprefix

theorem not_prefix_of_scanExponent_incomplete (h : scanExponent cs = .incomplete) :
    (∃ marker r, cs = marker :: r ∧ (marker = 'e' ∨ marker = 'E')) ∧
      ∀ e : Exponent, e.IsProper → ¬e.text <+: cs := by
  constructor
  · cases cs with
    | nil => cases h
    | cons c r =>
      simp only [scanExponent] at h
      split at h
      · next hmarker => exact ⟨c, r, rfl, by simpa using hmarker⟩
      · cases h
  · rintro e he ⟨more, rfl⟩
    have hlonger : (⟨e.marker, e.sign, e.digits ++ more.takeWhile isDigit⟩ : Exponent).IsProper := by
      refine ⟨he.marker, he.sign, List.append_ne_nil_of_left_ne_nil he.digits_ne_nil _, ?_⟩
      intro c hc
      rcases List.mem_append.mp hc with hc | hc
      · exact he.digits c hc
      · exact List.mem_takeWhile_imp hc
    have hfound := scanExponent_text hlonger (ends_dropWhile isDigit more)
    have htext : Exponent.text ⟨e.marker, e.sign, e.digits ++ more.takeWhile isDigit⟩ ++
        more.dropWhile isDigit = e.text ++ more := by
      simp [Exponent.text, List.takeWhile_append_dropWhile]
    rw [htext, h] at hfound
    cases hfound

/-- A text that is given up is a mantissa and behind it a marker at which no exponent begins. -/
theorem marker_of_scan {m : Numeral} (hs : startsAt cs = true) (h : scan cs = .badExponent m) :
    m.IsProper ∧ m.exponent = none ∧ ∃ marker r, cs = m.text ++ marker :: r ∧
      (marker = 'e' ∨ marker = 'E') ∧ ∀ e : Exponent, e.IsProper → ¬e.text <+: marker :: r := by
  have hproper := isProper_of_scanMantissa hs
  have htext := text_append_scanMantissa cs
  unfold scan at h
  dsimp only at h
  split at h
  · cases h
  · next hincomplete =>
    cases h
    obtain ⟨⟨marker, r, hr, hmarker⟩, hnone⟩ := not_prefix_of_scanExponent_incomplete hincomplete
    rw [hr] at htext hnone
    exact ⟨hproper, rfl, marker, r, htext.symm, hmarker, hnone⟩
  · cases h

/-- A text that is scanned as a numeral is read as a number, and as that of the numeral. -/
theorem readFloat?_text (hn : n.IsProper) : readFloat? n.text = some n.value := by
  apply readFloat?_eq_some_iff.mpr
  refine ⟨none, n.text, n.value, ?_, rfl, .numeral hn, rfl⟩
  rintro c ⟨⟩

end Numeral

end Motion.Number
