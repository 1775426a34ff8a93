import Mathlib.Data.List.TakeWhile
import Motion.Number.Numeral

namespace Motion.Number

/-- A text does not begin with a character of a kind, so it does not go on with a run of them. -/
def Ends (p : Char → Bool) (rest : List Char) : Prop := ∀ c ∈ rest.head?, p c = false

variable {p : Char → Bool} {rest : List Char}

theorem ends_nil (p : Char → Bool) : Ends p [] := by
  intro c hc
  cases hc

theorem Ends.mono {q : Char → Bool} (h : Ends p rest) (hq : ∀ c, q c = true → p c = true) :
    Ends q rest := by
  intro c hc
  rw [← Bool.not_eq_true]
  intro hqc
  have hpc := h c hc
  rw [hq c hqc] at hpc
  cases hpc

theorem Ends.takeWhile_append (h : Ends p rest) (cs : List Char) :
    (cs ++ rest).takeWhile p = cs.takeWhile p := by
  induction cs with
  | nil =>
    cases rest with
    | nil => rfl
    | cons c tail => rw [List.nil_append, List.takeWhile_cons, h c rfl]; rfl
  | cons c cs ih => rw [List.cons_append, List.takeWhile_cons, List.takeWhile_cons, ih]

theorem Ends.dropWhile_append (h : Ends p rest) (cs : List Char) :
    (cs ++ rest).dropWhile p = cs.dropWhile p ++ rest := by
  induction cs with
  | nil =>
    cases rest with
    | nil => rfl
    | cons c tail => rw [List.nil_append, List.dropWhile_cons, h c rfl]; rfl
  | cons c cs ih =>
    rw [List.cons_append, List.dropWhile_cons, List.dropWhile_cons, ih]
    split <;> rfl

/-- A run is cut off where it ends. -/
theorem Ends.takeWhile_run (h : Ends p rest) {run : List Char} (hrun : ∀ c ∈ run, p c = true) :
    (run ++ rest).takeWhile p = run := by
  rw [h.takeWhile_append, List.takeWhile_eq_self_iff.mpr hrun]

theorem Ends.dropWhile_run (h : Ends p rest) {run : List Char} (hrun : ∀ c ∈ run, p c = true) :
    (run ++ rest).dropWhile p = rest := by
  rw [h.dropWhile_append, List.dropWhile_eq_nil_iff.mpr hrun, List.nil_append]

/-- A plus, a minus or nothing. -/
def IsSign (sign : Option Char) : Prop := ∀ c ∈ sign, c = '+' ∨ c = '-'

/-- A marker, an optional sign and digits. -/
structure Exponent.IsProper (e : Exponent) : Prop where
  marker : e.marker = 'e' ∨ e.marker = 'E'
  sign : IsSign e.sign
  digits_ne_nil : e.digits ≠ []
  digits : ∀ c ∈ e.digits, isDigit c = true

/-- Digits with an optional fraction or a fraction with digits, and an optional exponent. -/
structure Numeral.IsProper (n : Numeral) : Prop where
  whole : ∀ c ∈ n.whole, isDigit c = true
  fraction : ∀ ds ∈ n.fraction, ∀ c ∈ ds, isDigit c = true
  mantissa : n.whole ≠ [] ∨ ∃ ds ∈ n.fraction, ds ≠ []
  exponent : ∀ e ∈ n.exponent, e.IsProper

/-- What can stand in a numeral. -/
def isNumeralChar (c : Char) : Bool :=
  isDigit c || c = '.' || c = 'e' || c = 'E' || c = '+' || c = '-'

theorem isNumeralChar_of_isDigit {c : Char} (h : isDigit c = true) : isNumeralChar c = true := by
  simp [isNumeralChar, h]

namespace Exponent.IsProper

variable {e : Exponent}

theorem isNumeralChar (h : e.IsProper) {c : Char} (hc : c ∈ e.text) : isNumeralChar c = true := by
  rcases List.mem_cons.mp hc with rfl | hc
  · rcases h.marker with hm | hm <;> rw [hm] <;> decide
  · rcases List.mem_append.mp hc with hc | hc
    · rcases h.sign c (Option.mem_toList.mp hc) with rfl | rfl <;> decide
    · exact isNumeralChar_of_isDigit (h.digits c hc)

end Exponent.IsProper

namespace Numeral

theorem isNumeralChar_of_mem_text {n : Numeral} (h : n.IsProper) {c : Char} (hc : c ∈ n.text) :
    isNumeralChar c = true := by
  obtain ⟨whole, fraction, exponent⟩ := n
  rcases List.mem_append.mp hc with hc | hc
  · rcases List.mem_append.mp hc with hc | hc
    · exact isNumeralChar_of_isDigit (h.whole c hc)
    · cases fraction with
      | none => cases hc
      | some ds =>
        rcases List.mem_cons.mp hc with rfl | hc
        · decide
        · exact isNumeralChar_of_isDigit (h.fraction ds rfl c hc)
  · cases exponent with
    | none => cases hc
    | some e => exact (h.exponent e rfl).isNumeralChar hc

theorem isSign_splitSign (cs : List Char) : IsSign (splitSign cs).1 := by
  intro c hc
  unfold splitSign at hc
  split at hc
  · exact Or.inl (Option.some.inj hc).symm
  · exact Or.inr (Option.some.inj hc).symm
  · cases hc

theorem isProper_of_scanExponent {cs : List Char} {e : Exponent}
    (h : scanExponent cs = .found e rest) : e.IsProper := by
  cases cs with
  | nil => cases h
  | cons marker r =>
    simp only [scanExponent] at h
    split at h
    · next hmarker =>
      split at h
      · cases h
      · next hne =>
        cases h
        refine ⟨by simpa using hmarker, isSign_splitSign r, hne, ?_⟩
        intro c hc
        exact List.mem_takeWhile_imp hc
    · cases h

theorem isProper_of_scanMantissa {cs : List Char} (hs : startsAt cs = true) :
    IsProper ⟨(scanMantissa cs).1, (scanMantissa cs).2.1, none⟩ := by
  have hdigits (r : List Char) : ∀ c ∈ r.takeWhile isDigit, isDigit c = true := by
    intro c hc
    exact List.mem_takeWhile_imp hc
  unfold scanMantissa
  split
  · next r hr =>
    refine ⟨hdigits cs, ?_, ?_, ?_⟩
    · rintro ds ⟨⟩
      exact hdigits r
    · by_cases hwhole : cs.takeWhile isDigit = []
      · have hcs : cs = '.' :: r := by
          have hsplit := List.takeWhile_append_dropWhile (p := isDigit) (l := cs)
          rwa [hwhole, hr, List.nil_append, eq_comm] at hsplit
        subst hcs
        cases r with
        | nil => cases hs
        | cons d r =>
          have hd : isDigit d = true := hs
          exact Or.inr ⟨_, rfl, by simp [hd]⟩
      · exact Or.inl hwhole
    · rintro e ⟨⟩
  · next hdot =>
    refine ⟨hdigits cs, ?_, ?_, ?_⟩
    · rintro ds ⟨⟩
    · left
      cases cs with
      | nil => cases hs
      | cons c r =>
        have hc : isDigit c = true := by
          by_contra hc
          have hdrop : (c :: r).dropWhile isDigit = c :: r := List.dropWhile_cons_of_neg hc
          have hne : c ≠ '.' := fun h => hdot r (h ▸ hdrop)
          unfold startsAt at hs
          split at hs
          · next heq => exact hne (List.cons.inj heq).1
          · next heq => exact hc ((List.cons.inj heq).1 ▸ hs)
          · cases hs
        simp [hc]
    · rintro e ⟨⟩

theorem isProper_of_scan {cs : List Char} {n : Numeral} (hs : startsAt cs = true)
    (h : scan cs = .found n rest) : n.IsProper := by
  obtain ⟨hwhole, hfraction, hmantissa, -⟩ := isProper_of_scanMantissa hs
  unfold scan at h
  dsimp only at h
  split at h
  · cases h
    exact ⟨hwhole, hfraction, hmantissa, by rintro e ⟨⟩⟩
  · cases h
  · next e rest' he =>
    cases h
    refine ⟨hwhole, hfraction, hmantissa, ?_⟩
    rintro e' ⟨⟩
    exact isProper_of_scanExponent he

def ExponentScan.append : ExponentScan → List Char → ExponentScan
  | absent, _ => absent
  | incomplete, _ => incomplete
  | found e r, rest => found e (r ++ rest)

def Scan.append : Scan → List Char → Scan
  | found n r, rest => found n (r ++ rest)
  | badExponent m, _ => badExponent m

section
variable (h : Ends isNumeralChar rest)
include h

theorem ends_isDigit : Ends isDigit rest := h.mono fun _ => isNumeralChar_of_isDigit

theorem startsAt_append (c : Char) (r : List Char) :
    startsAt (c :: (r ++ rest)) = startsAt (c :: r) := by
  by_cases hc : c = '.'
  · subst hc
    cases r with
    | cons d r => rfl
    | nil =>
      cases rest with
      | nil => rfl
      | cons d tail => exact ends_isDigit h d rfl
  · simp [startsAt, hc]

theorem splitSign_append_of_ends (cs : List Char) :
    splitSign (cs ++ rest) = ((splitSign cs).1, (splitSign cs).2 ++ rest) := by
  cases cs with
  | nil =>
    have hhead (c : Char) (hc : isNumeralChar c = true) (r : List Char) : rest ≠ c :: r := by
      rintro rfl
      rw [h c rfl] at hc
      cases hc
    unfold splitSign
    split
    · next r hr => exact absurd hr (hhead '+' (by decide) r)
    · next r hr => exact absurd hr (hhead '-' (by decide) r)
    · rfl
  | cons c r =>
    by_cases hplus : c = '+'
    · subst hplus
      rfl
    · by_cases hminus : c = '-'
      · subst hminus
        rfl
      · simp [splitSign, hplus, hminus]

theorem scanExponent_append (cs : List Char) :
    scanExponent (cs ++ rest) = (scanExponent cs).append rest := by
  cases cs with
  | nil =>
    cases rest with
    | nil => rfl
    | cons c tail =>
      have hc : isNumeralChar c = false := h c rfl
      have hmarker : ¬(c = 'e' || c = 'E') = true := by
        intro hmarker
        simp only [Bool.or_eq_true, decide_eq_true_eq] at hmarker
        rcases hmarker with rfl | rfl <;> cases hc
      simp only [List.nil_append, scanExponent, if_neg hmarker]
      rfl
  | cons c r =>
    simp only [List.cons_append, scanExponent, splitSign_append_of_ends h,
      (ends_isDigit h).takeWhile_append, (ends_isDigit h).dropWhile_append]
    split
    · split <;> rfl
    · rfl

theorem scanMantissa_append (cs : List Char) :
    scanMantissa (cs ++ rest) =
      ((scanMantissa cs).1, (scanMantissa cs).2.1, (scanMantissa cs).2.2 ++ rest) := by
  have hdigits := ends_isDigit h
  simp only [scanMantissa, hdigits.takeWhile_append, hdigits.dropWhile_append]
  cases hr : cs.dropWhile isDigit with
  | nil =>
    have hdot (r : List Char) : rest ≠ '.' :: r := by
      rintro rfl
      have hfalse : isNumeralChar '.' = false := h '.' rfl
      cases hfalse
    rw [List.nil_append]
    split
    · next r => exact absurd rfl (hdot r)
    · rfl
  | cons c r =>
    by_cases hc : c = '.'
    · subst hc
      simp only [List.cons_append, hdigits.takeWhile_append, hdigits.dropWhile_append]
    · simp [hc]

theorem scan_append (cs : List Char) : scan (cs ++ rest) = (scan cs).append rest := by
  rw [scan, scan, scanMantissa_append h]
  dsimp only
  rw [scanExponent_append h]
  cases scanExponent (scanMantissa cs).2.2 <;> rfl

end

/-- Whether a numeral can go on with a character: always with a digit, without an exponent with its
marker, and with a point where there is no fraction yet either. -/
def goesOn (n : Numeral) (c : Char) : Bool :=
  isDigit c || (n.exponent.isNone && (c = 'e' || c = 'E')) ||
    (n.exponent.isNone && n.fraction.isNone && c = '.')

theorem ends_isDigit_of_goesOn {n : Numeral} (h : Ends n.goesOn rest) : Ends isDigit rest := by
  apply h.mono
  intro c hc
  simp [goesOn, hc]

variable {n : Numeral}

theorem startsAt_text (h : n.IsProper) : startsAt n.text = true := by
  obtain ⟨whole, fraction, exponent⟩ := n
  cases whole with
  | cons d ds =>
    have hd : isDigit d = true := h.whole d List.mem_cons_self
    have hdot : d ≠ '.' := by
      rintro rfl
      cases hd
    simp [text, startsAt, hdot, hd]
  | nil =>
    obtain hwhole | ⟨ds, rfl, hne⟩ := h.mantissa
    · exact absurd rfl hwhole
    · cases ds with
      | nil => exact absurd rfl hne
      | cons d ds => exact h.fraction _ rfl d List.mem_cons_self

theorem scanExponent_text {e : Exponent} (h : e.IsProper) (hrest : Ends isDigit rest) :
    scanExponent (e.text ++ rest) = .found e rest := by
  obtain ⟨marker, sign, digits⟩ := e
  have hmarker : (marker = 'e' || marker = 'E') = true := by simpa using h.marker
  have hsplit : splitSign (sign.toList ++ (digits ++ rest)) = (sign, digits ++ rest) := by
    cases sign with
    | some c => rcases h.sign c rfl with rfl | rfl <;> rfl
    | none =>
      cases digits with
      | nil => exact absurd rfl h.digits_ne_nil
      | cons d ds =>
        have hd : isDigit d = true := h.digits d List.mem_cons_self
        have hplus : d ≠ '+' := by
          rintro rfl
          cases hd
        have hminus : d ≠ '-' := by
          rintro rfl
          cases hd
        simp [splitSign, hplus, hminus]
  have htake : (digits ++ rest).takeWhile isDigit = digits := hrest.takeWhile_run h.digits
  have hdrop : (digits ++ rest).dropWhile isDigit = rest := hrest.dropWhile_run h.digits
  rw [Exponent.text, List.cons_append, List.append_assoc, scanExponent, if_pos hmarker, hsplit]
  dsimp only
  rw [htake, hdrop]
  split
  · exact absurd rfl h.digits_ne_nil
  · rfl

/-- Behind the mantissa of a numeral comes no digit, and no point unless there is one already. -/
theorem ends_mantissa (h : n.IsProper) (hrest : Ends n.goesOn rest) :
    Ends isDigit (n.exponent.elim [] Exponent.text ++ rest) ∧
      (n.fraction = none → ∀ r, n.exponent.elim [] Exponent.text ++ rest ≠ '.' :: r) := by
  cases he : n.exponent with
  | none =>
    refine ⟨ends_isDigit_of_goesOn hrest, ?_⟩
    rintro hfraction r hr
    have hdot := hrest '.' (by rw [show rest = '.' :: r from hr]; rfl)
    simp [goesOn, he, hfraction] at hdot
  | some e =>
    constructor
    · rintro c ⟨⟩
      rcases (h.exponent e he).marker with hm | hm <;> rw [hm] <;> decide
    · intro _ r hr
      have hdot : e.marker = '.' := (List.cons.inj hr).1
      rcases (h.exponent e he).marker with hm | hm <;> rw [hm] at hdot <;> cases hdot

theorem scanMantissa_text (h : n.IsProper) (hrest : Ends n.goesOn rest) :
    scanMantissa (n.text ++ rest) =
      (n.whole, n.fraction, n.exponent.elim [] Exponent.text ++ rest) := by
  obtain ⟨hends, hdot⟩ := ends_mantissa h hrest
  obtain ⟨whole, fraction, exponent⟩ := n
  dsimp only at hends hdot ⊢
  cases fraction with
  | some ds =>
    have hpoint : Ends isDigit ('.' :: (ds ++ (exponent.elim [] Exponent.text ++ rest))) := by
      rintro c ⟨⟩
      rfl
    have htext : text ⟨whole, some ds, exponent⟩ ++ rest =
        whole ++ '.' :: (ds ++ (exponent.elim [] Exponent.text ++ rest)) := by
      simp [text]
    rw [htext, scanMantissa, hpoint.dropWhile_run h.whole, hpoint.takeWhile_run h.whole]
    simp only [hends.takeWhile_run (h.fraction ds rfl), hends.dropWhile_run (h.fraction ds rfl)]
  | none =>
    have htext : text ⟨whole, none, exponent⟩ ++ rest =
        whole ++ (exponent.elim [] Exponent.text ++ rest) := by
      simp [text]
    rw [htext, scanMantissa, hends.dropWhile_run h.whole, hends.takeWhile_run h.whole]
    split
    · next r hr => exact absurd hr (hdot rfl r)
    · rfl

/-- A numeral is found whole in front of everything that it cannot go on with. -/
theorem scan_text_append (h : n.IsProper) (hrest : Ends n.goesOn rest) :
    scan (n.text ++ rest) = .found n rest := by
  rw [scan, scanMantissa_text h hrest]
  obtain ⟨whole, fraction, exponent⟩ := n
  cases exponent with
  | none =>
    have habsent : scanExponent rest = .absent := by
      cases rest with
      | nil => rfl
      | cons c r =>
        have hc : goesOn ⟨whole, fraction, none⟩ c = false := hrest c rfl
        have hmarker : ¬(c = 'e' || c = 'E') = true := by
          intro hmarker
          simp [goesOn, hmarker] at hc
        rw [scanExponent, if_neg hmarker]
    dsimp only [Option.elim, List.nil_append]
    rw [habsent]
  | some e =>
    dsimp only [Option.elim]
    rw [scanExponent_text (h.exponent e rfl) (ends_isDigit_of_goesOn hrest)]

theorem scan_text (h : n.IsProper) : scan n.text = .found n [] := by
  have hscan := scan_text_append h (ends_nil n.goesOn)
  rwa [List.append_nil] at hscan

/-- A whole text is a numeral exactly if it is written in the form of one. -/
theorem ofText?_eq_some_iff {cs : List Char} : ofText? cs = some n ↔ n.IsProper ∧ n.text = cs := by
  constructor
  · intro h
    unfold ofText? at h
    split at h
    · next hs =>
      split at h
      · next n' hscan =>
        cases h
        have htext := text_append_of_scan hscan
        rw [List.append_nil] at htext
        exact ⟨isProper_of_scan hs hscan, htext⟩
      · cases h
    · cases h
  · rintro ⟨h, rfl⟩
    rw [ofText?, if_pos (startsAt_text h), scan_text h]

end Numeral

end Motion.Number
