import Motion.Proofs.Number.Finite
import Motion.Proofs.Number.Numeral

namespace Motion.Number
open Float.Model Float.Model.UnpackedFloat

theorem isNaN_neg (x : Float) : (-x).isNaN = x.isNaN := by
  change (stored .binary64 x.toModel.unpack.neg).isNaN = x.toModel.unpack.isNaN
  cases hu : x.toModel.unpack with
  | notANumber => rw [UnpackedFloat.neg, stored_notANumber]
  | _ => exact isNaN_stored rfl

theorem isFinite_toFloat {n : ℕ} (h : n < 2 ^ 53) : n.toUInt64.toFloat.isFinite = true := by
  obtain ⟨hnan, hvalue⟩ := valueOf_toFloat h
  obtain ⟨hlow, hhigh⟩ := natCast_between h
  rw [← hvalue] at hlow hhigh
  exact isFinite_of_number hnan (isInf_of_between hlow hhigh)

theorem isNaN_ofScientific_unpacked (spec : Format) (m : ℕ) (e : ℤ) :
    (UnpackedFloat.ofScientific spec m e).isNaN = false := by
  unfold UnpackedFloat.ofScientific
  split
  · rfl
  · split
    · rfl
    · split
      · rfl
      · split
        · exact isNaN_roundWithAccuracy _ _ _ _ _
        · exact isNaN_roundWithAccuracy _ _ _ _ _

theorem isNaN_ofScientific (m : ℕ) (negative : Bool) (e : ℕ) :
    (Float.ofScientific m negative e).isNaN = false := by
  by_cases h : m < 2 ^ 53 ∧ e ≤ 22
  · have hpower (e : ℕ) (he : e < Float.exactlyRepresentablePowersOfTen.size) :
        Float.exactlyRepresentablePowersOfTen[e].isFinite = true ∧
          1.0 ≤ Float.exactlyRepresentablePowersOfTen[e] := by
      revert e
      decide +kernel
    have hdigits := isFinite_toFloat h.1
    rw [Float.ofScientific, dif_pos h]
    dsimp only
    split
    · have hquotient := isFinite_div hdigits (hpower e (Nat.lt_succ_of_le h.2)).1
        (hpower e (Nat.lt_succ_of_le h.2)).2
      exact (number_of_isFinite hquotient).1
    · exact isNaN_mul hdigits (hpower e (Nat.lt_succ_of_le h.2)).1
  · rw [Float.ofScientific, dif_neg h]
    exact isNaN_stored (isNaN_ofScientific_unpacked .binary64 m _)

theorem Numeral.isNaN_value (n : Numeral) : n.value.isNaN = false := by
  unfold Numeral.value ofDecimal
  split
  · exact isNaN_ofScientific _ _ _
  · exact isNaN_ofScientific _ _ _

/-- What a text without a sign stands for: a numeral for its value, and a word, in any ASCII case,
for infinity or NaN. -/
inductive WritesUnsigned : List Char → Float → Prop
  | numeral {n : Numeral} (h : n.IsProper) : WritesUnsigned n.text n.value
  | infinity {cs : List Char} (h : cs.map Char.toLower = "inf".toList ∨
      cs.map Char.toLower = "infinity".toList) : WritesUnsigned cs (1.0 / 0.0)
  | notANumber {cs : List Char} (h : cs.map Char.toLower = "nan".toList) :
      WritesUnsigned cs (0.0 / 0.0)

/-- A text stands for a number: an optional sign, then a text that stands for one without it. -/
def WritesNumber (cs : List Char) (x : Float) : Prop :=
  ∃ sign r magnitude, IsSign sign ∧ cs = sign.toList ++ r ∧ WritesUnsigned r magnitude ∧
    x = if sign = some '-' then -magnitude else magnitude

theorem isDigit_le {c : Char} (h : isDigit c = true) : c ≤ '9' := by
  simp only [isDigit, Bool.and_eq_true, decide_eq_true_eq] at h
  exact h.2

/-- Digits, points and signs stand below all letters. -/
theorem toLower_of_le {c : Char} (h : c ≤ '9') : c.toLower = c := by
  have hcapital : ¬(c.val ≥ 'A'.val ∧ c.val ≤ 'Z'.val) := by
    intro hc
    have hlt : ('9' : Char).val < ('A' : Char).val := by decide
    exact absurd (UInt32.le_trans hc.1 h) (UInt32.not_le.mpr hlt)
  rw [Char.toLower, dif_neg hcapital]

theorem not_le_of_word {cs : List Char} {first : Char} {word : List Char}
    (h : cs.map Char.toLower = first :: word) (hfirst : ¬first ≤ '9') :
    ∃ c tail, cs = c :: tail ∧ ¬c ≤ '9' := by
  obtain ⟨c, tail, rfl, hc, -⟩ := List.map_eq_cons_iff.mp h
  refine ⟨c, tail, rfl, ?_⟩
  intro hle
  rw [toLower_of_le hle] at hc
  exact hfirst (hc ▸ hle)

theorem ofText?_of_not_le {c : Char} (h : ¬c ≤ '9') (tail : List Char) :
    Numeral.ofText? (c :: tail) = none := by
  have hdot : c ≠ '.' := by
    rintro rfl
    exact h (by decide)
  have hdigit : isDigit c = false := by
    rw [← Bool.not_eq_true]
    exact fun hd => h (isDigit_le hd)
  have hstart : ¬Numeral.startsAt (c :: tail) = true := by
    simp [Numeral.startsAt, hdot, hdigit]
  rw [Numeral.ofText?, if_neg hstart]

theorem namedFloat?_eq_some_iff {word : List Char} {x : Float} :
    namedFloat? word = some x ↔
      ((word = "inf".toList ∨ word = "infinity".toList) ∧ 1.0 / 0.0 = x) ∨
        (word = "nan".toList ∧ 0.0 / 0.0 = x) := by
  have hother : ∀ w ∈ ["inf".toList, "infinity".toList], w ≠ "nan".toList := by decide
  simp only [namedFloat?, Bool.or_eq_true, decide_eq_true_eq]
  split
  · next h =>
    have hnan : word ≠ "nan".toList := by
      rcases h with rfl | rfl
      · exact hother _ (by decide)
      · exact hother _ (by decide)
    rw [Option.some.injEq]
    exact ⟨fun hx => Or.inl ⟨h, hx⟩, fun hx => hx.elim And.right fun hn => absurd hn.1 hnan⟩
  · next h =>
    split
    · next hnan =>
      rw [Option.some.injEq]
      exact ⟨fun hx => Or.inr ⟨hnan, hx⟩, fun hx => hx.elim (fun hi => absurd hi.1 h) And.right⟩
    · next hnan =>
      constructor
      · rintro ⟨⟩
      · rintro (⟨hi, -⟩ | ⟨hn, -⟩)
        · exact absurd hi h
        · exact absurd hn hnan

/-- How a text without a sign is read. -/
def readUnsigned? (cs : List Char) : Option Float :=
  ((Numeral.ofText? cs).map Numeral.value) <|> namedFloat? (cs.map Char.toLower)

theorem readUnsigned?_eq_some_iff {cs : List Char} {x : Float} :
    readUnsigned? cs = some x ↔ WritesUnsigned cs x := by
  constructor
  · intro h
    unfold readUnsigned? at h
    cases hn : Numeral.ofText? cs with
    | some n =>
      rw [hn] at h
      obtain ⟨hproper, rfl⟩ := Numeral.ofText?_eq_some_iff.mp hn
      obtain rfl : n.value = x := Option.some.inj h
      exact .numeral hproper
    | none =>
      rw [hn] at h
      rcases namedFloat?_eq_some_iff.mp h with ⟨hword, rfl⟩ | ⟨hword, rfl⟩
      · exact .infinity hword
      · exact .notANumber hword
  · intro h
    cases h with
    | numeral hproper =>
      rw [readUnsigned?, Numeral.ofText?_eq_some_iff.mpr ⟨hproper, rfl⟩]
      rfl
    | infinity hword =>
      have hfirst : ∃ c tail, cs = c :: tail ∧ ¬c ≤ '9' := by
        rcases hword with hword | hword
        · exact not_le_of_word hword (by decide)
        · exact not_le_of_word hword (by decide)
      obtain ⟨c, tail, rfl, hc⟩ := hfirst
      rw [readUnsigned?, ofText?_of_not_le hc, Option.map_none]
      exact namedFloat?_eq_some_iff.mpr (Or.inl ⟨hword, rfl⟩)
    | notANumber hword =>
      obtain ⟨c, tail, rfl, hc⟩ := not_le_of_word hword (by decide)
      rw [readUnsigned?, ofText?_of_not_le hc, Option.map_none]
      exact namedFloat?_eq_some_iff.mpr (Or.inr ⟨hword, rfl⟩)

theorem head_of_writesUnsigned {cs : List Char} {x : Float} (h : WritesUnsigned cs x) :
    ∀ c ∈ cs.head?, c ≠ '+' ∧ c ≠ '-' := by
  have hword {cs : List Char} {c₀ : Char} {w : List Char} (hw : cs.map Char.toLower = c₀ :: w)
      (hc₀ : ¬c₀ ≤ '9') : ∀ c ∈ cs.head?, c ≠ '+' ∧ c ≠ '-' := by
    obtain ⟨c, tail, rfl, hc⟩ := not_le_of_word hw hc₀
    rintro c' ⟨⟩
    constructor
    · rintro rfl
      exact hc (by decide)
    · rintro rfl
      exact hc (by decide)
  cases h with
  | numeral hproper =>
    intro c hc
    have hstart := Numeral.startsAt_text hproper
    obtain ⟨tail, htail⟩ := List.head?_eq_some_iff.mp hc
    rw [htail] at hstart
    constructor
    · rintro rfl
      cases hstart
    · rintro rfl
      cases hstart
  | infinity hw =>
    rcases hw with hw | hw
    · exact hword hw (by decide)
    · exact hword hw (by decide)
  | notANumber hw => exact hword hw (by decide)

/-- A text is read as a number exactly if it stands for one. -/
theorem readFloat?_eq_some_iff {cs : List Char} {x : Float} :
    readFloat? cs = some x ↔ WritesNumber cs x := by
  have hread : readFloat? cs = (readUnsigned? (Numeral.splitSign cs).2).map fun x =>
      if (Numeral.splitSign cs).1 = some '-' then -x else x := rfl
  rw [hread, Option.map_eq_some_iff]
  constructor
  · rintro ⟨magnitude, hmagnitude, rfl⟩
    exact ⟨(Numeral.splitSign cs).1, (Numeral.splitSign cs).2, magnitude,
      Numeral.isSign_splitSign cs, (Numeral.splitSign_append cs).symm,
      readUnsigned?_eq_some_iff.mp hmagnitude, rfl⟩
  · rintro ⟨sign, r, magnitude, hsign, rfl, hmagnitude, rfl⟩
    have hsplit : Numeral.splitSign (sign.toList ++ r) = (sign, r) := by
      cases sign with
      | some c => rcases hsign c rfl with rfl | rfl <;> rfl
      | none =>
        cases r with
        | nil => rfl
        | cons c tail =>
          obtain ⟨hplus, hminus⟩ := head_of_writesUnsigned hmagnitude c rfl
          simp [Numeral.splitSign, hplus, hminus]
    rw [hsplit]
    exact ⟨magnitude, readUnsigned?_eq_some_iff.mpr hmagnitude, rfl⟩

theorem isNaN_signed (sign : Option Char) (x : Float) :
    (if sign = some '-' then -x else x).isNaN = x.isNaN := by
  split
  · exact isNaN_neg x
  · rfl

theorem isNaN_of_writesUnsigned {cs : List Char} {x : Float} (h : WritesUnsigned cs x)
    (hnan : x.isNaN = true) : cs.map Char.toLower = "nan".toList := by
  cases h with
  | numeral hproper =>
    rw [Numeral.isNaN_value] at hnan
    cases hnan
  | infinity hword => cases hnan
  | notANumber hword => exact hword

/-- Of the texts that stand for a number only the word for it, with or without a sign, gives NaN. -/
theorem isNaN_iff_of_writesNumber {cs : List Char} {x : Float} (h : WritesNumber cs x) :
    x.isNaN = true ↔ ∃ sign r, IsSign sign ∧ cs = sign.toList ++ r ∧
      r.map Char.toLower = "nan".toList := by
  constructor
  · intro hnan
    obtain ⟨sign, r, magnitude, hsign, hcs, hmagnitude, rfl⟩ := h
    rw [isNaN_signed] at hnan
    exact ⟨sign, r, hsign, hcs, isNaN_of_writesUnsigned hmagnitude hnan⟩
  · rintro ⟨sign, r, hsign, hcs, hword⟩
    have hnan : WritesNumber cs (if sign = some '-' then -(0.0 / 0.0) else 0.0 / 0.0) :=
      ⟨sign, r, 0.0 / 0.0, hsign, hcs, .notANumber hword, rfl⟩
    have heq := (readFloat?_eq_some_iff.mpr h).symm.trans (readFloat?_eq_some_iff.mpr hnan)
    rw [Option.some.inj heq, isNaN_signed]
    rfl

end Motion.Number
