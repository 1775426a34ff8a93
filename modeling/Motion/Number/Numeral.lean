import Motion.Number.Binary

/-! Decimal numerals: digits with an optional fraction, or a fraction alone, and an optional
exponent. -/
namespace Motion.Number

def isDigit (c : Char) : Bool := '0' ≤ c && c ≤ '9'

/-- The digit's value; meant for digits only. -/
def digitValue (c : Char) : Nat := c.toNat - 48

def digitsValue (ds : List Char) : Nat :=
  ds.foldl (fun n c => 10 * n + digitValue c) 0

structure Exponent where
  marker : Char
  sign : Option Char
  digits : List Char
  deriving DecidableEq, Repr

/-- An unsigned decimal numeral as written; `fraction` is what follows the point, where there is
one. -/
structure Numeral where
  whole : List Char
  fraction : Option (List Char)
  exponent : Option Exponent
  deriving DecidableEq, Repr

namespace Exponent

def text (e : Exponent) : List Char :=
  e.marker :: (e.sign.toList ++ e.digits)

def value (e : Exponent) : Int :=
  if e.sign = some '-' then -(digitsValue e.digits : Int) else digitsValue e.digits

end Exponent

/-- The number `mantissa · 10 ^ power`, correctly rounded. -/
def ofDecimal (mantissa : Nat) (power : Int) : Float :=
  if 0 ≤ power then Float.ofScientific mantissa false power.toNat
  else Float.ofScientific mantissa true (-power).toNat

namespace Numeral

def text (n : Numeral) : List Char :=
  n.whole ++ (n.fraction.elim [] ('.' :: ·)) ++ (n.exponent.elim [] Exponent.text)

/-- All digits of the mantissa, without the point. -/
def digits (n : Numeral) : List Char :=
  n.whole ++ n.fraction.getD []

def value (n : Numeral) : Float :=
  ofDecimal (digitsValue n.digits)
    (n.exponent.elim 0 Exponent.value - ((n.fraction.getD []).length : Int))

inductive ExponentScan where
  /-- No exponent marker stands here. -/
  | absent
  /-- A marker without digits behind it. -/
  | incomplete
  | found (e : Exponent) (rest : List Char)

def splitSign : List Char → Option Char × List Char
  | '+' :: r => (some '+', r)
  | '-' :: r => (some '-', r)
  | r => (none, r)

def scanExponent : List Char → ExponentScan
  | [] => .absent
  | c :: r =>
    if c = 'e' || c = 'E' then
      let (sign, r) := splitSign r
      match r.takeWhile isDigit with
      | [] => .incomplete
      | ds => .found ⟨c, sign, ds⟩ (r.dropWhile isDigit)
    else .absent

/-- Whether a numeral starts here: a digit, or a point with a digit behind it. -/
def startsAt : List Char → Bool
  | '.' :: d :: _ => isDigit d
  | c :: _ => isDigit c
  | [] => false

/-- The mantissa at the front of a text: the longest run of digits, then a point and the digits
behind it where a point follows. -/
def scanMantissa (cs : List Char) : List Char × Option (List Char) × List Char :=
  match cs.dropWhile isDigit with
  | '.' :: r => (cs.takeWhile isDigit, some (r.takeWhile isDigit), r.dropWhile isDigit)
  | r => (cs.takeWhile isDigit, none, r)

inductive Scan where
  | found (n : Numeral) (rest : List Char)
  /-- The exponent marker that follows this mantissa has no digits. -/
  | badExponent (mantissa : Numeral)

def scan (cs : List Char) : Scan :=
  let (whole, fraction, r) := scanMantissa cs
  match scanExponent r with
  | .absent => .found ⟨whole, fraction, none⟩ r
  | .incomplete => .badExponent ⟨whole, fraction, none⟩
  | .found e rest => .found ⟨whole, fraction, some e⟩ rest

theorem splitSign_append (cs : List Char) :
    (splitSign cs).1.toList ++ (splitSign cs).2 = cs := by
  unfold splitSign
  split <;> rfl

theorem text_append_of_scanExponent {cs : List Char} {e : Exponent} {rest : List Char}
    (h : scanExponent cs = .found e rest) : e.text ++ rest = cs := by
  cases cs with
  | nil => simp [scanExponent] at h
  | cons c r =>
    simp only [scanExponent] at h
    split at h
    · split at h
      · simp at h
      · simp only [ExponentScan.found.injEq] at h
        rw [← h.1, ← h.2]
        simp only [Exponent.text, List.cons_append, List.append_assoc,
          List.takeWhile_append_dropWhile, splitSign_append]
    · simp at h

theorem text_append_scanMantissa (cs : List Char) :
    text ⟨(scanMantissa cs).1, (scanMantissa cs).2.1, none⟩ ++ (scanMantissa cs).2.2 = cs := by
  have h := List.takeWhile_append_dropWhile (p := isDigit) (l := cs)
  unfold scanMantissa
  split
  · rename_i r hr
    rw [hr] at h
    simpa [text] using h
  · simp [text]

theorem text_append_of_scan {cs : List Char} {n : Numeral} {rest : List Char}
    (h : scan cs = .found n rest) : n.text ++ rest = cs := by
  have hm := text_append_scanMantissa cs
  unfold scan at h
  generalize scanMantissa cs = m at hm h
  obtain ⟨whole, fraction, r⟩ := m
  dsimp only at hm h
  split at h
  · simp only [Scan.found.injEq] at h
    rw [← h.1, ← h.2]
    exact hm
  · simp at h
  · rename_i he
    simp only [Scan.found.injEq] at h
    rw [← text_append_of_scanExponent he] at hm
    rw [← h.1, ← h.2]
    simpa [text] using hm

theorem scanMantissa_ne_nil {cs : List Char} (h : startsAt cs) :
    (scanMantissa cs).1 ≠ [] ∨ (scanMantissa cs).2.1 ≠ none := by
  cases cs with
  | nil => simp [startsAt] at h
  | cons c r =>
    by_cases hc : isDigit c
    · left
      unfold scanMantissa
      split <;> simp [hc]
    · right
      have hdot : c = '.' := by
        unfold startsAt at h
        split at h <;> simp_all
      subst hdot
      simp [scanMantissa, hc]

theorem text_ne_nil_of_scan {cs : List Char} {n : Numeral} {rest : List Char}
    (hs : startsAt cs) (h : scan cs = .found n rest) : n.text ≠ [] := by
  have hm := scanMantissa_ne_nil hs
  unfold scan at h
  generalize scanMantissa cs = m at hm h
  obtain ⟨whole, fraction, r⟩ := m
  dsimp only at hm h
  have hn : n.whole = whole ∧ n.fraction = fraction := by
    split at h
    · simp only [Scan.found.injEq] at h
      simp [← h.1]
    · simp at h
    · simp only [Scan.found.injEq] at h
      simp [← h.1]
  rw [← hn.1, ← hn.2] at hm
  rcases hm with hw | hf
  · simp [text, hw]
  · obtain ⟨f, hf⟩ := Option.ne_none_iff_exists'.1 hf
    simp [text, hf]

def ofText? (cs : List Char) : Option Numeral :=
  if startsAt cs then
    match scan cs with
    | .found n [] => some n
    | _ => none
  else none

end Numeral

def namedFloat? (word : List Char) : Option Float :=
  if word = "inf".toList || word = "infinity".toList then some (1.0 / 0.0)
  else if word = "nan".toList then some (0.0 / 0.0)
  else none

/-- Reads a whole text as a number: an optional sign, then a numeral, or `inf`, `infinity` or `nan`
in any ASCII case. -/
def readFloat? (cs : List Char) : Option Float :=
  let (sign, r) := Numeral.splitSign cs
  let magnitude? := ((Numeral.ofText? r).map Numeral.value) <|> namedFloat? (r.map Char.toLower)
  magnitude?.map fun x => if sign = some '-' then -x else x

end Motion.Number
