import Motion.Json.Reader
import Motion.Proofs.Number.Finite
import Motion.Proofs.Outcome
import Motion.Proofs.Table

/-! The numbers that a document can hold: integers of 64 bits and finite floating-point numbers. -/
namespace Motion.Json
open Motion.Number

/-- All numbers in a value are such as a document holds: integers of 64 bits, with or without a
sign, and finite numbers. -/
inductive Value.InRange : Value → Prop
  | null : InRange .null
  | bool (b : Bool) : InRange (.bool b)
  | integer {n : Int} (hlow : -2 ^ 63 ≤ n) (hhigh : n < 2 ^ 64) : InRange (.integer n)
  | float {precision : Precision} {x : Float} (h : x.isFinite = true) : InRange (.float precision x)
  | string (s : String) : InRange (.string s)
  | array {items : List Value} (h : ∀ v ∈ items, InRange v) : InRange (.array items)
  | object {entries : List (String × Value)} (h : ∀ e ∈ entries, InRange e.2) :
    InRange (.object entries)

namespace Value.InRange

attribute [simp] null bool string

@[simp]
theorem integer_iff {n : Int} : InRange (.integer n) ↔ -2 ^ 63 ≤ n ∧ n < 2 ^ 64 := by
  constructor
  · intro h
    cases h with
    | integer hlow hhigh => exact ⟨hlow, hhigh⟩
  · intro h
    exact .integer h.1 h.2

@[simp]
theorem float_iff {precision : Precision} {x : Float} :
    InRange (.float precision x) ↔ x.isFinite = true := by
  constructor
  · intro h
    cases h with
    | float h => exact h
  · exact .float

@[simp]
theorem array_iff {items : List Value} : InRange (.array items) ↔ ∀ v ∈ items, InRange v := by
  constructor
  · intro h
    cases h with
    | array h => exact h
  · exact .array

@[simp]
theorem object_iff {entries : List (String × Value)} :
    InRange (.object entries) ↔ ∀ e ∈ entries, InRange e.2 := by
  constructor
  · intro h
    cases h with
    | object h => exact h
  · exact .object

end Value.InRange

theorem isFinite_scaleByTen {x y : Float} {power : Int} (hx : x.isFinite = true)
    (h : scaleByTen x power = some y) : y.isFinite = true := by
  fun_induction scaleByTen x power with
  | case1 => cases h
  | case2 x power hpower ten hsign product hinf =>
    have hnan : product.isNaN = false := isNaN_mul hx (power_of_ten hpower).1
    rw [← Option.some.inj h]
    exact isFinite_of_number hnan (Bool.eq_false_iff.mpr hinf)
  | case3 x power hpower ten hsign =>
    obtain ⟨hten, hone⟩ := power_of_ten hpower
    rw [← Option.some.inj h]
    exact isFinite_div hx hten hone
  | case4 =>
    rw [← Option.some.inj h]
    exact hx
  | case5 => cases h
  | case6 x power hpower hzero hsign ih =>
    obtain ⟨hten, hone⟩ := power_of_ten (le_refl 308)
    exact ih (isFinite_div hx hten hone) h

theorem extendMantissa_le {mantissa : Nat} (h : mantissa ≤ maxMantissa) (ds : List Char) :
    (extendMantissa mantissa ds).1 ≤ maxMantissa := by
  fun_induction extendMantissa mantissa ds with
  | case1 => exact h
  | case2 mantissa d ds next hnext m used hused ih =>
    rw [hused] at ih
    exact ih hnext
  | case3 => exact h

theorem isFinite_of_floatOfParts {negative : Bool} {mantissa : Nat} {power : Int} {v : Value}
    (hmantissa : mantissa ≤ maxMantissa) (h : floatOfParts negative mantissa power = some v) :
    ∃ x, v = .float .double x ∧ x.isFinite = true := by
  obtain ⟨x, hx, rfl⟩ := Option.map_eq_some_iff.mp h
  have hfinite : x.isFinite = true :=
    isFinite_scaleByTen (isFinite_ofNat (hmantissa.trans (by decide))) hx
  refine ⟨_, rfl, ?_⟩
  cases negative with
  | false => exact hfinite
  | true => exact isFinite_neg hfinite

/-- A numeral is an integer of 64 bits or a finite number. -/
theorem numeralValue_cases {negative : Bool} {n : Numeral} {v : Value}
    (h : numeralValue negative n = some v) :
    (∃ k : Int, v = .integer k ∧ -2 ^ 63 ≤ k ∧ k < 2 ^ 64) ∨
      ∃ x, v = .float .double x ∧ x.isFinite = true := by
  have hwhole := extendMantissa_le (Nat.zero_le maxMantissa) n.whole
  have hmax : maxMantissa < 2 ^ 64 := by decide
  unfold numeralValue at h
  dsimp only at h
  split at h
  · split at h
    · exact Or.inr (isFinite_of_floatOfParts hwhole h)
    · split at h
      · cases h
        exact Or.inl ⟨_, rfl, by omega, by omega⟩
      · split at h
        · rename_i hfits
          cases h
          rw [Bool.and_eq_true, decide_eq_true_eq, decide_eq_true_eq] at hfits
          have hlow : (extendMantissa 0 n.whole).1 ≤ 2 ^ 63 := hfits.2
          exact Or.inl ⟨_, rfl, by omega, by omega⟩
        · cases h
          exact Or.inr ⟨_, rfl, isFinite_neg (isFinite_ofNat (hwhole.trans hmax.le))⟩
  · exact Or.inr (isFinite_of_floatOfParts (extendMantissa_le hwhole _) h)

theorem inRange_of_numeralValue {negative : Bool} {n : Numeral} {v : Value}
    (h : numeralValue negative n = some v) : v.InRange := by
  rcases numeralValue_cases h with ⟨k, rfl, hlow, hhigh⟩ | ⟨x, rfl, hfinite⟩
  · exact .integer hlow hhigh
  · exact .float hfinite

/-- Whatever is read off the front of a text has a property. -/
def Yields {α : Type} (read : Reader α) (P : α → Prop) : Prop :=
  ∀ ⦃cs r : List Char⦄ ⦃a : α⦄, read cs = .ok (a, r) → P a

theorem yields_readWord {α : Type} (value : α) (ws : List Char) :
    Yields (readWord value ws) (· = value) := by
  intro cs r a h
  fun_induction readWord value ws cs with
  | case1 cs =>
    cases h
    rfl
  | case2 => cases h
  | case3 ws c cs ih => exact ih h
  | case4 => cases h

theorem yields_readNumber (negative : Bool) :
    Yields (readNumber negative) fun v => ∃ n, numeralValue negative n = some v := by
  intro cs r v h
  obtain ⟨⟨whole, r₁⟩, -, h⟩ := bind_eq_ok_iff.mp h
  obtain ⟨⟨fraction, r₂⟩, -, h⟩ := bind_eq_ok_iff.mp h
  obtain ⟨⟨exponent, r₃⟩, -, h⟩ := bind_eq_ok_iff.mp h
  dsimp only at h
  cases hvalue : numeralValue negative ⟨whole, fraction, exponent⟩ with
  | some v' =>
    rw [hvalue] at h
    cases h
    exact ⟨_, hvalue⟩
  | none =>
    rw [hvalue] at h
    dsimp only at h
    split at h
    · cases h
    · cases h

theorem yields_readItems {α : Type} {P : α → Prop} {item : Reader α} (hitem : Yields item P)
    (fuel : Nat) {seen : List α} (hseen : ∀ a ∈ seen, P a) :
    Yields (readItems item fuel seen) fun items => ∀ a ∈ items, P a := by
  intro cs r items h
  fun_induction readItems item fuel seen cs with
  | case1 => cases h
  | case2 => cases h
  | case3 fuel seen cs r hnext =>
    cases h
    intro a ha
    exact hseen a (List.mem_reverse.mp ha)
  | case4 => cases h
  | case5 fuel seen cs r hnext v r' hv ih =>
    exact ih (List.forall_mem_cons.mpr ⟨hitem hv, hseen⟩) h

theorem yields_readEntries {P : Value → Prop} {item : Reader Value} (hitem : Yields item P)
    (fuel : Nat) (first : Bool) {seen : List (String × Value)} (hseen : ∀ e ∈ seen, P e.2) :
    Yields (readEntries item fuel first seen) fun entries => ∀ e ∈ entries, P e.2 := by
  intro cs r entries h
  fun_induction readEntries item fuel first seen cs with
  | case1 => cases h
  | case2 => cases h
  | case3 fuel first seen cs r hnext =>
    cases h
    exact hseen
  | case4 => cases h
  | case5 fuel first seen cs key r hnext v r' hv ih =>
    obtain ⟨colon, -, hv⟩ := bind_eq_ok_iff.mp hv
    apply ih _ h
    intro e he
    rcases Table.mem_of_mem_insert he with rfl | he
    · exact hitem hv
    · exact hseen e he

/-- An array or an object is in range if the values one level further in are. -/
theorem yields_readValue_of_inner {depth : Nat}
    (hinner : ∀ inner < depth, Yields (readValue inner) Value.InRange) :
    Yields (readValue depth) Value.InRange := by
  intro cs r v h
  unfold readValue at h
  split at h
  · cases h
  · rw [yields_readWord _ _ h]
    exact .null
  · rw [yields_readWord _ _ h]
    exact .bool true
  · rw [yields_readWord _ _ h]
    exact .bool false
  · obtain ⟨n, hn⟩ := yields_readNumber true h
    exact inRange_of_numeralValue hn
  · obtain ⟨⟨s, r'⟩, -, heq⟩ := map_eq_ok_iff.mp h
    cases heq
    exact .string s
  · split at h
    · cases h
    · rename_i inner
      obtain ⟨⟨items, r'⟩, hitems, heq⟩ := map_eq_ok_iff.mp h
      cases heq
      have hinner := hinner inner (Nat.lt_succ_self inner)
      exact .array (yields_readItems hinner _ (List.forall_mem_nil _) hitems)
  · split at h
    · cases h
    · rename_i inner
      obtain ⟨⟨entries, r'⟩, hentries, heq⟩ := map_eq_ok_iff.mp h
      cases heq
      have hinner := hinner inner (Nat.lt_succ_self inner)
      exact .object (yields_readEntries hinner _ true (List.forall_mem_nil _) hentries)
  · split at h
    · obtain ⟨n, hn⟩ := yields_readNumber false h
      exact inRange_of_numeralValue hn
    · cases h

theorem yields_readValue (depth : Nat) : Yields (readValue depth) Value.InRange := by
  induction depth using Nat.strongRecOn with
  | ind depth ih => exact yields_readValue_of_inner ih

theorem readEnd_eq_ok_iff {α : Type} {a b : α} {cs : List Char} :
    readEnd a cs = .ok b ↔ skipSpace cs = [] ∧ a = b := by
  unfold readEnd
  split
  · rename_i hend
    rw [Except.ok.injEq]
    simp only [hend, true_and]
  · rename_i r hend
    constructor
    · intro h
      cases h
    · rintro ⟨hnil, -⟩
      exact absurd hnil hend

/-- What is read from a text holds only integers of 64 bits and finite numbers. -/
theorem inRange_of_readDocument {text : String} {v : Value} (h : readDocument text = .ok v) :
    v.InRange := by
  obtain ⟨⟨v', r⟩, hvalue, hend⟩ := bind_eq_ok_iff.mp h
  rw [← (readEnd_eq_ok_iff.mp hend).2]
  exact yields_readValue maxDepth hvalue

end Motion.Json
