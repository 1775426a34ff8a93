import Motion.Proofs.Number.Monotone

/-! Natural numbers below 2^53 are binary64 numbers, and in the same order. -/
namespace Motion.Number
open Float.Model Float.Model.UnpackedFloat

/-- What is rounded to a number within the bounds is this number once it is stored. -/
theorem value_stored_of_between {spec : Format} (hr : 1 < halfRange spec) {u : UnpackedFloat} {x : ℚ}
    (h : Represents spec u x) (hlow : -bound spec < x) (hhigh : x < bound spec) :
    (stored spec u).isNaN = false ∧ value spec (stored spec u) = x := by
  obtain ⟨hnumber, hvalue⟩ := value_stored hr h.canonical h.number
  rw [h.value_eq, limited_of_between hlow.le hhigh.le] at hvalue
  exact ⟨hnumber, hvalue⟩

theorem isInf_of_between {spec : Format} {u : UnpackedFloat} (hlow : -bound spec < value spec u)
    (hhigh : value spec u < bound spec) : u.isInf = false := by
  cases u with
  | infinity s =>
    cases s with
    | negative => exact absurd hlow (lt_irrefl _)
    | positive => exact absurd hhigh (lt_irrefl _)
  | _ => rfl

theorem represents_mul_one {u : UnpackedFloat} (hu : IsCanonical .binary64 u)
    (hnu : u.isNaN = false) (hiu : u.isInf = false) :
    Represents .binary64
      (UnpackedFloat.mul .binary64 u (.finite .positive (2 ^ 52) (-52) (by decide)))
      (rounded .binary64 (value .binary64 u)) := by
  cases u with
  | notANumber => cases hnu
  | infinity s => cases hiu
  | zero s => exact represents_self (u := .zero (s * .positive)) trivial rfl rfl
  | finite s m e hm =>
    have hsign : s * .positive = s := by cases s <;> rfl
    have hpos : (0 : ℚ) < (m * 2 ^ 52 : ℕ) := Nat.cast_pos.mpr (Nat.mul_pos hm (by decide))
    have hvalue : ((m * 2 ^ 52 : ℕ) : ℚ) * 2 ^ (e + -52) = m * 2 ^ e := by
      rw [zpow_add₀ (by norm_num)]
      push_cast
      norm_num
      ring
    have hunit : e + -52 ≤ unitExponent .binary64 (((m * 2 ^ 52 : ℕ) : ℚ) * 2 ^ (e + -52)) := by
      rw [hvalue, show unitExponent .binary64 (m * 2 ^ e) = e from hu]
      omega
    have hround := represents_roundWithAccuracy s hpos (place_exact (m * 2 ^ 52)) hunit
    rw [hvalue] at hround
    rw [UnpackedFloat.mul, hsign]
    exact hround

theorem valueOf_mul_one {x : Float} (hnan : x.isNaN = false) (hlow : -bound .binary64 < valueOf x)
    (hhigh : valueOf x < bound .binary64) :
    (x * 1.0).isNaN = false ∧ valueOf (x * 1.0) = valueOf x := by
  have hcanonical := isCanonical_of_isStored (isStored_toModel x)
  have hinf := isInf_of_between hlow hhigh
  have hself : valueOf x = rounded .binary64 (valueOf x) :=
    (represents_self hcanonical hnan hinf).value_eq
  have hproduct := represents_mul_one hcanonical hnan hinf
  rw [show value .binary64 x.toModel.unpack = valueOf x from rfl, ← hself] at hproduct
  exact value_stored_of_between one_lt_halfRange_binary64 hproduct hlow hhigh

theorem rounded_natCast {n : ℕ} (h : n < 2 ^ 53) : rounded .binary64 n = n := by
  rw [rounded_of_nonneg (Nat.cast_nonneg n)]
  rcases Nat.eq_zero_or_pos n with rfl | hn
  · rw [Nat.cast_zero, roundUnits_zero]
  · have hlog : n.log2 < 53 := (Nat.log2_lt (Nat.ne_of_gt hn)).mpr h
    have hunit : unitExponent .binary64 (n * 2 ^ (0 : ℤ)) ≤ 0 := by
      rw [unitExponent_magnitude hn]
      change max ((n.log2 : ℤ) + 1 + 0 - 53) (-1074) ≤ 0
      omega
    have hround := roundUnits_of_unit_le hunit
    rwa [zpow_zero, mul_one] at hround

theorem natCast_between {n : ℕ} (h : n < 2 ^ 53) :
    -bound .binary64 < (n : ℚ) ∧ (n : ℚ) < bound .binary64 := by
  have hbound := bound_pos .binary64
  have hnonneg : (0 : ℚ) ≤ n := Nat.cast_nonneg n
  have hlt : (n : ℚ) < bound .binary64 :=
    calc (n : ℚ) < 2 ^ (53 : ℤ) := by exact_mod_cast h
      _ ≤ bound .binary64 := zpow_le_zpow_right₀ (by norm_num) (by decide)
  exact ⟨by linarith, hlt⟩

theorem valueOf_toFloat {n : ℕ} (h : n < 2 ^ 53) :
    n.toUInt64.toFloat.isNaN = false ∧ valueOf n.toUInt64.toFloat = n := by
  have hword : n.toUInt64.toNat = n := UInt64.toNat_ofNat_of_lt' (Nat.lt_trans h (by decide))
  have hrounded : Represents .binary64 (UnpackedFloat.ofNat .binary64 n)
      (rounded .binary64 ((n : ℤ) * 2 ^ (0 : ℤ))) := represents_normalize n 0 .positive
  rw [Int.cast_natCast, zpow_zero, mul_one, rounded_natCast h] at hrounded
  have hunpack : n.toUInt64.toFloat.toModel.unpack =
      stored .binary64 (UnpackedFloat.ofNat .binary64 n) := by
    change stored .binary64 (UnpackedFloat.ofNat .binary64 n.toUInt64.toNat) = _
    rw [hword]
  obtain ⟨hlow, hhigh⟩ := natCast_between h
  rw [valueOf, hunpack]
  change n.toUInt64.toFloat.toModel.unpack.isNaN = false ∧ _
  rw [hunpack]
  exact value_stored_of_between one_lt_halfRange_binary64 hrounded hlow hhigh

/-- A natural number is the product of itself and one. -/
theorem ofNat_eq_mul {n : ℕ} (h : n < 2 ^ 53) : Float.ofNat n = n.toUInt64.toFloat * 1.0 := by
  have hpower : n < 2 ^ 53 ∧ 0 ≤ 22 := ⟨h, by decide⟩
  change Float.ofScientific n false 0 = _
  rw [Float.ofScientific, dif_pos hpower]
  rfl

theorem valueOf_ofNat {n : ℕ} (h : n < 2 ^ 53) :
    (Float.ofNat n).isNaN = false ∧ valueOf (Float.ofNat n) = n := by
  obtain ⟨hnan, hvalue⟩ := valueOf_toFloat h
  obtain ⟨hlow, hhigh⟩ := natCast_between h
  rw [← hvalue] at hlow hhigh
  obtain ⟨hproduct, heq⟩ := valueOf_mul_one hnan hlow hhigh
  rw [ofNat_eq_mul h]
  exact ⟨hproduct, heq.trans hvalue⟩

theorem ofNat_lt_ofNat {m n : ℕ} (h : m < n) (hn : n < 2 ^ 53) :
    Float.ofNat m < Float.ofNat n := by
  obtain ⟨hnanm, hm⟩ := valueOf_ofNat (h.trans hn)
  obtain ⟨hnann, hn⟩ := valueOf_ofNat hn
  rw [lt_iff_valueOf hnanm hnann, hm, hn]
  exact Nat.cast_lt.mpr h

theorem zero_le_ofNat {n : ℕ} (hn : n < 2 ^ 53) : 0.0 ≤ Float.ofNat n := by
  obtain ⟨hnan, hvalue⟩ := valueOf_ofNat hn
  rw [le_iff_valueOf, valueOf_zero, hvalue]
  exact ⟨rfl, hnan, Nat.cast_nonneg n⟩

end Motion.Number
