import Motion.Proofs.Number.Widening

/-! Binary32 numbers by their values. From half a unit below one on narrowing makes one of what is
less than one. -/
namespace Motion.Number
open Float.Model Float.Model.UnpackedFloat

/-- An even number is chosen from a half below it on. -/
theorem roundEven_lt_iff {x : ℚ} {n : ℕ} (hpos : 0 < n) (heven : n % 2 = 0) :
    roundEven x < n ↔ 2 * x < 2 * n - 1 := by
  have hodd : ((2 * n - 1 : ℕ) : ℚ) = 2 * n - 1 := by
    rw [Nat.cast_sub (by omega)]
    push_cast
    rfl
  constructor
  · intro hlt
    by_contra hle
    rw [not_lt] at hle
    have hhalf : 2 * ((2 * n - 1 : ℚ) / 2) = (2 * n - 1 : ℕ) := by
      rw [hodd]
      ring
    have hplace : position ((2 * n - 1 : ℚ) / 2) ≤ position x := position_mono (by linarith)
    rw [position_of_eq hhalf] at hplace
    have hchosen : nearestEven (2 * (2 * n - 1)) = n := by
      unfold nearestEven
      omega
    have hnearest := nearestEven_mono hplace
    rw [hchosen] at hnearest
    exact absurd hlt (not_lt.mpr hnearest)
  · intro hlt
    rw [← hodd] at hlt
    have hfloor : ⌊2 * x⌋₊ < 2 * n - 1 := (Nat.floor_lt' (by omega)).mpr hlt
    have hceil : ⌈2 * x⌉₊ ≤ 2 * n - 1 := Nat.ceil_le.mpr hlt.le
    have hplace : position x ≤ 4 * n - 3 := by
      unfold position
      omega
    have hchosen : nearestEven (4 * n - 3) < n := by
      unfold nearestEven
      omega
    exact lt_of_le_of_lt (nearestEven_mono hplace) hchosen

section
variable {spec : Format}

/-- Just below one the unit is the last place of the mantissa. -/
theorem unitExponent_below_one (hleast : spec.minExponent ≤ -spec.mantissaBits) {x : ℚ}
    (hlow : 1 / 2 ≤ x) (hhigh : x < 1) : unitExponent spec x = -spec.mantissaBits := by
  have hpos : 0 < x := by linarith
  have hlog : Int.log 2 x = -1 := by
    apply le_antisymm
    · apply Int.lt_add_one_iff.mp
      apply (Int.lt_zpow_iff_log_lt (by norm_num) hpos).mp
      simpa using hhigh
    · apply (Int.zpow_le_iff_le_log (by norm_num) hpos).mp
      simpa using hlow
  rw [unitExponent, hlog]
  unfold Format.targetExponent
  omega

theorem roundUnits_two_zpow (hleast : spec.minExponent ≤ -spec.mantissaBits) {e : ℤ}
    (he : -spec.mantissaBits ≤ e) : roundUnits spec (2 ^ e) = 2 ^ e := by
  have hlog : Int.log 2 ((2 : ℚ) ^ e) = e := Int.log_zpow (b := 2) (by norm_num) e
  have hunit : unitExponent spec ((1 : ℕ) * 2 ^ e) ≤ e := by
    rw [Nat.cast_one, one_mul, unitExponent, hlog]
    unfold Format.targetExponent Format.mantissaBits at *
    omega
  have hround := roundUnits_of_unit_le hunit
  rwa [Nat.cast_one, one_mul] at hround

theorem roundUnits_one (hleast : spec.minExponent ≤ -spec.mantissaBits) : roundUnits spec 1 = 1 := by
  have hpower := roundUnits_two_zpow hleast (e := 0) (by omega)
  rwa [zpow_zero] at hpower

theorem roundUnits_half (hleast : spec.minExponent ≤ -spec.mantissaBits) :
    roundUnits spec (1 / 2) = 1 / 2 := by
  have hpower := roundUnits_two_zpow hleast (e := -1) (by unfold Format.mantissaBits; omega)
  rwa [zpow_neg_one, ← one_div] at hpower

theorem roundUnits_below_one (hleast : spec.minExponent ≤ -spec.mantissaBits) {x : ℚ}
    (hlow : 1 / 2 ≤ x) (hhigh : x < 1) :
    roundUnits spec x < 1 ↔ x < 1 - 1 / 2 ^ (spec.mantissaBits + 1) := by
  have hexponent := unitExponent_below_one hleast hlow hhigh
  have hpos : (0 : ℚ) < 2 ^ spec.mantissaBits := by positivity
  have hcast : ((2 ^ spec.mantissaBits : ℕ) : ℚ) = 2 ^ spec.mantissaBits := by
    push_cast
    rfl
  have hround : roundUnits spec x =
      roundEven (x * 2 ^ spec.mantissaBits) / 2 ^ spec.mantissaBits := by
    rw [roundUnits, hexponent, zpow_neg, zpow_natCast, div_inv_eq_mul]
    rfl
  have heven : 2 ^ spec.mantissaBits % 2 = 0 := by
    rw [Format.mantissaBits, pow_add, pow_one]
    omega
  calc roundUnits spec x < 1
      ↔ (roundEven (x * 2 ^ spec.mantissaBits) : ℚ) < (2 ^ spec.mantissaBits : ℕ) := by
        rw [hround, div_lt_one hpos, hcast]
    _ ↔ roundEven (x * 2 ^ spec.mantissaBits) < 2 ^ spec.mantissaBits := Nat.cast_lt
    _ ↔ 2 * (x * 2 ^ spec.mantissaBits) < 2 * (2 ^ spec.mantissaBits : ℕ) - 1 :=
        roundEven_lt_iff (Nat.two_pow_pos _) heven
    _ ↔ x < 1 - 1 / 2 ^ (spec.mantissaBits + 1) := by
        rw [hcast, lt_sub_comm (a := x), pow_succ, div_lt_iff₀ (by positivity)]
        constructor
        · intro h
          linarith
        · intro h
          linarith

/-- What is not negative rounds to less than one while it is more than half a unit below one. -/
theorem rounded_lt_one_iff (hleast : spec.minExponent ≤ -spec.mantissaBits) {x : ℚ} (hx : 0 ≤ x) :
    rounded spec x < 1 ↔ x < 1 - 1 / 2 ^ (spec.mantissaBits + 1) := by
  have hpos : (0 : ℚ) < 1 / 2 ^ (spec.mantissaBits + 1) := by positivity
  have hsmall : (1 : ℚ) / 2 ^ (spec.mantissaBits + 1) ≤ 1 / 2 := by
    apply div_le_div_of_nonneg_left (by norm_num) (by norm_num)
    calc (2 : ℚ) = 2 ^ 1 := (pow_one 2).symm
      _ ≤ 2 ^ (spec.mantissaBits + 1) := pow_le_pow_right₀ (by norm_num) (by omega)
  rw [rounded_of_nonneg hx]
  rcases lt_or_ge x (1 / 2) with hlow | hlow
  · have hround : roundUnits spec x ≤ 1 / 2 :=
      (roundUnits_mono spec hx hlow.le).trans_eq (roundUnits_half hleast)
    have hleft : roundUnits spec x < 1 := by linarith
    have hright : x < 1 - 1 / 2 ^ (spec.mantissaBits + 1) := by linarith
    exact iff_of_true hleft hright
  · rcases lt_or_ge x 1 with hhigh | hhigh
    · exact roundUnits_below_one hleast hlow hhigh
    · have hround : 1 ≤ roundUnits spec x :=
        (roundUnits_one hleast).ge.trans (roundUnits_mono spec zero_le_one hhigh)
      have hright : ¬x < 1 - 1 / 2 ^ (spec.mantissaBits + 1) := by linarith
      exact iff_of_false (not_lt.mpr hround) hright

end

/-- The value of a number, where NaN has none and counts as 0. -/
def singleValue (x : Float32) : ℚ := value .binary32 x.toModel.unpack

theorem single_le_iff_value {x y : Float32} :
    x ≤ y ↔ x.isNaN = false ∧ y.isNaN = false ∧ singleValue x ≤ singleValue y := by
  change decide (x.toModel ≤ y.toModel) = true ↔ _
  rw [decide_eq_true_iff]
  exact le_iff_value (isStored_toModel32 x) (isStored_toModel32 y)

theorem single_lt_iff_value {x y : Float32} (hx : x.isNaN = false) (hy : y.isNaN = false) :
    x < y ↔ singleValue x < singleValue y := by
  change decide (x.toModel < y.toModel) = true ↔ _
  rw [decide_eq_true_iff]
  change UnpackedFloat.lt x.toModel.unpack y.toModel.unpack = true ↔ _
  rw [UnpackedFloat.lt, compare_eq_value (isStored_toModel32 x) (isStored_toModel32 y) hx hy]
  simp only [beq_iff_eq, Option.some.injEq]
  exact compare_lt_iff_lt

theorem singleValue_one : singleValue 1.0 = 1 := by
  have hunpack : (1.0 : Float32).toModel.unpack = .finite .positive (2 ^ 23) (-23) (by decide) := rfl
  rw [singleValue, hunpack, value, signed]
  norm_num

theorem between_of_unit {x : ℚ} (hlow : 0 ≤ x) (hhigh : x ≤ 1) (spec : Format) :
    -bound spec < x ∧ x < bound spec := by
  have hbound : (1 : ℚ) < bound spec := by
    apply one_lt_zpow₀ (by norm_num)
    exact_mod_cast Nat.two_pow_pos _
  constructor
  · linarith
  · linarith

/-- A number from zero to one is rounded once, to a number from zero to one. -/
theorem singleValue_narrow {x : Float} (hnan : x.isNaN = false) (hlow : 0 ≤ valueOf x)
    (hhigh : valueOf x ≤ 1) :
    (narrow x).isNaN = false ∧ singleValue (narrow x) = rounded .binary32 (valueOf x) := by
  have hin := between_of_unit hlow hhigh .binary64
  have hinf : x.toModel.unpack.isInf = false := isInf_of_between hin.1 hin.2
  have hround : Represents .binary32 (roundTo .binary32 x.toModel.unpack)
      (rounded .binary32 (valueOf x)) := represents_roundTo hnan hinf
  have hone : rounded .binary32 1 = 1 :=
    (rounded_of_nonneg zero_le_one).trans (roundUnits_one (by decide))
  have hout := between_of_unit (rounded_nonneg .binary32 hlow)
    ((rounded_mono hhigh).trans_eq hone) .binary32
  exact value_stored_of_between (by decide) hround hout.1 hout.2

theorem narrow_zero : narrow 0.0 = 0.0 := rfl

theorem narrow_one : narrow 1.0 = 1.0 := rfl

theorem narrow_nonneg {x : Float} (h : 0.0 ≤ x) : 0.0 ≤ narrow x := by
  have hmono := narrow_le_narrow h
  rwa [narrow_zero] at hmono

theorem narrow_le_one {x : Float} (h : x ≤ 1.0) : narrow x ≤ 1.0 := by
  have hmono := narrow_le_narrow h
  rwa [narrow_one] at hmono

/-- The least number that is less than one and becomes one when it is narrowed: half a unit of
binary32 is missing. -/
def almostOne : Float := 33554431.0 / 33554432.0

theorem valueOf_almostOne : valueOf almostOne = 1 - 1 / 2 ^ 25 := by
  have hunpack : almostOne.toModel.unpack =
      .finite .positive (2 ^ 53 - 2 ^ 28) (-53) (by decide) := rfl
  rw [valueOf, hunpack, value, signed]
  norm_num

theorem narrow_lt_one_iff {x : Float} (hlow : 0.0 ≤ x) (hhigh : x ≤ 1.0) :
    narrow x < 1.0 ↔ x < almostOne := by
  obtain ⟨-, hnan, hlow⟩ := le_iff_valueOf.mp hlow
  obtain ⟨-, -, hhigh⟩ := le_iff_valueOf.mp hhigh
  rw [valueOf_zero] at hlow
  rw [valueOf_one] at hhigh
  obtain ⟨hnarrow, hvalue⟩ := singleValue_narrow hnan hlow hhigh
  rw [single_lt_iff_value hnarrow rfl, lt_iff_valueOf hnan rfl, hvalue, singleValue_one,
    valueOf_almostOne]
  exact rounded_lt_one_iff (by decide) hlow

end Motion.Number
