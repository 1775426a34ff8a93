import Motion.Proofs.Number.Order

/-! Rounding as a function on rational numbers, to multiples of a unit that depends on the first
digit. -/
namespace Motion.Number
open Float.Model

/-- Where a number lies among the multiples of a half: even places are the multiples themselves, and
an odd place is the gap behind the even one before it. -/
def position (x : ℚ) : ℕ := ⌊2 * x⌋₊ + ⌈2 * x⌉₊

theorem position_mono {x y : ℚ} (h : x ≤ y) : position x ≤ position y := by
  have hdouble : 2 * x ≤ 2 * y := by linarith
  exact Nat.add_le_add (Nat.floor_mono hdouble) (Nat.ceil_mono hdouble)

theorem position_of_eq {x : ℚ} {k : ℕ} (h : 2 * x = k) : position x = 2 * k := by
  rw [position, h, Nat.floor_natCast, Nat.ceil_natCast]
  omega

theorem position_of_between {x : ℚ} {k : ℕ} (hlow : k < 2 * x) (hhigh : 2 * x < k + 1) :
    position x = 2 * k + 1 := by
  have hfloor : ⌊2 * x⌋₊ = k := by
    apply (Nat.floor_eq_iff (le_trans (Nat.cast_nonneg k) hlow.le)).mpr
    exact ⟨hlow.le, hhigh⟩
  have hceil : ⌈2 * x⌉₊ = k + 1 := by
    apply (Nat.ceil_eq_iff (Nat.succ_ne_zero k)).mpr
    push_cast
    exact ⟨by simpa using hlow, hhigh.le⟩
  rw [position, hfloor, hceil]
  omega

theorem position_natCast (n : ℕ) : position n = 4 * n := by
  have hdouble : (2 * n : ℚ) = ((2 * n : ℕ) : ℚ) := by push_cast; rfl
  rw [position_of_eq hdouble]
  omega

/-- A number is at a multiple of a half or in the gap between two of them. -/
theorem position_cases {x : ℚ} (hx : 0 ≤ x) :
    ∃ k : ℕ, 2 * x = k ∨ ((k : ℚ) < 2 * x ∧ 2 * x < k + 1) := by
  have hdouble : 0 ≤ 2 * x := by linarith
  refine ⟨⌊2 * x⌋₊, ?_⟩
  rcases (Nat.floor_le hdouble).eq_or_lt with heq | hlt
  · exact Or.inl heq.symm
  · exact Or.inr ⟨hlt, Nat.lt_floor_add_one (2 * x)⟩

theorem position_div_four {x : ℚ} (hx : 0 ≤ x) : position x / 4 = ⌊x⌋₊ := by
  have hfloor : ⌊x⌋₊ = ⌊2 * x⌋₊ / 2 := by
    rw [← Nat.floor_div_ofNat]
    congr 1
    ring
  obtain ⟨k, heq | ⟨hlow, hhigh⟩⟩ := position_cases hx
  · rw [position_of_eq heq, hfloor, heq, Nat.floor_natCast]
    omega
  · have hdouble : ⌊2 * x⌋₊ = k :=
      (Nat.floor_eq_iff (le_trans (Nat.cast_nonneg k) hlow.le)).mpr ⟨hlow.le, hhigh⟩
    rw [position_of_between hlow hhigh, hfloor, hdouble]
    omega

/-- Half a number lies at half the places, where a gap stays a gap. -/
theorem position_half {x : ℚ} (hx : 0 ≤ x) :
    position (x / 2) = position x / 4 * 2 + min (position x % 4) 1 := by
  have hsame : 2 * (x / 2) = x := by ring
  obtain ⟨k, heq | ⟨hlow, hhigh⟩⟩ := position_cases hx
  · rw [position_of_eq heq]
    rcases Nat.even_or_odd' k with ⟨j, rfl | rfl⟩
    · have hj : 2 * (x / 2) = j := by
        push_cast at heq
        linarith
      rw [position_of_eq hj]
      omega
    · have hj : (j : ℚ) < 2 * (x / 2) ∧ 2 * (x / 2) < j + 1 := by
        push_cast at heq
        constructor <;> linarith
      rw [position_of_between hj.1 hj.2]
      omega
  · rw [position_of_between hlow hhigh]
    rcases Nat.even_or_odd' k with ⟨j, rfl | rfl⟩
    · push_cast at hlow hhigh
      have hj : (j : ℚ) < 2 * (x / 2) ∧ 2 * (x / 2) < j + 1 := by
        constructor <;> linarith
      rw [position_of_between hj.1 hj.2]
      omega
    · push_cast at hlow hhigh
      have hj : (j : ℚ) < 2 * (x / 2) ∧ 2 * (x / 2) < j + 1 := by
        constructor <;> linarith
      rw [position_of_between hj.1 hj.2]
      omega

/-- The whole number that is chosen for a place: the nearest one, and of two the even one. -/
def nearestEven (place : ℕ) : ℕ := (place + 1 + place / 4 % 2) / 4

theorem nearestEven_mono {j k : ℕ} (h : j ≤ k) : nearestEven j ≤ nearestEven k := by
  unfold nearestEven
  rcases Nat.lt_or_ge (j / 4) (k / 4) with hlt | hge
  · omega
  · have heq : j / 4 = k / 4 := by omega
    rw [heq]
    omega

/-- The nearest whole number to a number that is not negative. -/
def roundEven (x : ℚ) : ℕ := nearestEven (position x)

theorem roundEven_mono {x y : ℚ} (h : x ≤ y) : roundEven x ≤ roundEven y :=
  nearestEven_mono (position_mono h)

theorem roundEven_natCast (n : ℕ) : roundEven n = n := by
  rw [roundEven, position_natCast, nearestEven]
  omega

theorem roundEven_le {x : ℚ} {n : ℕ} (h : x ≤ n) : roundEven x ≤ n := by
  have hmono := roundEven_mono h
  rwa [roundEven_natCast] at hmono

theorem le_roundEven {x : ℚ} {n : ℕ} (h : (n : ℚ) ≤ x) : n ≤ roundEven x := by
  have hmono := roundEven_mono h
  rwa [roundEven_natCast] at hmono

variable (spec : Format)

/-- The exponent of the unit that a number is rounded to. -/
def unitExponent (x : ℚ) : ℤ := spec.targetExponent (Int.log 2 x + 1)

/-- A number that is not negative, rounded to a multiple of its unit. -/
def roundUnits (x : ℚ) : ℚ :=
  roundEven (x / 2 ^ unitExponent spec x) * 2 ^ unitExponent spec x

/-- A number rounded to a format that has room for any number of digits before the point. -/
def rounded (x : ℚ) : ℚ := if 0 ≤ x then roundUnits spec x else -roundUnits spec (-x)

variable {spec}

theorem two_zpow_pos (e : ℤ) : (0 : ℚ) < 2 ^ e := zpow_pos (by norm_num) e

/-- A power of two only moves the first digit. -/
theorem log_mul_zpow {x : ℚ} (hx : 0 < x) (e : ℤ) : Int.log 2 (x * 2 ^ e) = Int.log 2 x + e := by
  have hlow : (2 : ℚ) ^ Int.log 2 x ≤ x := Int.zpow_log_le_self (by norm_num) hx
  have hhigh : x < (2 : ℚ) ^ (Int.log 2 x + 1) := Int.lt_zpow_succ_log_self (by norm_num) x
  have hpos : 0 < x * 2 ^ e := mul_pos hx (two_zpow_pos e)
  apply le_antisymm
  · apply Int.lt_add_one_iff.mp
    apply (Int.lt_zpow_iff_log_lt (by norm_num) hpos).mp
    calc x * 2 ^ e < 2 ^ (Int.log 2 x + 1) * 2 ^ e := mul_lt_mul_of_pos_right hhigh (two_zpow_pos e)
      _ = ((2 : ℕ) : ℚ) ^ (Int.log 2 x + e + 1) := by
          rw [← zpow_add₀ (by norm_num)]
          push_cast
          congr 1
          ring
  · apply (Int.zpow_le_iff_le_log (by norm_num) hpos).mp
    calc ((2 : ℕ) : ℚ) ^ (Int.log 2 x + e) = 2 ^ Int.log 2 x * 2 ^ e := by
          rw [← zpow_add₀ (by norm_num)]
          push_cast
          rfl
      _ ≤ x * 2 ^ e := mul_le_mul_of_nonneg_right hlow (two_zpow_pos e).le

theorem minExponent_le_unitExponent (x : ℚ) : spec.minExponent ≤ unitExponent spec x :=
  le_max_right _ _

theorem unitExponent_mono (spec : Format) {x y : ℚ} (hx : 0 < x) (h : x ≤ y) :
    unitExponent spec x ≤ unitExponent spec y := by
  have hlog : Int.log 2 x ≤ Int.log 2 y := Int.log_mono_right hx h
  unfold unitExponent Format.targetExponent
  omega

/-- A number has no more units than the mantissa has digits for. -/
theorem div_unit_lt {x : ℚ} : x / 2 ^ unitExponent spec x < ((2 ^ spec.mantissaBits : ℕ) : ℚ) := by
  have hlog : x < 2 ^ (Int.log 2 x + 1) := Int.lt_zpow_succ_log_self (by norm_num) x
  have hexp : Int.log 2 x + 1 ≤ spec.mantissaBits + unitExponent spec x := by
    unfold unitExponent Format.targetExponent
    omega
  have hle : (2 : ℚ) ^ (Int.log 2 x + 1) ≤ 2 ^ (spec.mantissaBits + unitExponent spec x : ℤ) :=
    zpow_le_zpow_right₀ (by norm_num) hexp
  rw [div_lt_iff₀ (two_zpow_pos _)]
  calc x < 2 ^ (Int.log 2 x + 1) := hlog
    _ ≤ 2 ^ (spec.mantissaBits + unitExponent spec x : ℤ) := hle
    _ = ((2 ^ spec.mantissaBits : ℕ) : ℚ) * 2 ^ unitExponent spec x := by
        rw [zpow_add₀ (by norm_num)]
        push_cast
        rw [zpow_natCast]

/-- Above the least unit a number fills the mantissa. -/
theorem le_div_unit {x : ℚ} (hx : 0 < x) (h : spec.minExponent < unitExponent spec x) :
    ((2 ^ spec.mantissaBitsWithoutImplicit : ℕ) : ℚ) ≤ x / 2 ^ unitExponent spec x := by
  have hlog : (2 : ℚ) ^ Int.log 2 x ≤ x := Int.zpow_log_le_self (by norm_num) hx
  have hexp : Int.log 2 x = spec.mantissaBitsWithoutImplicit + unitExponent spec x := by
    unfold unitExponent Format.targetExponent Format.mantissaBits at *
    omega
  rw [le_div_iff₀ (two_zpow_pos _)]
  calc ((2 ^ spec.mantissaBitsWithoutImplicit : ℕ) : ℚ) * 2 ^ unitExponent spec x
      = 2 ^ (spec.mantissaBitsWithoutImplicit + unitExponent spec x : ℤ) := by
        rw [zpow_add₀ (by norm_num)]
        push_cast
        rw [zpow_natCast]
    _ = 2 ^ Int.log 2 x := by rw [hexp]
    _ ≤ x := hlog

theorem roundUnits_nonneg (spec : Format) (x : ℚ) : 0 ≤ roundUnits spec x :=
  mul_nonneg (Nat.cast_nonneg _) (two_zpow_pos _).le

theorem roundUnits_zero : roundUnits spec 0 = 0 := by
  have hzero : roundEven 0 = 0 := roundEven_natCast 0
  rw [roundUnits, zero_div, hzero, Nat.cast_zero, zero_mul]

/-- The most that the smaller unit can reach is the least that the larger one begins with. -/
theorem roundUnits_le_of_unit_lt {x y : ℚ} (hy : 0 < y)
    (hunit : unitExponent spec x < unitExponent spec y) : roundUnits spec x ≤ roundUnits spec y := by
  have hleast : spec.minExponent < unitExponent spec y :=
    lt_of_le_of_lt (minExponent_le_unitExponent x) hunit
  have hbits : (2 ^ spec.mantissaBits : ℕ) = 2 * 2 ^ spec.mantissaBitsWithoutImplicit := by
    rw [Format.mantissaBits, pow_add, pow_one]
  have hlow : (roundEven (x / 2 ^ unitExponent spec x) : ℚ) ≤ ((2 ^ spec.mantissaBits : ℕ) : ℚ) :=
    Nat.cast_le.mpr (roundEven_le div_unit_lt.le)
  have hhigh : ((2 ^ spec.mantissaBitsWithoutImplicit : ℕ) : ℚ) ≤
      roundEven (y / 2 ^ unitExponent spec y) :=
    Nat.cast_le.mpr (le_roundEven (le_div_unit hy hleast))
  have hdouble : (2 : ℚ) * 2 ^ unitExponent spec x ≤ 2 ^ unitExponent spec y := by
    have hstep : (2 : ℚ) ^ (unitExponent spec x + 1) ≤ 2 ^ unitExponent spec y :=
      zpow_le_zpow_right₀ (by norm_num) hunit
    rwa [zpow_add_one₀ (by norm_num), mul_comm] at hstep
  calc roundUnits spec x
      ≤ ((2 ^ spec.mantissaBits : ℕ) : ℚ) * 2 ^ unitExponent spec x :=
        mul_le_mul_of_nonneg_right hlow (two_zpow_pos _).le
    _ = ((2 ^ spec.mantissaBitsWithoutImplicit : ℕ) : ℚ) * (2 * 2 ^ unitExponent spec x) := by
        rw [hbits]
        push_cast
        ring
    _ ≤ ((2 ^ spec.mantissaBitsWithoutImplicit : ℕ) : ℚ) * 2 ^ unitExponent spec y :=
        mul_le_mul_of_nonneg_left hdouble (Nat.cast_nonneg _)
    _ ≤ roundUnits spec y := mul_le_mul_of_nonneg_right hhigh (two_zpow_pos _).le

theorem roundUnits_mono (spec : Format) {x y : ℚ} (hx : 0 ≤ x) (h : x ≤ y) :
    roundUnits spec x ≤ roundUnits spec y := by
  rcases hx.eq_or_lt with rfl | hpos
  · rw [roundUnits_zero]
    exact roundUnits_nonneg spec y
  · rcases (unitExponent_mono spec hpos h).eq_or_lt with hunit | hunit
    · have hunits : x / 2 ^ unitExponent spec x ≤ y / 2 ^ unitExponent spec y := by
        rw [hunit]
        exact div_le_div_of_nonneg_right h (two_zpow_pos _).le
      unfold roundUnits
      rw [← hunit] at hunits ⊢
      apply mul_le_mul_of_nonneg_right _ (two_zpow_pos _).le
      exact Nat.cast_le.mpr (roundEven_mono hunits)
    · exact roundUnits_le_of_unit_lt (lt_of_lt_of_le hpos h) hunit

theorem rounded_of_nonneg {x : ℚ} (h : 0 ≤ x) : rounded spec x = roundUnits spec x := if_pos h

theorem rounded_neg (x : ℚ) : rounded spec (-x) = -rounded spec x := by
  unfold rounded
  rcases lt_trichotomy x 0 with hneg | rfl | hpos
  · have hx : ¬0 ≤ x := not_le.mpr hneg
    have hx' : 0 ≤ -x := by linarith
    rw [if_neg hx, if_pos hx', neg_neg]
  · simp [roundUnits_zero]
  · have hx : 0 ≤ x := hpos.le
    have hx' : ¬0 ≤ -x := by
      rw [not_le]
      linarith
    rw [if_pos hx, if_neg hx', neg_neg]

theorem rounded_nonneg (spec : Format) {x : ℚ} (h : 0 ≤ x) : 0 ≤ rounded spec x := by
  rw [rounded_of_nonneg h]
  exact roundUnits_nonneg spec x

/-- Rounding keeps the order of numbers. -/
theorem rounded_mono {x y : ℚ} (h : x ≤ y) : rounded spec x ≤ rounded spec y := by
  rcases le_or_gt 0 x with hx | hx
  · rw [rounded_of_nonneg hx, rounded_of_nonneg (hx.trans h)]
    exact roundUnits_mono spec hx h
  · have hnegx : rounded spec x = -roundUnits spec (-x) := if_neg (not_le.mpr hx)
    rcases le_or_gt 0 y with hy | hy
    · have hle := rounded_nonneg spec hy
      have hge := roundUnits_nonneg spec (-x)
      linarith
    · have hnegy : rounded spec y = -roundUnits spec (-y) := if_neg (not_le.mpr hy)
      have hle : -y ≤ -x := neg_le_neg h
      have hnonneg : 0 ≤ -y := by linarith
      have hmono := roundUnits_mono spec hnonneg hle
      linarith

end Motion.Number
