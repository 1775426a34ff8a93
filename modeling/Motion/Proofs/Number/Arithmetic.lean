import Motion.Proofs.Number.Value

/-! Differences, quotients and narrowing as rounded rational operations. -/
namespace Motion.Number
open Float.Model Float.Model.UnpackedFloat

variable {spec : Format}

/-- The place of an extended mantissa among the multiples of a half. -/
def place (em : ExtendedMantissa) : ℕ :=
  4 * em.mantissa + 2 * em.roundBit.toNat + em.stickyBit.toNat

theorem roundedMantissa_eq (em : ExtendedMantissa) : em.roundedMantissa = nearestEven (place em) := by
  obtain ⟨m, r, s⟩ := em
  have hquarter : place ⟨m, r, s⟩ / 4 = m := by
    cases r <;> cases s <;> simp only [place, Bool.toNat_true, Bool.toNat_false] <;> omega
  rw [nearestEven, hquarter]
  cases r <;> cases s <;>
    simp only [ExtendedMantissa.roundedMantissa, ExtendedMantissa.accuracy,
      Accuracy.roundToNearestEven, place, Bool.toNat_true, Bool.toNat_false] <;> omega

theorem place_shiftRightOne (em : ExtendedMantissa) :
    place em.shiftRightOne = place em / 4 * 2 + min (place em % 4) 1 := by
  obtain ⟨m, r, s⟩ := em
  unfold ExtendedMantissa.shiftRightOne place
  rcases Nat.mod_two_eq_zero_or_one m with hm | hm <;> cases r <;> cases s <;>
    simp [hm]
  all_goals omega

/-- Every shift halves the number that an extended mantissa stands for. -/
theorem place_shiftRight {em : ExtendedMantissa} {x : ℚ} (hx : 0 ≤ x) (h : place em = position x)
    (n : ℕ) : place (em >>> n) = position (x / 2 ^ n) := by
  change place (n.repeat ExtendedMantissa.shiftRightOne em) = _
  induction n with
  | zero => rw [pow_zero, div_one]; exact h
  | succ n ih =>
    have hnonneg : 0 ≤ x / 2 ^ n := by positivity
    rw [Nat.repeat, place_shiftRightOne, ih, ← position_half hnonneg, pow_succ, div_div]

theorem place_exact (m : ℕ) :
    place (ExtendedMantissa.ofMantissaAndAccuracy m .exact) = position m := by
  rw [position_natCast]
  rfl

theorem mantissa_eq_floor {em : ExtendedMantissa} {x : ℚ} (hx : 0 ≤ x) (h : place em = position x) :
    em.mantissa = ⌊x⌋₊ := by
  obtain ⟨m, r, s⟩ := em
  rw [← position_div_four hx, ← h]
  cases r <;> cases s <;> simp only [place, Bool.toNat_true, Bool.toNat_false] <;> omega

/-- What is left over by a division says where the quotient lies behind its whole part. -/
theorem place_fraction (n : ℕ) {d : ℕ} (hd : 0 < d) :
    place (ExtendedMantissa.ofMantissaAndAccuracy (n / d) (accuracyOfFraction (n % d) d)) =
      position (n / d) := by
  have hdpos : (0 : ℚ) < d := Nat.cast_pos.mpr hd
  have hsplit : (n : ℚ) = d * (n / d : ℕ) + (n % d : ℕ) := by
    exact_mod_cast (Nat.div_add_mod n d).symm
  have hdouble : 2 * ((n : ℚ) / d) = 2 * (n / d : ℕ) + 2 * (n % d : ℕ) / d := by
    rw [hsplit]
    field_simp
  have hrest : ((n % d : ℕ) : ℚ) < d := Nat.cast_lt.mpr (Nat.mod_lt n hd)
  unfold accuracyOfFraction
  by_cases hzero : n % d = 0
  · rw [if_pos hzero, place_exact]
    congr 1
    rw [hzero, Nat.cast_zero, add_zero] at hsplit
    rw [eq_div_iff hdpos.ne', hsplit, mul_comm]
  · have hpos : (0 : ℚ) < (n % d : ℕ) := Nat.cast_pos.mpr (Nat.pos_of_ne_zero hzero)
    rw [if_neg hzero]
    rcases lt_trichotomy (2 * (n % d)) d with hlt | heq | hgt
    · have hbelow : 2 * ((n % d : ℕ) : ℚ) / d < 1 := by
        rw [div_lt_one hdpos]
        exact_mod_cast hlt
      have habove : 0 < 2 * ((n % d : ℕ) : ℚ) / d := by positivity
      have hgap : position ((n : ℚ) / d) = 2 * (2 * (n / d)) + 1 := by
        apply position_of_between
        · push_cast
          linarith
        · push_cast
          linarith
      rw [hgap, compare_lt_iff_lt.mpr hlt]
      simp only [ExtendedMantissa.ofMantissaAndAccuracy, place, Bool.toNat_true, Bool.toNat_false]
      omega
    · have hhalf : 2 * ((n % d : ℕ) : ℚ) / d = 1 := by
        rw [div_eq_one_iff_eq hdpos.ne']
        exact_mod_cast heq
      have hmiddle : position ((n : ℚ) / d) = 2 * (2 * (n / d) + 1) := by
        apply position_of_eq
        push_cast
        linarith
      rw [hmiddle, compare_eq_iff_eq.mpr heq]
      simp only [ExtendedMantissa.ofMantissaAndAccuracy, place, Bool.toNat_true, Bool.toNat_false]
      omega
    · have habove : 1 < 2 * ((n % d : ℕ) : ℚ) / d := by
        rw [one_lt_div hdpos]
        exact_mod_cast hgt
      have hbelow : 2 * ((n % d : ℕ) : ℚ) / d < 2 := by
        rw [div_lt_iff₀ hdpos]
        linarith
      have hgap : position ((n : ℚ) / d) = 2 * (2 * (n / d) + 1) + 1 := by
        apply position_of_between
        · push_cast
          linarith
        · push_cast
          linarith
      rw [hgap, compare_gt_iff_gt.mpr hgt]
      simp only [ExtendedMantissa.ofMantissaAndAccuracy, place, Bool.toNat_true]
      omega

/-- A result of rounding, with its value. -/
structure Represents (spec : Format) (u : UnpackedFloat) (x : ℚ) : Prop where
  canonical : IsCanonical spec u
  number : u.isNaN = false
  value_eq : value spec u = x

/-- The whole part of a number decides its unit, as long as it has a digit for each place of the
mantissa or stands below the least unit. -/
theorem targetExponent_floor {x : ℚ} (hx : 0 < x) {e : ℤ} (he : e ≤ unitExponent spec (x * 2 ^ e)) :
    spec.targetExponent (totalExponent ⌊x⌋₊ e) = unitExponent spec (x * 2 ^ e) := by
  have hunit : unitExponent spec (x * 2 ^ e) = spec.targetExponent (Int.log 2 x + e + 1) := by
    rw [unitExponent, log_mul_zpow hx]
  rw [hunit] at he ⊢
  rcases le_or_gt 1 x with hone | hone
  · rw [Int.log_of_one_le_right 2 hone, totalExponent, Nat.log2_eq_log_two]
    congr 1
    ring
  · have hfloor : ⌊x⌋₊ = 0 := Nat.floor_eq_zero.mpr hone
    have hlog : Int.log 2 x < 0 := by
      apply (Int.lt_zpow_iff_log_lt (by norm_num) hx).mp
      simpa using hone
    rw [hfloor]
    unfold Format.targetExponent totalExponent Format.mantissaBits at *
    simp only [Nat.log2_zero]
    omega

theorem rounded_signed (s : Sign) {x : ℚ} (hx : 0 ≤ x) :
    rounded spec (signed s x) = signed s (roundUnits spec x) := by
  cases s with
  | negative => exact (rounded_neg x).trans (congrArg _ (rounded_of_nonneg hx))
  | positive => exact rounded_of_nonneg hx

/-- The units of a number are its mantissa, unless a carry makes one too many digits of them. -/
theorem represents_units (s : Sign) {x : ℚ} (hx : 0 < x) :
    Represents spec
      (let shifted := shiftToTargetExponent spec (roundEven (x / 2 ^ unitExponent spec x))
        (unitExponent spec x) .exact
      if h : shifted.1.mantissa = 0 then .zero s
        else .finite s shifted.1.mantissa shifted.2 (Nat.pos_of_ne_zero h))
      (signed s (roundUnits spec x)) := by
  have hunits : roundUnits spec x =
      roundEven (x / 2 ^ unitExponent spec x) * 2 ^ unitExponent spec x := rfl
  have hleast : spec.minExponent ≤ unitExponent spec x := minExponent_le_unitExponent x
  have hmost : roundEven (x / 2 ^ unitExponent spec x) ≤ 2 ^ spec.mantissaBits :=
    roundEven_le div_unit_lt.le
  have hfull : 2 ^ spec.mantissaBitsWithoutImplicit ≤ roundEven (x / 2 ^ unitExponent spec x) ∨
      unitExponent spec x = spec.minExponent := by
    rcases hleast.eq_or_lt with heq | hlt
    · exact Or.inr heq.symm
    · exact Or.inl (le_roundEven (le_div_unit hx hlt))
  have hbits : 2 ^ spec.mantissaBits = 2 * 2 ^ spec.mantissaBitsWithoutImplicit := by
    rw [Format.mantissaBits, pow_add, pow_one]
  rw [hunits]
  generalize roundEven (x / 2 ^ unitExponent spec x) = units at *
  generalize unitExponent spec x = e at *
  unfold shiftToTargetExponent shiftToExponent
  rcases hmost.eq_or_lt with hcarry | hlt
  · have hlog : units.log2 = spec.mantissaBits := by
      rw [hcarry, Nat.log2_two_pow]
    have hamount : (spec.targetExponent (totalExponent units e) - e).toNat = 1 := by
      unfold Format.targetExponent totalExponent
      rw [hlog]
      omega
    have hhalf : units / 2 = 2 ^ spec.mantissaBitsWithoutImplicit := by omega
    have hpos : 0 < 2 ^ spec.mantissaBitsWithoutImplicit := Nat.two_pow_pos _
    have hmantissa : (ExtendedMantissa.ofMantissaAndAccuracy units .exact >>> 1).mantissa =
        2 ^ spec.mantissaBitsWithoutImplicit := hhalf
    simp only [hamount, hmantissa, dif_neg hpos.ne']
    refine ⟨isCanonical_of_bounds (by omega) (by omega) (Or.inl le_rfl), rfl, ?_⟩
    rw [value, hcarry, hbits]
    congr 1
    push_cast
    rw [zpow_add₀ (by norm_num), zpow_one]
    ring
  · have hamount : (spec.targetExponent (totalExponent units e) - e).toNat = 0 := by
      unfold Format.targetExponent totalExponent
      by_cases hzero : units = 0
      · rw [hzero, Nat.log2_zero]
        unfold Format.mantissaBits
        omega
      · have hlog : units.log2 < spec.mantissaBits := (Nat.log2_lt hzero).mpr hlt
        omega
    have hmantissa : (ExtendedMantissa.ofMantissaAndAccuracy units .exact >>> 0).mantissa = units :=
      rfl
    simp only [hamount, hmantissa]
    by_cases hzero : units = 0
    · rw [dif_pos hzero]
      refine ⟨trivial, rfl, ?_⟩
      rw [hzero, Nat.cast_zero, zero_mul]
      cases s with
      | negative => exact neg_zero.symm
      | positive => rfl
    · have he : e + ((0 : ℕ) : ℤ) = e := by simp
      rw [dif_neg hzero]
      simp only [he]
      exact ⟨isCanonical_of_bounds hlt hleast hfull, rfl, rfl⟩

/-- A mantissa whose accuracy is that of a number is rounded as the number is. -/
theorem represents_roundWithAccuracy (s : Sign) {m : ℕ} {e : ℤ} {acc : Accuracy} {x : ℚ} (hx : 0 < x)
    (hplace : place (ExtendedMantissa.ofMantissaAndAccuracy m acc) = position x)
    (he : e ≤ unitExponent spec (x * 2 ^ e)) :
    Represents spec (roundWithAccuracy spec s m e acc) (rounded spec (signed s (x * 2 ^ e))) := by
  have hpos : 0 < x * 2 ^ e := mul_pos hx (two_zpow_pos e)
  have hm : m = ⌊x⌋₊ := by
    rw [← mantissa_eq_floor hx.le hplace]
    cases acc with
    | exact => rfl
    | inexact o => cases o <;> rfl
  have htarget : spec.targetExponent (totalExponent m e) = unitExponent spec (x * 2 ^ e) := by
    rw [hm]
    exact targetExponent_floor hx he
  obtain ⟨k, hk⟩ : ∃ k : ℕ, unitExponent spec (x * 2 ^ e) - e = k :=
    Int.eq_ofNat_of_zero_le (by omega)
  have hexponent : e + (k : ℤ) = unitExponent spec (x * 2 ^ e) := by omega
  have hquotient : x / 2 ^ k = x * 2 ^ e / 2 ^ unitExponent spec (x * 2 ^ e) := by
    rw [← hexponent, zpow_add₀ (by norm_num), zpow_natCast,
      mul_comm ((2 : ℚ) ^ e), mul_div_mul_right _ _ (two_zpow_pos e).ne']
  have hunits : (ExtendedMantissa.ofMantissaAndAccuracy m acc >>> k).roundedMantissa =
      roundEven (x * 2 ^ e / 2 ^ unitExponent spec (x * 2 ^ e)) := by
    rw [roundedMantissa_eq, place_shiftRight hx.le hplace, hquotient, roundEven]
  have hshift : shiftToTargetExponent spec m e acc =
      (ExtendedMantissa.ofMantissaAndAccuracy m acc >>> k, unitExponent spec (x * 2 ^ e)) := by
    rw [shiftToTargetExponent, shiftToExponent, htarget, hk, Int.toNat_natCast, hexponent]
  rw [roundWithAccuracy, hshift, rounded_signed s hpos.le]
  simp only [hunits]
  exact represents_units s hpos

theorem represents_round (s : Sign) {m : ℕ} (hm : 0 < m) (e : ℤ) :
    Represents spec (UnpackedFloat.round spec s m e) (rounded spec (signed s (m * 2 ^ e))) := by
  obtain ⟨k, hk⟩ : ∃ k : ℕ, (e - spec.targetExponent (totalExponent m e)).toNat = k := ⟨_, rfl⟩
  have hvalue : ((m * 2 ^ k : ℕ) : ℚ) * 2 ^ (e - k) = m * 2 ^ e := by
    rw [zpow_sub₀ (by norm_num), zpow_natCast]
    push_cast
    field_simp
  have hpos : (0 : ℚ) < (m * 2 ^ k : ℕ) := Nat.cast_pos.mpr (Nat.mul_pos hm (Nat.two_pow_pos k))
  have he : e - k ≤ unitExponent spec (((m * 2 ^ k : ℕ) : ℚ) * 2 ^ (e - k)) := by
    rw [hvalue, unitExponent_magnitude hm]
    omega
  have hround := represents_roundWithAccuracy s hpos (place_exact (m * 2 ^ k)) he
  rw [hvalue] at hround
  rw [UnpackedFloat.round, decreaseExponent, hk, Nat.shiftLeft_eq]
  exact hround

theorem represents_normalize (n : ℤ) (e : ℤ) (s : Sign) :
    Represents spec (UnpackedFloat.normalize spec n e s) (rounded spec (n * 2 ^ e)) := by
  unfold UnpackedFloat.normalize
  rcases lt_trichotomy n 0 with hneg | rfl | hpos
  · have hnat : ((-n).toNat : ℤ) = -n := Int.toNat_of_nonneg (by omega)
    have hcast : ((-n).toNat : ℚ) = -n := by exact_mod_cast hnat
    have hvalue : signed .negative (((-n).toNat : ℚ) * 2 ^ e) = n * 2 ^ e := by
      change -(((-n).toNat : ℚ) * 2 ^ e) = _
      rw [hcast]
      ring
    rw [Int.compare_eq_lt.mpr hneg]
    have hround : Represents spec _ _ := represents_round .negative (m := (-n).toNat) (by omega) e
    rwa [hvalue] at hround
  · rw [Int.compare_eq_eq.mpr rfl, Int.cast_zero, zero_mul, rounded_of_nonneg le_rfl,
      roundUnits_zero]
    exact ⟨trivial, rfl, rfl⟩
  · have hnat : (n.toNat : ℤ) = n := Int.toNat_of_nonneg hpos.le
    have hcast : (n.toNat : ℚ) = n := by exact_mod_cast hnat
    have hvalue : signed .positive ((n.toNat : ℚ) * 2 ^ e) = n * 2 ^ e := by
      change (n.toNat : ℚ) * 2 ^ e = _
      rw [hcast]
    rw [Int.compare_eq_gt.mpr hpos]
    have hround : Represents spec _ _ := represents_round .positive (m := n.toNat) (by omega) e
    rwa [hvalue] at hround

theorem represents_self {u : UnpackedFloat} (hu : IsCanonical spec u) (hnu : u.isNaN = false)
    (hinf : u.isInf = false) : Represents spec u (rounded spec (value spec u)) := by
  refine ⟨hu, hnu, ?_⟩
  cases u with
  | notANumber => cases hnu
  | infinity s => cases hinf
  | zero s => rw [value, rounded_of_nonneg le_rfl, roundUnits_zero]
  | finite s m e hm =>
    rw [value, rounded_signed s (magnitude_pos hm e).le, roundUnits_of_unit_le hu.le]

theorem represents_roundTo {source : Format} {u : UnpackedFloat} (hnu : u.isNaN = false)
    (hinf : u.isInf = false) : Represents spec (roundTo spec u) (rounded spec (value source u)) := by
  cases u with
  | notANumber => cases hnu
  | infinity s => cases hinf
  | zero s => exact represents_self trivial rfl rfl
  | finite s m e hm => exact represents_round s hm e

theorem signed_neg (s : Sign) (x : ℚ) : signed (-s) x = -signed s x := by
  cases s with
  | negative => exact (neg_neg x).symm
  | positive => rfl

theorem cast_apply (s : Sign) (n : ℕ) : ((s.apply n : ℤ) : ℚ) = signed s n := by
  cases s with
  | negative =>
    rw [Sign.apply, Int.cast_neg, Int.cast_natCast]
    rfl
  | positive => exact Int.cast_natCast n

theorem signed_mul (s : Sign) (x y : ℚ) : signed s x * y = signed s (x * y) := by
  cases s with
  | negative => exact neg_mul x y
  | positive => rfl

/-- A mantissa that is brought down to an exponent stands for the same number. -/
theorem decreaseExponent_value (m : ℕ) {e t : ℤ} (h : t ≤ e) :
    ((decreaseExponent m e t).1 : ℚ) * 2 ^ t = m * 2 ^ e := by
  obtain ⟨k, hk⟩ : ∃ k : ℕ, e - t = k := Int.eq_ofNat_of_zero_le (by omega)
  have he : e = k + t := by omega
  rw [decreaseExponent, hk, Int.toNat_natCast, Nat.shiftLeft_eq, he, zpow_add₀ (by norm_num),
    zpow_natCast]
  push_cast
  ring

/-- The difference of two numbers is the rounded difference of their values. -/
theorem represents_sub {u v : UnpackedFloat} (hu : IsCanonical spec u) (hv : IsCanonical spec v)
    (hnu : u.isNaN = false) (hnv : v.isNaN = false) (hiu : u.isInf = false) (hiv : v.isInf = false) :
    Represents spec (sub spec u v) (rounded spec (value spec u - value spec v)) := by
  cases u with
  | notANumber => cases hnu
  | infinity s => cases hiu
  | zero s =>
    cases v with
    | notANumber => cases hnv
    | infinity s' => cases hiv
    | zero s' =>
      have hzero : Represents spec (sub spec (.zero s) (.zero s')) 0 := by
        rw [UnpackedFloat.sub]
        split
        · exact ⟨trivial, rfl, rfl⟩
        · exact ⟨trivial, rfl, rfl⟩
      rw [value, value, sub_self, rounded_of_nonneg le_rfl, roundUnits_zero]
      exact hzero
    | finite s' m' e' hm' =>
      have hneg := represents_self (u := .finite (-s') m' e' hm') hv rfl rfl
      have hvalue : value spec (.zero s) - value spec (.finite s' m' e' hm') =
          value spec (.finite (-s') m' e' hm') := by
        rw [value, value, value, signed_neg, zero_sub]
      rw [hvalue]
      exact hneg
  | finite s m e hm =>
    cases v with
    | notANumber => cases hnv
    | infinity s' => cases hiv
    | zero s' =>
      have hvalue : value spec (.finite s m e hm) - value spec (.zero s') =
          value spec (.finite s m e hm) := sub_zero _
      rw [hvalue]
      exact represents_self hu rfl rfl
    | finite s' m' e' hm' =>
      have hleft := decreaseExponent_value m (min_le_left e e')
      have hright := decreaseExponent_value m' (min_le_right e e')
      have hvalue : value spec (.finite s m e hm) - value spec (.finite s' m' e' hm') =
          ((s.apply (decreaseExponent m e (min e e')).1 -
            s'.apply (decreaseExponent m' e' (min e e')).1 : ℤ) : ℚ) * 2 ^ min e e' := by
        rw [Int.cast_sub, cast_apply, cast_apply, sub_mul, signed_mul, signed_mul, hleft, hright]
        rfl
      rw [hvalue]
      exact represents_normalize _ _ _

/-- The digits of a quotient begin where those of its parts say, or one place further down. -/
theorem log_sub_log_le {x y : ℚ} (hx : 0 < x) (hy : 0 < y) :
    Int.log 2 x - Int.log 2 y ≤ Int.log 2 (x / y) + 1 := by
  have hlow : (2 : ℚ) ^ Int.log 2 x ≤ x := Int.zpow_log_le_self (by norm_num) hx
  have hhigh : y < (2 : ℚ) ^ (Int.log 2 y + 1) := Int.lt_zpow_succ_log_self (by norm_num) y
  have hquotient : ((2 : ℕ) : ℚ) ^ (Int.log 2 x - (Int.log 2 y + 1)) ≤ x / y := by
    rw [le_div_iff₀ hy]
    calc ((2 : ℕ) : ℚ) ^ (Int.log 2 x - (Int.log 2 y + 1)) * y
        ≤ ((2 : ℕ) : ℚ) ^ (Int.log 2 x - (Int.log 2 y + 1)) * 2 ^ (Int.log 2 y + 1) :=
          mul_le_mul_of_nonneg_left hhigh.le (two_zpow_pos _).le
      _ = 2 ^ Int.log 2 x := by
          push_cast
          rw [← zpow_add₀ (by norm_num), sub_add_cancel]
      _ ≤ x := hlow
  have hlog := (Int.zpow_le_iff_le_log (by norm_num) (div_pos hx hy)).mp hquotient
  omega

theorem signed_div_positive (s : Sign) (x y : ℚ) :
    signed (s / .positive) (x / y) = signed s x / y := by
  cases s with
  | negative => exact neg_div' y x
  | positive => rfl

/-- The quotient of a number by a positive one is the rounded quotient of their values. -/
theorem represents_div {u : UnpackedFloat} {m : ℕ} {e : ℤ} {hm : 0 < m} (hnu : u.isNaN = false)
    (hiu : u.isInf = false) :
    Represents spec (div spec u (.finite .positive m e hm))
      (rounded spec (value spec u / (m * 2 ^ e))) := by
  cases u with
  | notANumber => cases hnu
  | infinity s => cases hiu
  | zero s =>
    rw [value, zero_div, rounded_of_nonneg le_rfl, roundUnits_zero]
    exact ⟨trivial, rfl, rfl⟩
  | finite s₁ m₁ e₁ hm₁ =>
    have hpos := magnitude_pos hm e
    have hpos₁ := magnitude_pos hm₁ e₁
    generalize ht : min (e₁ - e) (spec.targetExponent (totalExponent m₁ e₁ - totalExponent m e)) = t
    obtain ⟨k, hk⟩ : ∃ k : ℕ, e₁ - e - t = k := Int.eq_ofNat_of_zero_le (by omega)
    have he₁ : e₁ = k + t + e := by omega
    have hquotient : ((m₁ * 2 ^ k : ℕ) / m : ℚ) * 2 ^ t = m₁ * 2 ^ e₁ / (m * 2 ^ e) := by
      have hcast : (m : ℚ) ≠ 0 := Nat.cast_ne_zero.mpr (Nat.ne_of_gt hm)
      have hunit := (two_zpow_pos e).ne'
      rw [he₁, zpow_add₀ (by norm_num), zpow_add₀ (by norm_num), zpow_natCast]
      push_cast
      field_simp
    have hunit : t ≤ unitExponent spec (((m₁ * 2 ^ k : ℕ) / m : ℚ) * 2 ^ t) := by
      have hlog := log_sub_log_le hpos₁ hpos
      rw [log_magnitude hm₁, log_magnitude hm] at hlog
      rw [hquotient, unitExponent]
      unfold Format.targetExponent totalExponent at *
      omega
    have hx : (0 : ℚ) < (m₁ * 2 ^ k : ℕ) / m :=
      div_pos (Nat.cast_pos.mpr (Nat.mul_pos hm₁ (Nat.two_pow_pos k))) (Nat.cast_pos.mpr hm)
    have hplace := place_fraction (m₁ * 2 ^ k) hm
    have hround := represents_roundWithAccuracy (s₁ / .positive) hx hplace hunit
    rw [hquotient, signed_div_positive] at hround
    rw [UnpackedFloat.div, divCore, ht, hk, Int.toNat_natCast, Nat.shiftLeft_eq]
    exact hround

end Motion.Number
