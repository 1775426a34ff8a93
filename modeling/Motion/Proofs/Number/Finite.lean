import Motion.Proofs.Number.Natural

namespace Motion.Number
open Float.Model Float.Model.UnpackedFloat

theorem isFinite_of_number {u : UnpackedFloat} (hnan : u.isNaN = false) (hinf : u.isInf = false) :
    u.isFinite = true := by
  cases u with
  | notANumber => cases hnan
  | infinity s => cases hinf
  | zero s => rfl
  | finite s m e hm => rfl

theorem finite_stored {spec : Format} (hr : 1 < halfRange spec) {u : UnpackedFloat} {x : ℚ}
    (h : Represents spec u x) (hlow : -bound spec < x) (hhigh : x < bound spec) :
    (stored spec u).isFinite = true ∧ value spec (stored spec u) = x := by
  obtain ⟨hnan, hvalue⟩ := value_stored_of_between hr h hlow hhigh
  have hinf : (stored spec u).isInf = false :=
    isInf_of_between (hvalue ▸ hlow) (hvalue ▸ hhigh)
  exact ⟨isFinite_of_number hnan hinf, hvalue⟩

/-- A whole number with a power of ten is rounded once. -/
theorem represents_ofScientific {n k : ℕ} (hn : 0 < n) (hk : k ≤ 2048) :
    Represents .binary64 (UnpackedFloat.ofScientific .binary64 n k)
      (rounded .binary64 (n * 10 ^ k : ℕ)) := by
  have hpos : 0 < n * 10 ^ k := Nat.mul_pos hn (Nat.pow_pos (by decide))
  have hmantissa : 0 < n <<< 53 * 10 ^ k := by
    rw [Nat.shiftLeft_eq, Nat.mul_right_comm]
    exact Nat.mul_pos hpos (Nat.two_pow_pos 53)
  have hvalue : ((n <<< 53 * 10 ^ k : ℕ) : ℚ) * 2 ^ (-53 + 0 : ℤ) = (n * 10 ^ k : ℕ) := by
    rw [Nat.shiftLeft_eq, Nat.mul_right_comm, add_zero, zpow_neg]
    push_cast
    field_simp
  have hunit : (-53 + 0 : ℤ) ≤ unitExponent .binary64 (n * 10 ^ k : ℕ) := by
    have hlog : 0 ≤ Int.log 2 ((n * 10 ^ k : ℕ) : ℚ) := by
      rw [Int.log_natCast]
      exact Int.natCast_nonneg _
    change _ ≤ max (Int.log 2 ((n * 10 ^ k : ℕ) : ℚ) + 1 - 53) (-1074)
    omega
  have hround := represents_roundWithAccuracy .positive (Nat.cast_pos.mpr hmantissa)
    (place_exact (n <<< 53 * 10 ^ k)) (hvalue ▸ hunit)
  rw [hvalue] at hround
  have hrange : (2 : ℤ) ^ Format.binary64.exponentBits = 2048 := by decide
  have hlarge : ¬(k : ℤ) > 2 ^ Format.binary64.exponentBits := by omega
  have hsmall : ¬(k : ℤ) < -((2 ^ Format.binary64.exponentBits : ℤ) + n.log2) := by omega
  rw [UnpackedFloat.ofScientific, dif_neg (Nat.ne_of_gt hn), if_neg hlarge, if_neg hsmall,
    if_pos (Int.natCast_nonneg k), UnpackedFloat.mul]
  exact hround

/-- Nothing is rounded beyond a number of 53 digits. -/
theorem rounded_le_magnitude {x : ℚ} {m : ℕ} {e : ℤ} (hm : 0 < m) (hdigits : m.log2 < 53)
    (he : -1074 ≤ e) (h : x ≤ m * 2 ^ e) : rounded .binary64 x ≤ m * 2 ^ e := by
  have hunit : unitExponent .binary64 (m * 2 ^ e) ≤ e := by
    rw [unitExponent_magnitude hm]
    change max ((m.log2 : ℤ) + 1 + e - 53) (-1074) ≤ e
    omega
  calc rounded .binary64 x ≤ rounded .binary64 (m * 2 ^ e) := rounded_mono h
    _ = m * 2 ^ e := by rw [rounded_of_nonneg (magnitude_pos hm e).le, roundUnits_of_unit_le hunit]

/-- A numeral that is not small enough for a single product is stored as its rounded value. -/
theorem finite_ofScientific {n k : ℕ} (hlarge : 2 ^ 53 ≤ n ∨ 22 < k) (hn : 0 < n) (hk : k ≤ 2048)
    (hhigh : rounded .binary64 (n * 10 ^ k : ℕ) < bound .binary64) :
    (Float.ofScientific n false k).isFinite = true ∧
      valueOf (Float.ofScientific n false k) = rounded .binary64 (n * 10 ^ k : ℕ) := by
  have hpath : ¬(n < 2 ^ 53 ∧ k ≤ 22) := by omega
  have hunpack : (Float.ofScientific n false k).toModel.unpack =
      stored .binary64 (UnpackedFloat.ofScientific .binary64 n k) := by
    rw [Float.ofScientific, dif_neg hpath]
    rfl
  have hnonneg := rounded_nonneg .binary64 (Nat.cast_nonneg (α := ℚ) (n * 10 ^ k))
  have hbelow : -bound .binary64 < rounded .binary64 (n * 10 ^ k : ℕ) := by
    linarith [bound_pos .binary64]
  change (Float.ofScientific n false k).toModel.unpack.isFinite = true ∧ _
  rw [valueOf, hunpack]
  exact finite_stored one_lt_halfRange_binary64 (represents_ofScientific hn hk) hbelow hhigh

theorem isFinite_ofNat {n : ℕ} (h : n ≤ 2 ^ 64) : (Float.ofNat n).isFinite = true := by
  rcases Nat.lt_or_ge n (2 ^ 53) with hsmall | hlarge
  · obtain ⟨hnan, hvalue⟩ := valueOf_ofNat hsmall
    obtain ⟨hlow, hhigh⟩ := natCast_between hsmall
    rw [← hvalue] at hlow hhigh
    exact isFinite_of_number hnan (isInf_of_between hlow hhigh)
  · have hn : 0 < n := Nat.lt_of_lt_of_le (Nat.two_pow_pos 53) hlarge
    have hle : ((n * 10 ^ 0 : ℕ) : ℚ) ≤ (1 : ℕ) * 2 ^ (64 : ℤ) := by
      rw [pow_zero, mul_one, Nat.cast_one, one_mul]
      exact_mod_cast h
    have hbound : rounded .binary64 (n * 10 ^ 0 : ℕ) < bound .binary64 :=
      calc rounded .binary64 (n * 10 ^ 0 : ℕ) ≤ (1 : ℕ) * 2 ^ (64 : ℤ) :=
            rounded_le_magnitude Nat.one_pos (by decide) (by decide) hle
        _ < 2 ^ (65 : ℤ) := by norm_num
        _ ≤ bound .binary64 := zpow_le_zpow_right₀ (by norm_num) (by decide)
    exact (finite_ofScientific (Or.inl hlarge) hn (Nat.zero_le _) hbound).1

/-- The powers of ten within the bounds are finite and not below one. -/
theorem power_of_ten {k : ℕ} (hk : k ≤ 308) :
    (Float.ofScientific 1 false k).isFinite = true ∧ 1.0 ≤ Float.ofScientific 1 false k := by
  rcases Nat.lt_or_ge 22 k with hlarge | hsmall
  · have hle : ((1 * 10 ^ k : ℕ) : ℚ) ≤ (3 : ℕ) * 2 ^ (1022 : ℤ) := by
      have hmono (top : ℕ) (h : k ≤ top) : 10 ^ k ≤ 10 ^ top := Nat.pow_le_pow_right (by decide) h
      have hlast : 10 ^ 308 ≤ 3 * 2 ^ 1022 := by decide +kernel
      have hnat : 1 * 10 ^ k ≤ 3 * 2 ^ 1022 :=
        calc 1 * 10 ^ k = 10 ^ k := Nat.one_mul _
          _ ≤ 10 ^ 308 := hmono 308 hk
          _ ≤ 3 * 2 ^ 1022 := hlast
      exact_mod_cast hnat
    have hbound : rounded .binary64 (1 * 10 ^ k : ℕ) < bound .binary64 :=
      calc rounded .binary64 (1 * 10 ^ k : ℕ) ≤ (3 : ℕ) * 2 ^ (1022 : ℤ) :=
            rounded_le_magnitude (by decide) (by decide) (by decide) hle
        _ < 2 ^ (1024 : ℤ) := by
            rw [show (1024 : ℤ) = 2 + 1022 from rfl, zpow_add₀ (by norm_num)]
            exact mul_lt_mul_of_pos_right (by norm_num) (two_zpow_pos _)
        _ = bound .binary64 := rfl
    obtain ⟨hfinite, hvalue⟩ := finite_ofScientific (Or.inr hlarge) Nat.one_pos (by omega) hbound
    have hone : (1 : ℚ) ≤ valueOf (Float.ofScientific 1 false k) := by
      have hpos : 1 ≤ 1 * 10 ^ k := Nat.mul_pos Nat.one_pos (Nat.pow_pos (by decide))
      calc (1 : ℚ) = rounded .binary64 (1 : ℕ) := by rw [rounded_natCast (by decide), Nat.cast_one]
        _ ≤ rounded .binary64 (1 * 10 ^ k : ℕ) := rounded_mono (Nat.cast_le.mpr hpos)
        _ = valueOf (Float.ofScientific 1 false k) := hvalue.symm
    refine ⟨hfinite, le_iff_valueOf.mpr ⟨rfl, (number_of_isFinite hfinite).1, ?_⟩⟩
    rwa [valueOf_one]
  · have hall : ∀ k ≤ 22, (Float.ofScientific 1 false k).isFinite = true ∧
        1.0 ≤ Float.ofScientific 1 false k := by decide +kernel
    exact hall k hsmall

theorem isFinite_neg {x : Float} (h : x.isFinite = true) : (Float.neg x).isFinite = true := by
  have hstored := isStored_toModel x
  change x.toModel.unpack.isFinite = true at h
  change (stored .binary64 x.toModel.unpack.neg).isFinite = true
  cases hu : x.toModel.unpack with
  | notANumber =>
    rw [hu] at h
    cases h
  | infinity s =>
    rw [hu] at h
    cases h
  | zero s =>
    rw [UnpackedFloat.neg, stored_zero]
    rfl
  | finite s m e hm =>
    rw [hu] at hstored
    obtain ⟨hlow, hhigh⟩ := value_between (u := .finite (-s) m e hm) hstored rfl
    have hself : Represents .binary64 (.finite (-s) m e hm)
        (value .binary64 (.finite (-s) m e hm)) :=
      ⟨hstored.1, rfl, rfl⟩
    exact (finite_stored one_lt_halfRange_binary64 hself hlow hhigh).1

/-- A whole number of 64 bits, with or without a sign, is finite in binary64. -/
theorem isFinite_ofInt {n : ℤ} (hlow : -2 ^ 63 ≤ n) (hhigh : n < 2 ^ 64) :
    (Float.ofInt n).isFinite = true := by
  cases n with
  | ofNat n =>
    apply isFinite_ofNat
    have hle : (n : ℤ) ≤ 2 ^ 64 := hhigh.le
    exact_mod_cast hle
  | negSucc n =>
    apply isFinite_neg
    apply isFinite_ofNat
    omega

/-- Only the largest exponent is kept for what is no finite number. -/
theorem isFinite_unpack {spec : Format} {b : BitVec spec.numBits} (h : unpackExponent b ≠ -1#_) :
    (UnpackedFloat.unpack spec b).isFinite = true := by
  unfold UnpackedFloat.unpack
  dsimp only
  rw [if_neg h]
  split
  · split <;> rfl
  · rfl

/-- To store a number makes it infinite at the worst. -/
theorem isNaN_stored {spec : Format} {u : UnpackedFloat} (h : u.isNaN = false) :
    (stored spec u).isNaN = false := by
  cases u with
  | notANumber => cases h
  | infinity s =>
    rw [stored_infinity]
    rfl
  | zero s =>
    rw [stored_zero]
    rfl
  | finite s m e hm =>
    have hpacked (exponent : BitVec spec.exponentBits) (mantissa) (hne : exponent ≠ -1#_) :
        (UnpackedFloat.unpack spec (packComponents spec s exponent mantissa)).isNaN = false := by
      have hfinite := isFinite_unpack (b := packComponents spec s exponent mantissa) (by
        rwa [unpackExponent_packComponents])
      exact (number_of_isFinite hfinite).1
    unfold stored UnpackedFloat.pack
    dsimp only
    split
    · rw [unpack_packedInfinity]
      rfl
    · rename_i hroom
      split
      · exact hpacked _ _ (ofNat_ne_ones (by omega))
      · exact hpacked _ _ (ofNat_ne_ones (by omega))

theorem isNaN_roundWithAccuracy (spec : Format) (s : Sign) (m : ℕ) (e : ℤ) (accuracy : Accuracy) :
    (roundWithAccuracy spec s m e accuracy).isNaN = false := by
  unfold roundWithAccuracy
  dsimp only
  split <;> rfl

theorem isNaN_mul {x y : Float} (hx : x.isFinite = true) (hy : y.isFinite = true) :
    (x * y).isNaN = false := by
  change x.toModel.unpack.isFinite = true at hx
  change y.toModel.unpack.isFinite = true at hy
  change (stored .binary64 (.mul .binary64 x.toModel.unpack y.toModel.unpack)).isNaN = false
  apply isNaN_stored
  cases hu : x.toModel.unpack with
  | notANumber =>
    rw [hu] at hx
    cases hx
  | infinity s =>
    rw [hu] at hx
    cases hx
  | zero s =>
    cases hv : y.toModel.unpack with
    | notANumber =>
      rw [hv] at hy
      cases hy
    | infinity s' =>
      rw [hv] at hy
      cases hy
    | _ => rfl
  | finite s m e hm =>
    cases hv : y.toModel.unpack with
    | notANumber =>
      rw [hv] at hy
      cases hy
    | infinity s' =>
      rw [hv] at hy
      cases hy
    | zero s' => rfl
    | finite s' m' e' hm' => exact isNaN_roundWithAccuracy _ _ _ _ _

/-- A quotient by a number that is not below one is no larger than what is divided. -/
theorem rounded_div_between {x d : ℚ} (hself : rounded .binary64 x = x) (hlow : -bound .binary64 < x)
    (hhigh : x < bound .binary64) (hd : 1 ≤ d) :
    -bound .binary64 < rounded .binary64 (x / d) ∧ rounded .binary64 (x / d) < bound .binary64 := by
  have hbound := bound_pos .binary64
  have hzero : rounded .binary64 0 = 0 := by rw [rounded_of_nonneg le_rfl, roundUnits_zero]
  rcases le_total 0 x with hx | hx
  · have hle : rounded .binary64 (x / d) ≤ x :=
      calc rounded .binary64 (x / d) ≤ rounded .binary64 x := rounded_mono (div_le_self hx hd)
        _ = x := hself
    have hnonneg : 0 ≤ rounded .binary64 (x / d) :=
      rounded_nonneg .binary64 (div_nonneg hx (by linarith))
    exact ⟨by linarith, by linarith⟩
  · have hquotient : x ≤ x / d := by
      rw [le_div_iff₀ (by linarith)]
      nlinarith
    have hge : x ≤ rounded .binary64 (x / d) :=
      calc x = rounded .binary64 x := hself.symm
        _ ≤ rounded .binary64 (x / d) := rounded_mono hquotient
    have hnonpos : rounded .binary64 (x / d) ≤ 0 :=
      calc rounded .binary64 (x / d) ≤ rounded .binary64 0 :=
            rounded_mono (div_nonpos_of_nonpos_of_nonneg hx (by linarith))
        _ = 0 := hzero
    exact ⟨by linarith, by linarith⟩

theorem isFinite_div {x d : Float} (hx : x.isFinite = true) (hd : d.isFinite = true)
    (hone : 1.0 ≤ d) : (x / d).isFinite = true := by
  have hstored := isStored_toModel x
  change x.toModel.unpack.isFinite = true at hx
  obtain ⟨hnan, hinf⟩ := number_of_isFinite hx
  obtain ⟨hlow, hhigh⟩ := value_between hstored hinf
  obtain ⟨-, hdnan, hle⟩ := le_iff_valueOf.mp hone
  rw [valueOf_one] at hle
  have hpos : 0.0 < d := by
    rw [lt_iff_valueOf rfl hdnan, valueOf_zero]
    linarith
  obtain ⟨m, e, hm, hunpack⟩ := unpack_of_pos hd hpos
  have hvalue : 1 ≤ (m : ℚ) * 2 ^ e := by
    rwa [valueOf, hunpack] at hle
  have hself := (represents_self (isCanonical_of_isStored hstored) hnan hinf).value_eq.symm
  obtain ⟨hbelow, habove⟩ := rounded_div_between hself hlow hhigh hvalue
  change (x / d).toModel.unpack.isFinite = true
  rw [unpack_div, hunpack]
  exact (finite_stored one_lt_halfRange_binary64 (represents_div hnan hinf) hbelow habove).1

end Motion.Number
