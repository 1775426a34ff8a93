import Motion.Proofs.Number.Rounding

/-! Unpacked numbers as rational numbers, where an infinity counts as the bound just beyond the
finite ones. -/
namespace Motion.Number
open Float.Model Float.Model.UnpackedFloat

def signed : Sign → ℚ → ℚ
  | .negative, x => -x
  | .positive, x => x

/-- Half the number of exponents; the bound of a format has it for its exponent. -/
def halfRange (spec : Format) : ℕ := 2 ^ (spec.exponentBits - 1)

/-- The least power of two beyond the finite numbers of a format. -/
def bound (spec : Format) : ℚ := 2 ^ (halfRange spec : ℤ)

def value (spec : Format) : UnpackedFloat → ℚ
  | .notANumber => 0
  | .infinity s => signed s (bound spec)
  | .zero _ => 0
  | .finite s m e _ => signed s (m * 2 ^ e)

/-- A finite number stands at the unit of its value, as rounding leaves it. -/
def IsCanonical (spec : Format) : UnpackedFloat → Prop
  | .finite _ m e _ => unitExponent spec (m * 2 ^ e) = e
  | _ => True

/-- A number that the format can store. -/
def IsStored (spec : Format) : UnpackedFloat → Prop
  | .finite s m e hm => IsCanonical spec (.finite s m e hm) ∧ (m : ℚ) * 2 ^ e < bound spec
  | _ => True

variable {spec : Format}

theorem signed_mono {s : Sign} {x : ℚ} (hx : 0 ≤ x) : -x ≤ signed s x ∧ signed s x ≤ x := by
  cases s with
  | negative => exact ⟨le_rfl, by change -x ≤ x; linarith⟩
  | positive => exact ⟨by change -x ≤ x; linarith, le_rfl⟩

theorem bound_pos (spec : Format) : 0 < bound spec := two_zpow_pos _

theorem magnitude_pos {m : ℕ} (hm : 0 < m) (e : ℤ) : (0 : ℚ) < m * 2 ^ e :=
  mul_pos (Nat.cast_pos.mpr hm) (two_zpow_pos e)

theorem log_magnitude {m : ℕ} (hm : 0 < m) (e : ℤ) : Int.log 2 ((m : ℚ) * 2 ^ e) = m.log2 + e := by
  rw [log_mul_zpow (Nat.cast_pos.mpr hm), Int.log_natCast, Nat.log2_eq_log_two]

theorem unitExponent_magnitude {m : ℕ} (hm : 0 < m) (e : ℤ) :
    unitExponent spec (m * 2 ^ e) = spec.targetExponent (totalExponent m e) := by
  have htotal : Int.log 2 ((m : ℚ) * 2 ^ e) + 1 = totalExponent m e := by
    rw [log_magnitude hm, totalExponent]
    ring
  rw [unitExponent, htotal]

/-- A multiple of its unit has nothing to round. -/
theorem roundUnits_of_unit_le {m : ℕ} {e : ℤ} (h : unitExponent spec (m * 2 ^ e) ≤ e) :
    roundUnits spec (m * 2 ^ e) = m * 2 ^ e := by
  obtain ⟨k, hk⟩ : ∃ k : ℕ, e - unitExponent spec (m * 2 ^ e) = k :=
    Int.eq_ofNat_of_zero_le (by omega)
  have hunits : (m : ℚ) * 2 ^ e / 2 ^ unitExponent spec (m * 2 ^ e) = (m * 2 ^ k : ℕ) := by
    rw [mul_div_assoc, ← zpow_sub₀ (by norm_num), hk, zpow_natCast]
    push_cast
    rfl
  rw [roundUnits, hunits, roundEven_natCast, ← hunits,
    div_mul_cancel₀ _ (two_zpow_pos (unitExponent spec (m * 2 ^ e))).ne']

/-- Of two numbers at their units the exponents decide first, as the larger unit begins where the
smaller one ends. -/
theorem compare_magnitude {m₁ m₂ : ℕ} {e₁ e₂ : ℤ} (hm₁ : 0 < m₁) (hm₂ : 0 < m₂)
    (h₁ : unitExponent spec (m₁ * 2 ^ e₁) = e₁) (h₂ : unitExponent spec (m₂ * 2 ^ e₂) = e₂) :
    (compare e₁ e₂).then (compare m₁ m₂) = compare ((m₁ : ℚ) * 2 ^ e₁) (m₂ * 2 ^ e₂) := by
  rcases lt_trichotomy e₁ e₂ with hlt | rfl | hgt
  · have hvalue : (m₁ : ℚ) * 2 ^ e₁ < m₂ * 2 ^ e₂ := by
      by_contra hle
      have hunit := unitExponent_mono spec (magnitude_pos hm₂ e₂) (not_lt.mp hle)
      omega
    rw [Int.compare_eq_lt.mpr hlt, compare_lt_iff_lt.mpr hvalue]
    rfl
  · have hunit := two_zpow_pos e₁
    rw [Int.compare_eq_eq.mpr rfl]
    change compare m₁ m₂ = _
    rcases lt_trichotomy m₁ m₂ with hlt | rfl | hgt
    · have hvalue : (m₁ : ℚ) * 2 ^ e₁ < m₂ * 2 ^ e₁ :=
        mul_lt_mul_of_pos_right (Nat.cast_lt.mpr hlt) hunit
      rw [compare_lt_iff_lt.mpr hlt, compare_lt_iff_lt.mpr hvalue]
    · rw [compare_eq_iff_eq.mpr rfl, compare_eq_iff_eq.mpr rfl]
    · have hvalue : (m₂ : ℚ) * 2 ^ e₁ < m₁ * 2 ^ e₁ :=
        mul_lt_mul_of_pos_right (Nat.cast_lt.mpr hgt) hunit
      rw [compare_gt_iff_gt.mpr hgt, compare_gt_iff_gt.mpr hvalue]
  · have hvalue : (m₂ : ℚ) * 2 ^ e₂ < m₁ * 2 ^ e₁ := by
      by_contra hle
      have hunit := unitExponent_mono spec (magnitude_pos hm₁ e₁) (not_lt.mp hle)
      omega
    rw [Int.compare_eq_gt.mpr hgt, compare_gt_iff_gt.mpr hvalue]
    rfl

theorem swap_compare (x y : ℚ) : (compare x y).swap = compare (-x) (-y) := by
  rcases lt_trichotomy x y with hlt | rfl | hgt
  · rw [compare_lt_iff_lt.mpr hlt, compare_gt_iff_gt.mpr (neg_lt_neg hlt)]
    rfl
  · rw [compare_eq_iff_eq.mpr rfl, compare_eq_iff_eq.mpr rfl]
    rfl
  · rw [compare_gt_iff_gt.mpr hgt, compare_lt_iff_lt.mpr (neg_lt_neg hgt)]
    rfl

theorem some_lt_eq {x y : ℚ} (h : x < y) : some Ordering.lt = some (compare x y) := by
  rw [compare_lt_iff_lt.mpr h]

theorem some_gt_eq {x y : ℚ} (h : y < x) : some Ordering.gt = some (compare x y) := by
  rw [compare_gt_iff_gt.mpr h]

theorem some_eq_eq (x : ℚ) : some Ordering.eq = some (compare x x) := by
  rw [compare_eq_iff_eq.mpr rfl]

/-- Finite numbers are strictly between the bounds. -/
theorem value_between {u : UnpackedFloat} (hu : IsStored spec u) (hinf : u.isInf = false) :
    -bound spec < value spec u ∧ value spec u < bound spec := by
  have hbound := bound_pos spec
  cases u with
  | notANumber => exact ⟨neg_lt_zero.mpr hbound, hbound⟩
  | infinity s => cases hinf
  | zero s => exact ⟨neg_lt_zero.mpr hbound, hbound⟩
  | finite s m e hm =>
    have hpos := magnitude_pos hm e
    have hlt := hu.2
    obtain ⟨hlow, hhigh⟩ := signed_mono (s := s) hpos.le
    change -bound spec < signed s (m * 2 ^ e) ∧ signed s (m * 2 ^ e) < bound spec
    constructor
    · linarith
    · linarith

theorem compare_infinity {s : Sign} {v : UnpackedFloat} (hv : IsStored spec v)
    (hnv : v.isNaN = false) :
    (UnpackedFloat.infinity s).compare v = some (compare (signed s (bound spec)) (value spec v)) := by
  have hbound := bound_pos spec
  have hneg : -bound spec < bound spec := by linarith
  cases s with
  | negative =>
    cases v with
    | notANumber => cases hnv
    | infinity s' =>
      cases s' with
      | negative => exact some_eq_eq _
      | positive => exact some_lt_eq hneg
    | zero s' => exact some_lt_eq (value_between hv rfl).1
    | finite s' m e hm => exact some_lt_eq (value_between hv rfl).1
  | positive =>
    cases v with
    | notANumber => cases hnv
    | infinity s' =>
      cases s' with
      | negative => exact some_gt_eq hneg
      | positive => exact some_eq_eq _
    | zero s' => exact some_gt_eq (value_between hv rfl).2
    | finite s' m e hm => exact some_gt_eq (value_between hv rfl).2

theorem compare_zero {s : Sign} {v : UnpackedFloat} (hnv : v.isNaN = false) :
    (UnpackedFloat.zero s).compare v = some (compare 0 (value spec v)) := by
  have hbound := bound_pos spec
  cases v with
  | notANumber => cases hnv
  | infinity s' =>
    cases s' with
    | negative => exact some_gt_eq (neg_lt_zero.mpr hbound)
    | positive => exact some_lt_eq hbound
  | zero s' => exact some_eq_eq 0
  | finite s' m e hm =>
    have hpos := magnitude_pos hm e
    cases s' with
    | negative => exact some_gt_eq (neg_lt_zero.mpr hpos)
    | positive => exact some_lt_eq hpos

/-- The order of stored numbers is that of their values. -/
theorem compare_eq_value {u v : UnpackedFloat} (hu : IsStored spec u) (hv : IsStored spec v)
    (hnu : u.isNaN = false) (hnv : v.isNaN = false) :
    u.compare v = some (compare (value spec u) (value spec v)) := by
  cases u with
  | notANumber => cases hnu
  | infinity s => exact compare_infinity hv hnv
  | zero s => exact compare_zero hnv
  | finite s m e hm =>
    have hpos := magnitude_pos hm e
    cases v with
    | notANumber => cases hnv
    | infinity s' =>
      obtain ⟨hlow, hhigh⟩ := value_between hu rfl
      cases s' with
      | negative => cases s <;> exact some_gt_eq hlow
      | positive => cases s <;> exact some_lt_eq hhigh
    | zero s' =>
      cases s with
      | negative => exact some_lt_eq (neg_lt_zero.mpr hpos)
      | positive => exact some_gt_eq hpos
    | finite s' m' e' hm' =>
      have hpos' := magnitude_pos hm' e'
      have hmagnitude := compare_magnitude hm hm' hu.1 hv.1
      cases s with
      | negative =>
        cases s' with
        | negative =>
          change some ((compare e e').then (compare m m')).swap = _
          rw [hmagnitude, swap_compare]
          rfl
        | positive =>
          apply some_lt_eq
          change -((m : ℚ) * 2 ^ e) < m' * 2 ^ e'
          linarith
      | positive =>
        cases s' with
        | negative =>
          apply some_gt_eq
          change -((m' : ℚ) * 2 ^ e') < m * 2 ^ e
          linarith
        | positive => exact congrArg some hmagnitude

theorem le_iff_value {u v : UnpackedFloat} (hu : IsStored spec u) (hv : IsStored spec v) :
    u.le v = true ↔ u.isNaN = false ∧ v.isNaN = false ∧ value spec u ≤ value spec v := by
  cases hnu : u.isNaN with
  | true =>
    cases u with
    | notANumber => simp [UnpackedFloat.le, UnpackedFloat.compare]
    | _ => cases hnu
  | false =>
    cases hnv : v.isNaN with
    | true =>
      cases v with
      | notANumber => cases u <;> simp [UnpackedFloat.le, UnpackedFloat.compare]
      | _ => cases hnv
    | false =>
      rw [UnpackedFloat.le, compare_eq_value hu hv hnu hnv, Option.any_some]
      simp only [true_and]
      rw [← compare_le_iff_le, Ordering.isLE_iff_ne_gt]

/-- A number as it is after it has been stored. -/
def stored (spec : Format) (u : UnpackedFloat) : UnpackedFloat :=
  UnpackedFloat.unpack spec (UnpackedFloat.pack spec u)

theorem exponentBias_eq (spec : Format) : spec.exponentBias + 1 = halfRange spec := by
  have hpos : 0 < 2 ^ (spec.exponentBits - 1) := Nat.two_pow_pos _
  unfold Format.exponentBias halfRange
  omega

theorem two_pow_exponentBits (spec : Format) : 2 ^ spec.exponentBits = 2 * halfRange spec := by
  have he := spec.he
  have hsucc : spec.exponentBits = spec.exponentBits - 1 + 1 := by omega
  rw [halfRange, ← Nat.pow_succ', Nat.succ_eq_add_one, ← hsucc]

theorem minExponent_eq (spec : Format) :
    spec.minExponent = 2 - halfRange spec - spec.mantissaBitsWithoutImplicit := by
  unfold Format.minExponent Format.mantissaBits halfRange
  push_cast
  ring

/-- A number with a full mantissa, or one at the least exponent, stands at its unit. -/
theorem isCanonical_of_bounds {s : Sign} {m : ℕ} {e : ℤ} {hm : 0 < m}
    (hlt : m < 2 ^ spec.mantissaBits) (hleast : spec.minExponent ≤ e)
    (hfull : 2 ^ spec.mantissaBitsWithoutImplicit ≤ m ∨ e = spec.minExponent) :
    IsCanonical spec (.finite s m e hm) := by
  have hlog : m.log2 < spec.mantissaBits := (Nat.log2_lt (Nat.ne_of_gt hm)).mpr hlt
  change unitExponent spec (m * 2 ^ e) = e
  rw [unitExponent_magnitude hm]
  unfold Format.targetExponent totalExponent
  rcases hfull with hfull | rfl
  · have hlog' : spec.mantissaBitsWithoutImplicit ≤ m.log2 :=
      (Nat.le_log2 (Nat.ne_of_gt hm)).mpr hfull
    unfold Format.mantissaBits at *
    omega
  · omega

theorem toNat_append_one {n : ℕ} (b : BitVec n) : (1#1 ++ b).toNat = 2 ^ n + b.toNat := by
  rw [BitVec.toNat_append, ← Nat.shiftLeft_add_eq_or_of_lt b.isLt]
  simp [Nat.shiftLeft_eq]

theorem magnitude_lt_bound {m : ℕ} {e : ℤ} (hlt : m < 2 ^ spec.mantissaBits)
    (he : e + spec.mantissaBitsWithoutImplicit < halfRange spec) :
    (m : ℚ) * 2 ^ e < bound spec := by
  have hcast : (m : ℚ) < 2 ^ spec.mantissaBits := by exact_mod_cast hlt
  have hexp : (spec.mantissaBits : ℤ) + e ≤ halfRange spec := by
    unfold Format.mantissaBits
    push_cast
    omega
  calc (m : ℚ) * 2 ^ e < 2 ^ spec.mantissaBits * 2 ^ e :=
        mul_lt_mul_of_pos_right hcast (two_zpow_pos e)
    _ = 2 ^ ((spec.mantissaBits : ℤ) + e) := by
        rw [zpow_add₀ (by norm_num), zpow_natCast]
    _ ≤ bound spec := zpow_le_zpow_right₀ (by norm_num) hexp

theorem isStored_unpack (hr : 1 < halfRange spec) (b : BitVec spec.numBits) :
    IsStored spec (UnpackedFloat.unpack spec b) := by
  have hbias := exponentBias_eq spec
  have hrange := two_pow_exponentBits spec
  have hleast := minExponent_eq spec
  have hbits : 2 ^ spec.mantissaBits = 2 * 2 ^ spec.mantissaBitsWithoutImplicit := by
    rw [Format.mantissaBits, pow_add, pow_one]
  have hmantissa := (unpackMantissa b).isLt
  have hexponent := (unpackExponent b).isLt
  unfold UnpackedFloat.unpack
  dsimp only
  split
  · split
    · trivial
    · trivial
  · rename_i hones
    split
    · rename_i hzeros
      split
      · trivial
      · have hlt : (unpackMantissa b).toNat < 2 ^ spec.mantissaBits := by omega
        rw [hzeros]
        refine ⟨isCanonical_of_bounds hlt ?_ (Or.inr ?_), magnitude_lt_bound hlt ?_⟩
        · simp only [BitVec.toNat_zero]
          omega
        · simp only [BitVec.toNat_zero]
          omega
        · simp only [BitVec.toNat_zero]
          omega
    · rename_i hzeros
      have hlt : (1#1 ++ unpackMantissa b).toNat < 2 ^ spec.mantissaBits := by
        rw [toNat_append_one]
        omega
      have hfull : 2 ^ spec.mantissaBitsWithoutImplicit ≤ (1#1 ++ unpackMantissa b).toNat := by
        rw [toNat_append_one]
        omega
      have hlow : (unpackExponent b).toNat ≠ 0 := by
        intro h
        apply hzeros
        apply BitVec.eq_of_toNat_eq
        rw [h, BitVec.toNat_zero]
      have hhigh : (unpackExponent b).toNat ≠ 2 ^ spec.exponentBits - 1 := by
        intro h
        apply hones
        apply BitVec.eq_of_toNat_eq
        rw [h, BitVec.neg_one_eq_allOnes, BitVec.toNat_allOnes]
      refine ⟨isCanonical_of_bounds hlt ?_ (Or.inl hfull), magnitude_lt_bound hlt ?_⟩
      · omega
      · omega

theorem ofNat_ne_ones {n k : ℕ} (h : k + 1 < 2 ^ n) : BitVec.ofNat n k ≠ -1#n := by
  intro heq
  have hnat := congrArg BitVec.toNat heq
  rw [BitVec.toNat_ofNat, Nat.mod_eq_of_lt (by omega), BitVec.neg_one_eq_allOnes,
    BitVec.toNat_allOnes] at hnat
  omega

theorem ofNat_ne_zero {n k : ℕ} (hpos : 0 < k) (h : k < 2 ^ n) : BitVec.ofNat n k ≠ 0#n := by
  intro heq
  have hnat := congrArg BitVec.toNat heq
  rw [BitVec.toNat_ofNat, Nat.mod_eq_of_lt h, BitVec.toNat_zero] at hnat
  omega

theorem mantissa_bounds_of_canonical {s : Sign} {m : ℕ} {e : ℤ} {hm : 0 < m}
    (h : IsCanonical spec (.finite s m e hm)) :
    m < 2 ^ spec.mantissaBits ∧ spec.minExponent ≤ e ∧
      (2 ^ spec.mantissaBitsWithoutImplicit ≤ m ∨
        e = spec.minExponent ∧ m < 2 ^ spec.mantissaBitsWithoutImplicit) := by
  have hunit : spec.targetExponent (totalExponent m e) = e := by
    rw [← unitExponent_magnitude hm]
    exact h
  unfold Format.targetExponent totalExponent at hunit
  have hlog : m.log2 < spec.mantissaBits := by omega
  refine ⟨(Nat.log2_lt (Nat.ne_of_gt hm)).mp hlog, by omega, ?_⟩
  by_cases hfull : 2 ^ spec.mantissaBitsWithoutImplicit ≤ m
  · exact Or.inl hfull
  · have hshort : m.log2 < spec.mantissaBitsWithoutImplicit :=
      (Nat.log2_lt (Nat.ne_of_gt hm)).mpr (not_le.mp hfull)
    unfold Format.mantissaBits at hunit
    exact Or.inr ⟨by omega, not_le.mp hfull⟩

/-- A number within the bounds is the same after it has been stored. -/
theorem stored_of_lt_bound {s : Sign} {m : ℕ} {e : ℤ} {hm : 0 < m}
    (h : IsCanonical spec (.finite s m e hm))
    (he : e + spec.mantissaBitsWithoutImplicit < halfRange spec) :
    stored spec (.finite s m e hm) = .finite s m e hm := by
  have hbias := exponentBias_eq spec
  have hrange := two_pow_exponentBits spec
  have hleast := minExponent_eq spec
  obtain ⟨hlt, hlow, hfull⟩ := mantissa_bounds_of_canonical h
  have hbits : 2 ^ spec.mantissaBits = 2 * 2 ^ spec.mantissaBitsWithoutImplicit := by
    rw [Format.mantissaBits, pow_add, pow_one]
  obtain ⟨k, hk⟩ : ∃ k : ℕ, (e + spec.exponentBias + spec.mantissaBitsWithoutImplicit) = k :=
    Int.eq_ofNat_of_zero_le (by omega)
  have hroom : k + 1 < 2 ^ spec.exponentBits := by omega
  unfold stored UnpackedFloat.pack
  dsimp only
  rw [hk, Int.toNat_natCast, if_neg (by omega)]
  rcases hfull with hfull | ⟨hleast', hshort⟩
  · have hlog : m.log2 = spec.mantissaBitsWithoutImplicit := by
      apply (Nat.log2_eq_iff (Nat.ne_of_gt hm)).mpr
      rw [Nat.pow_succ']
      exact ⟨hfull, by omega⟩
    have hlog' : m.log2 + 1 = spec.mantissaBits := by
      rw [hlog, Format.mantissaBits]
      omega
    have hmantissa : (1#1 ++ BitVec.ofNat spec.mantissaBitsWithoutImplicit m).toNat = m := by
      rw [toNat_append_one, BitVec.toNat_ofNat]
      have hmod : m % 2 ^ spec.mantissaBitsWithoutImplicit =
          m - 2 ^ spec.mantissaBitsWithoutImplicit := by
        rw [Nat.mod_eq_sub_mod hfull, Nat.mod_eq_of_lt (by omega)]
      omega
    have hexponent : (BitVec.ofNat spec.exponentBits k).toNat = k := by
      rw [BitVec.toNat_ofNat, Nat.mod_eq_of_lt (by omega)]
    rw [if_pos hlog']
    unfold UnpackedFloat.unpack
    simp only [unpackMantissa_packComponents, unpackExponent_packComponents,
      unpackSign_packComponents, ofNat_ne_ones hroom,
      ofNat_ne_zero (n := spec.exponentBits) (k := k) (by omega) (by omega), if_false,
      Sign.ofBitVec_toBitVec, hexponent, hmantissa]
    congr 1
    omega
  · have hlog : ¬m.log2 + 1 = spec.mantissaBits := by
      have hlt' : m.log2 < spec.mantissaBitsWithoutImplicit :=
        (Nat.log2_lt (Nat.ne_of_gt hm)).mpr hshort
      unfold Format.mantissaBits
      omega
    have hmantissa : (BitVec.ofNat spec.mantissaBitsWithoutImplicit m).toNat = m := by
      rw [BitVec.toNat_ofNat, Nat.mod_eq_of_lt hshort]
    have hones : (0#_ : BitVec spec.exponentBits) ≠ -1#_ := ofNat_ne_ones (k := 0) (by omega)
    rw [if_neg hlog]
    unfold UnpackedFloat.unpack
    simp only [unpackMantissa_packComponents, unpackExponent_packComponents,
      unpackSign_packComponents, hones, if_false, if_true, ofNat_ne_zero hm hshort, dite_false,
      Sign.ofBitVec_toBitVec, hmantissa, BitVec.toNat_zero]
    congr 1
    omega

theorem unpack_packedInfinity (s : Sign) :
    UnpackedFloat.unpack spec (packedInfinity spec s) = .infinity s := by
  unfold UnpackedFloat.unpack packedInfinity
  simp

theorem stored_infinity (s : Sign) : stored spec (.infinity s) = .infinity s :=
  unpack_packedInfinity s

theorem stored_of_bound_le {s : Sign} {m : ℕ} {e : ℤ} {hm : 0 < m}
    (he : halfRange spec ≤ e + spec.mantissaBitsWithoutImplicit) :
    stored spec (.finite s m e hm) = .infinity s := by
  have hbias := exponentBias_eq spec
  have hrange := two_pow_exponentBits spec
  have hover : 2 ^ spec.exponentBits ≤
      (e + spec.exponentBias + spec.mantissaBitsWithoutImplicit).toNat + 1 := by omega
  unfold stored UnpackedFloat.pack
  dsimp only
  rw [if_pos hover, unpack_packedInfinity]

theorem stored_zero (s : Sign) : stored spec (.zero s) = .zero s := unpack_packedZero

theorem stored_notANumber : stored spec .notANumber = .notANumber := unpack_packedNaN

/-- A value cut off at the bounds of a format. -/
def limited (spec : Format) (x : ℚ) : ℚ := max (-bound spec) (min (bound spec) x)

theorem limited_mono {x y : ℚ} (h : x ≤ y) : limited spec x ≤ limited spec y :=
  max_le_max le_rfl (min_le_min le_rfl h)

theorem limited_signed (s : Sign) {x : ℚ} (hx : 0 ≤ x) :
    limited spec (signed s x) = signed s (min (bound spec) x) := by
  have hbound := bound_pos spec
  have hmin : 0 ≤ min (bound spec) x := le_min hbound.le hx
  cases s with
  | negative =>
    change max (-bound spec) (min (bound spec) (-x)) = -min (bound spec) x
    rw [min_eq_right (by linarith), max_neg_neg]
  | positive =>
    change max (-bound spec) (min (bound spec) x) = min (bound spec) x
    exact max_eq_right (by linarith)

theorem bound_le_magnitude {m : ℕ} {e : ℤ} (hfull : 2 ^ spec.mantissaBitsWithoutImplicit ≤ m)
    (he : halfRange spec ≤ e + spec.mantissaBitsWithoutImplicit) :
    bound spec ≤ (m : ℚ) * 2 ^ e := by
  have hcast : (2 : ℚ) ^ spec.mantissaBitsWithoutImplicit ≤ m := by exact_mod_cast hfull
  calc bound spec ≤ 2 ^ (spec.mantissaBitsWithoutImplicit + e : ℤ) :=
        zpow_le_zpow_right₀ (by norm_num) (by omega)
    _ = 2 ^ spec.mantissaBitsWithoutImplicit * 2 ^ e := by
        rw [zpow_add₀ (by norm_num), zpow_natCast]
    _ ≤ m * 2 ^ e := mul_le_mul_of_nonneg_right hcast (two_zpow_pos e).le

theorem limited_of_between {x : ℚ} (hlow : -bound spec ≤ x) (hhigh : x ≤ bound spec) :
    limited spec x = x := by
  rw [limited, min_eq_right hhigh, max_eq_right hlow]

/-- To store a rounded number cuts its value off at the bounds. -/
theorem value_stored (hr : 1 < halfRange spec) {u : UnpackedFloat} (h : IsCanonical spec u)
    (hnu : u.isNaN = false) :
    (stored spec u).isNaN = false ∧ value spec (stored spec u) = limited spec (value spec u) := by
  have hbound := bound_pos spec
  cases u with
  | notANumber => cases hnu
  | infinity s =>
    rw [stored_infinity, value, limited_signed s hbound.le, min_self]
    exact ⟨rfl, rfl⟩
  | zero s =>
    have hzero : limited spec 0 = 0 := by
      have hsigned : limited spec 0 = min (bound spec) 0 := limited_signed .positive (le_refl 0)
      rwa [min_eq_right hbound.le] at hsigned
    rw [stored_zero, value, hzero]
    exact ⟨rfl, rfl⟩
  | finite s m e hm =>
    have hpos := magnitude_pos hm e
    obtain ⟨hlt, hlow, hfull⟩ := mantissa_bounds_of_canonical h
    rw [value, limited_signed s hpos.le]
    rcases lt_or_ge (e + spec.mantissaBitsWithoutImplicit : ℤ) (halfRange spec) with he | he
    · have hin := magnitude_lt_bound hlt he
      rw [stored_of_lt_bound h he, value, min_eq_right hin.le]
      exact ⟨rfl, rfl⟩
    · have hleast := minExponent_eq spec
      have hout : bound spec ≤ (m : ℚ) * 2 ^ e := by
        rcases hfull with hfull | ⟨hfull, _⟩
        · exact bound_le_magnitude hfull he
        · omega
      rw [stored_of_bound_le he, value, min_eq_left hout]
      exact ⟨rfl, rfl⟩

end Motion.Number
