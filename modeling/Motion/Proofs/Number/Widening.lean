import Motion.Proofs.Number.Finite

namespace Motion.Number
open Float.Model Float.Model.UnpackedFloat

theorem packComponents_unpack {spec : Format} (b : BitVec spec.numBits) :
    packComponents spec (Sign.ofBitVec (unpackSign b)) (unpackExponent b) (unpackMantissa b) = b := by
  have hsign (c : BitVec 1) : (Sign.ofBitVec c).toBitVec = c := by
    revert c
    decide
  have hm := spec.hm
  have he := spec.he
  unfold packComponents
  rw [hsign]
  apply BitVec.eq_of_getLsbD_eq
  intro i hi
  simp only [BitVec.getLsbD_append, unpackSign, unpackExponent, unpackMantissa,
    BitVec.getLsbD_cast, BitVec.getLsbD_extractLsb]
  grind

/-- A number is stored by one pattern of bits only. -/
theorem pack_unpack {spec : Format} (hr : 1 < halfRange spec) {b : BitVec spec.numBits}
    (hb : spec.Valid b) : UnpackedFloat.pack spec (UnpackedFloat.unpack spec b) = b := by
  have hbias := exponentBias_eq spec
  have hrange := two_pow_exponentBits spec
  have hmantissa := (unpackMantissa b).isLt
  have hexponent := (unpackExponent b).isLt
  have hself := packComponents_unpack b
  unfold UnpackedFloat.unpack
  dsimp only
  split
  · rename_i hones
    split
    · rename_i hzero
      rw [hones, hzero] at hself
      exact hself
    · rename_i hnonzero
      exact (hb.eq_packedNaN hones hnonzero).symm
  · rename_i hones
    split
    · rename_i hzeros
      split
      · rename_i hzero
        rw [hzeros, hzero] at hself
        exact hself
      · rename_i hnonzero
        have hpos : (unpackMantissa b).toNat ≠ 0 := by
          intro h
          exact hnonzero (BitVec.eq_of_toNat_eq (h.trans BitVec.toNat_zero.symm))
        have hlog : ¬(unpackMantissa b).toNat.log2 + 1 = spec.mantissaBits := by
          have hlt := (Nat.log2_lt hpos).mpr hmantissa
          unfold Format.mantissaBits
          omega
        have hleast : ((unpackExponent b).toNat : ℤ) -
            (spec.exponentBias + spec.mantissaBitsWithoutImplicit) + 1 + spec.exponentBias +
              spec.mantissaBitsWithoutImplicit = 1 := by
          rw [hzeros, BitVec.toNat_zero]
          omega
        have hroom : ¬2 ^ spec.exponentBits ≤ (1 : ℤ).toNat + 1 := by
          have hone : (1 : ℤ).toNat = 1 := rfl
          omega
        rw [UnpackedFloat.pack, hleast, if_neg hroom, if_neg hlog, BitVec.ofNat_toNat,
          BitVec.setWidth_eq, ← hzeros]
        exact hself
    · rename_i hzeros
      have hfull := toNat_append_one (unpackMantissa b)
      have hne : (1#1 ++ unpackMantissa b).toNat ≠ 0 := by
        have hpos := Nat.two_pow_pos spec.mantissaBitsWithoutImplicit
        omega
      have hlog : (1#1 ++ unpackMantissa b).toNat.log2 + 1 = spec.mantissaBits := by
        have hlog2 : (1#1 ++ unpackMantissa b).toNat.log2 = spec.mantissaBitsWithoutImplicit := by
          apply (Nat.log2_eq_iff hne).mpr
          rw [Nat.pow_succ]
          omega
        rw [hlog2, Format.mantissaBits, Nat.add_comm]
      have hexp : ((unpackExponent b).toNat : ℤ) -
          (spec.exponentBias + spec.mantissaBitsWithoutImplicit) + spec.exponentBias +
            spec.mantissaBitsWithoutImplicit = ((unpackExponent b).toNat : ℤ) := by
        omega
      have hroom : ¬2 ^ spec.exponentBits ≤ (unpackExponent b).toNat + 1 := by
        intro hle
        apply hones
        apply BitVec.eq_of_toNat_eq
        rw [BitVec.neg_one_eq_allOnes, BitVec.toNat_allOnes]
        omega
      have hrest : BitVec.ofNat spec.mantissaBitsWithoutImplicit (1#1 ++ unpackMantissa b).toNat =
          unpackMantissa b := by
        apply BitVec.eq_of_toNat_eq
        rw [BitVec.toNat_ofNat, hfull, Nat.add_mod_left, Nat.mod_eq_of_lt hmantissa]
      rw [UnpackedFloat.pack, hexp, Int.toNat_natCast, if_neg hroom, if_pos hlog, hrest,
        BitVec.ofNat_toNat, BitVec.setWidth_eq]
      exact hself

/-- Bits are told by the number that they unpack to. -/
theorem bits_eq_of_unpack_eq {spec : Format} (hr : 1 < halfRange spec) {b b' : BitVec spec.numBits}
    (hb : spec.Valid b) (hb' : spec.Valid b')
    (h : UnpackedFloat.unpack spec b = UnpackedFloat.unpack spec b') : b = b' := by
  rw [← pack_unpack hr hb, h, pack_unpack hr hb']

theorem eq_of_unpack_eq {x y : Float32} (h : x.toModel.unpack = y.toModel.unpack) : x = y := by
  obtain ⟨⟨v, hv⟩⟩ := x
  obtain ⟨⟨w, hw⟩⟩ := y
  have hr : 1 < halfRange .binary32 := by decide
  have hbits : v.toBitVec = w.toBitVec := bits_eq_of_unpack_eq hr hv hw h
  have hword : v = w := UInt32.eq_of_toBitVec_eq hbits
  subst hword
  rfl

theorem float_eq_of_unpack_eq {x y : Float} (h : x.toModel.unpack = y.toModel.unpack) : x = y := by
  obtain ⟨⟨v, hv⟩⟩ := x
  obtain ⟨⟨w, hw⟩⟩ := y
  have hbits : v.toBitVec = w.toBitVec := bits_eq_of_unpack_eq one_lt_halfRange_binary64 hv hw h
  have hword : v = w := UInt64.eq_of_toBitVec_eq hbits
  subst hword
  rfl

/-- Of all numbers only the two zeros are equal to zero. -/
theorem eq_zero_of_beq {x : Float} (h : (x == 0.0) = true) : x = 0.0 ∨ x = -0.0 := by
  change x.toModel.unpack.beq (0.0 : Float).toModel.unpack = true at h
  rw [UnpackedFloat.beq, beq_iff_eq, unpack_zero] at h
  have hzero : ∃ s, x.toModel.unpack = .zero s := by
    revert h
    cases x.toModel.unpack with
    | notANumber => simp [UnpackedFloat.compare]
    | infinity s => cases s <;> simp [UnpackedFloat.compare]
    | zero s => simp
    | finite s m e hm => cases s <;> simp [UnpackedFloat.compare]
  obtain ⟨s, hs⟩ := hzero
  cases s with
  | positive => exact Or.inl (float_eq_of_unpack_eq hs)
  | negative => exact Or.inr (float_eq_of_unpack_eq hs)

/-- A finite number other than zero is told by its value. -/
theorem eq_of_value_eq {spec : Format} {u v : UnpackedFloat} (hu : IsCanonical spec u)
    (hv : IsCanonical spec v) (hfu : u.isFinite = true) (hfv : v.isFinite = true)
    (h : value spec u = value spec v) (hne : value spec u ≠ 0) : u = v := by
  cases u with
  | notANumber => cases hfu
  | infinity s => cases hfu
  | zero s => exact absurd rfl hne
  | finite s m e hm =>
    cases v with
    | notANumber => cases hfv
    | infinity s' => cases hfv
    | zero s' => exact absurd h hne
    | finite s' m' e' hm' =>
      have hpos := magnitude_pos hm e
      have hpos' := magnitude_pos hm' e'
      have hsame : s = s' ∧ (m : ℚ) * 2 ^ e = m' * 2 ^ e' := by
        simp only [value] at h
        cases s with
        | negative =>
          cases s' with
          | negative => exact ⟨rfl, neg_injective h⟩
          | positive =>
            change -((m : ℚ) * 2 ^ e) = m' * 2 ^ e' at h
            linarith
        | positive =>
          cases s' with
          | negative =>
            change (m : ℚ) * 2 ^ e = -(m' * 2 ^ e') at h
            linarith
          | positive => exact ⟨rfl, h⟩
      obtain ⟨rfl, hmagnitude⟩ := hsame
      have hexponent : e = e' := by
        rw [← show unitExponent spec (m * 2 ^ e) = e from hu, hmagnitude]
        exact hv
      subst hexponent
      have hmantissa : (m : ℚ) = m' := mul_right_cancel₀ (two_zpow_pos e).ne' hmagnitude
      obtain rfl : m = m' := Nat.cast_injective hmantissa
      rfl

theorem unpack_widen (x : Float32) : (widen x).toModel.unpack =
    stored .binary64 (roundTo .binary64 x.toModel.unpack) := rfl

theorem isStored_toModel32 (x : Float32) : IsStored .binary32 x.toModel.unpack :=
  isStored_unpack (by decide) _

theorem unitExponent_le_unitExponent (x : ℚ) :
    unitExponent .binary64 x ≤ unitExponent .binary32 x := by
  change max (Int.log 2 x + 1 - 53) (-1074) ≤ max (Int.log 2 x + 1 - 24) (-149)
  omega

theorem represents_roundTo_of_isStored {u : UnpackedFloat} (hu : IsStored .binary32 u)
    (hfin : u.isFinite = true) : Represents .binary64 (roundTo .binary64 u) (value .binary32 u) := by
  obtain ⟨hnan, hinf⟩ := number_of_isFinite hfin
  have hrounded : Represents .binary64 (roundTo .binary64 u)
      (rounded .binary64 (value .binary32 u)) :=
    represents_roundTo hnan hinf
  have hself : rounded .binary64 (value .binary32 u) = value .binary32 u := by
    cases u with
    | notANumber => cases hnan
    | infinity s => cases hinf
    | zero s => rw [value, rounded_of_nonneg le_rfl, roundUnits_zero]
    | finite s m e hm =>
      have hunit : unitExponent .binary64 (m * 2 ^ e) ≤ e :=
        (unitExponent_le_unitExponent _).trans_eq hu.1
      rw [value, rounded_signed s (magnitude_pos hm e).le, roundUnits_of_unit_le hunit]
  rwa [hself] at hrounded

theorem bound_le_bound : bound .binary32 ≤ bound .binary64 :=
  zpow_le_zpow_right₀ (by norm_num) (by decide)

theorem eq_zero_of_value_eq_zero {spec : Format} {u : UnpackedFloat} (hfin : u.isFinite = true)
    (h : value spec u = 0) : ∃ s, u = .zero s := by
  cases u with
  | notANumber => cases hfin
  | infinity s => cases hfin
  | zero s => exact ⟨s, rfl⟩
  | finite s m e hm =>
    have hpos := magnitude_pos hm e
    cases s with
    | negative => exact absurd (neg_eq_zero.mp h) hpos.ne'
    | positive => exact absurd h hpos.ne'

theorem finite_widen {x : Float32} (h : x.isFinite = true) :
    (widen x).isFinite = true ∧
      value .binary64 (widen x).toModel.unpack = value .binary32 x.toModel.unpack := by
  have hstored := isStored_toModel32 x
  change x.toModel.unpack.isFinite = true at h
  obtain ⟨hlow, hhigh⟩ := value_between hstored (number_of_isFinite h).2
  have hbound := bound_le_bound
  exact finite_stored one_lt_halfRange_binary64 (represents_roundTo_of_isStored hstored h)
    (by linarith) (by linarith)

theorem isFinite_widen (x : Float32) : (widen x).isFinite = x.isFinite := by
  cases hfin : x.isFinite with
  | true => exact (finite_widen hfin).1
  | false =>
    change x.toModel.unpack.isFinite = false at hfin
    change (widen x).toModel.unpack.isFinite = false
    rw [unpack_widen]
    cases hu : x.toModel.unpack with
    | notANumber =>
      have hkeep : roundTo .binary64 .notANumber = .notANumber := rfl
      rw [hkeep, stored_notANumber]
      rfl
    | infinity s =>
      have hkeep : roundTo .binary64 (.infinity s) = .infinity s := rfl
      rw [hkeep, stored_infinity]
      rfl
    | zero s =>
      rw [hu] at hfin
      cases hfin
    | finite s m e hm =>
      rw [hu] at hfin
      cases hfin

/-- A finite number that has been widened is the same once it has been narrowed again. -/
theorem narrow_widen {x : Float32} (h : x.isFinite = true) : narrow (widen x) = x := by
  have hstored := isStored_toModel32 x
  obtain ⟨hwide, hvalue⟩ := finite_widen h
  change x.toModel.unpack.isFinite = true at h
  change (widen x).toModel.unpack.isFinite = true at hwide
  obtain ⟨hnan, hinf⟩ := number_of_isFinite h
  obtain ⟨hwnan, hwinf⟩ := number_of_isFinite hwide
  apply eq_of_unpack_eq
  rw [unpack_narrow]
  by_cases hzero : value .binary32 x.toModel.unpack = 0
  · obtain ⟨s, hs⟩ := eq_zero_of_value_eq_zero h hzero
    have hkeep (spec : Format) : roundTo spec (.zero s) = .zero s := rfl
    rw [unpack_widen, hs, hkeep, stored_zero, hkeep, stored_zero]
  · have hself : rounded .binary32 (value .binary64 (widen x).toModel.unpack) =
        value .binary32 x.toModel.unpack := by
      rw [hvalue]
      exact ((represents_self (isCanonical_of_isStored hstored) hnan hinf).value_eq).symm
    have hrounded : Represents .binary32 (roundTo .binary32 (widen x).toModel.unpack)
        (rounded .binary32 (value .binary64 (widen x).toModel.unpack)) :=
      represents_roundTo hwnan hwinf
    rw [hself] at hrounded
    obtain ⟨hlow, hhigh⟩ := value_between hstored hinf
    obtain ⟨hback, hsame⟩ := finite_stored (by decide) hrounded hlow hhigh
    have hcanonical : IsCanonical .binary32
        (stored .binary32 (roundTo .binary32 (widen x).toModel.unpack)) :=
      isCanonical_of_isStored (isStored_unpack (by decide) _)
    apply eq_of_value_eq hcanonical (isCanonical_of_isStored hstored) hback h hsame
    rwa [hsame]

end Motion.Number
