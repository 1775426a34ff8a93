import Motion.Proofs.Number.Arithmetic

/-! Operations that are rounded from monotone ones on rational numbers keep the order of numbers. -/
namespace Motion.Number
open Float.Model Float.Model.UnpackedFloat

theorem value_bounds {spec : Format} {u : UnpackedFloat} (hu : IsStored spec u) :
    -bound spec ≤ value spec u ∧ value spec u ≤ bound spec := by
  cases hinf : u.isInf with
  | false =>
    obtain ⟨hlow, hhigh⟩ := value_between hu hinf
    exact ⟨hlow.le, hhigh.le⟩
  | true =>
    cases u with
    | infinity s => exact signed_mono (bound_pos spec).le
    | _ => cases hinf

theorem eq_infinity_of_isInf {u : UnpackedFloat} (h : u.isInf = true) :
    u = .infinity .negative ∨ u = .infinity .positive := by
  cases u with
  | infinity s =>
    cases s with
    | negative => exact Or.inl rfl
    | positive => exact Or.inr rfl
  | _ => cases h

theorem eq_infinity_of_le {u : UnpackedFloat} (h : (UnpackedFloat.infinity .positive).le u = true) :
    u = .infinity .positive := by
  cases u with
  | notANumber => cases h
  | zero s => cases h
  | finite s m e hm => cases h
  | infinity s =>
    cases s with
    | negative => cases h
    | positive => rfl

/-- An operation that keeps infinities and rounds a monotone one elsewhere keeps the order. -/
theorem stored_le_stored {source target : Format} (hr : 1 < halfRange target)
    {f : UnpackedFloat → UnpackedFloat} {g : ℚ → ℚ} (hg : Monotone g)
    (hinf : ∀ s, f (.infinity s) = .infinity s)
    (hfin : ∀ u, IsStored source u → u.isNaN = false → u.isInf = false →
      Represents target (f u) (g (value source u)))
    {u v : UnpackedFloat} (hu : IsStored source u) (hv : IsStored source v) (h : u.le v = true) :
    (stored target (f u)).le (stored target (f v)) = true := by
  obtain ⟨hnu, hnv, hle⟩ := (le_iff_value hu hv).mp h
  have hstored (w : UnpackedFloat) : IsStored target (stored target w) := isStored_unpack hr _
  have hkeep (s : Sign) : stored target (f (.infinity s)) = .infinity s := by
    rw [hinf, stored_infinity]
  have hnumber {w : UnpackedFloat} (hw : IsStored source w) (hn : w.isNaN = false) :
      (stored target (f w)).isNaN = false := by
    cases hi : w.isInf with
    | true => obtain rfl | rfl := eq_infinity_of_isInf hi <;> rw [hkeep] <;> rfl
    | false => exact (value_stored hr (hfin w hw hn hi).canonical (hfin w hw hn hi).number).1
  apply (le_iff_value (hstored _) (hstored _)).mpr
  refine ⟨hnumber hu hnu, hnumber hv hnv, ?_⟩
  cases hiu : u.isInf with
  | true =>
    obtain rfl | rfl := eq_infinity_of_isInf hiu
    · rw [hkeep]
      exact (value_bounds (hstored (f v))).1
    · rw [eq_infinity_of_le h]
  | false =>
    cases hiv : v.isInf with
    | true =>
      obtain rfl | rfl := eq_infinity_of_isInf hiv
      · have habove := (value_between hu hiu).1
        exact absurd hle (not_le.mpr habove)
      · rw [hkeep]
        exact (value_bounds (hstored (f u))).2
    | false =>
      have hfu := hfin u hu hnu hiu
      have hfv := hfin v hv hnv hiv
      rw [(value_stored hr hfu.canonical hfu.number).2, (value_stored hr hfv.canonical hfv.number).2,
        hfu.value_eq, hfv.value_eq]
      exact limited_mono (hg hle)

theorem le_iff_unpack (x y : Float) : x ≤ y ↔ x.toModel.unpack.le y.toModel.unpack = true := by
  change decide (x.toModel ≤ y.toModel) = true ↔ _
  rw [decide_eq_true_iff]
  rfl

theorem isStored_toModel (x : Float) : IsStored .binary64 x.toModel.unpack :=
  isStored_unpack (by decide) _

/-- The value of a number, where NaN has none and counts as 0. -/
def valueOf (x : Float) : ℚ := value .binary64 x.toModel.unpack

theorem le_iff_valueOf {x y : Float} :
    x ≤ y ↔ x.isNaN = false ∧ y.isNaN = false ∧ valueOf x ≤ valueOf y := by
  rw [le_iff_unpack]
  exact le_iff_value (isStored_toModel x) (isStored_toModel y)

theorem le_trans {x y z : Float} (hxy : x ≤ y) (hyz : y ≤ z) : x ≤ z := by
  obtain ⟨hx, -, hle⟩ := le_iff_valueOf.mp hxy
  obtain ⟨-, hz, hle'⟩ := le_iff_valueOf.mp hyz
  exact le_iff_valueOf.mpr ⟨hx, hz, hle.trans hle'⟩

theorem lt_iff_not_le {x y : Float} (hx : x.isNaN = false) (hy : y.isNaN = false) :
    x < y ↔ ¬y ≤ x := by
  rw [le_iff_valueOf, lt_iff_compare,
    compare_eq_value (isStored_toModel x) (isStored_toModel y) hx hy]
  simp only [hx, hy, true_and, not_le, Option.some.injEq]
  exact compare_lt_iff_lt

theorem lt_iff_valueOf {x y : Float} (hx : x.isNaN = false) (hy : y.isNaN = false) :
    x < y ↔ valueOf x < valueOf y := by
  rw [lt_iff_not_le hx hy, le_iff_valueOf]
  simp only [hx, hy, true_and, not_le]

theorem valueOf_zero : valueOf 0.0 = 0 := by
  rw [valueOf, unpack_zero, value]

theorem valueOf_one : valueOf 1.0 = 1 := by
  rw [valueOf, unpack_one, value, signed]
  norm_num

theorem valueOf_clampUnit {x : Float} (hx : x.isNaN = false) :
    valueOf (clampUnit x) = max 0 (min 1 (valueOf x)) := by
  unfold clampUnit
  split
  · rename_i hneg
    rw [lt_iff_valueOf hx rfl, valueOf_zero] at hneg
    rw [valueOf_zero, min_eq_right (by linarith), max_eq_left hneg.le]
  · rename_i hneg
    rw [lt_iff_valueOf hx rfl, valueOf_zero, not_lt] at hneg
    split
    · rename_i hbig
      rw [lt_iff_valueOf rfl hx, valueOf_one] at hbig
      rw [valueOf_one, min_eq_left hbig.le, max_eq_right zero_le_one]
    · rename_i hbig
      rw [lt_iff_valueOf rfl hx, valueOf_one, not_lt] at hbig
      rw [min_eq_right hbig, max_eq_right hneg]

theorem clampUnit_le_clampUnit {x y : Float} (h : x ≤ y) : clampUnit x ≤ clampUnit y := by
  obtain ⟨hx, hy, hle⟩ := le_iff_valueOf.mp h
  apply le_iff_valueOf.mpr
  rw [isNaN_clampUnit, isNaN_clampUnit, valueOf_clampUnit hx, valueOf_clampUnit hy]
  exact ⟨hx, hy, max_le_max le_rfl (min_le_min le_rfl hle)⟩

/-- Only finite numbers have the sign of a value. -/
theorem unpack_of_pos {d : Float} (hfin : d.isFinite = true) (hpos : 0.0 < d) :
    ∃ m e hm, d.toModel.unpack = .finite .positive m e hm := by
  rw [lt_iff_compare, unpack_zero] at hpos
  change d.toModel.unpack.isFinite = true at hfin
  cases hd : d.toModel.unpack with
  | notANumber => rw [hd] at hfin; cases hfin
  | infinity s => rw [hd] at hfin; cases hfin
  | zero s => rw [hd] at hpos; cases hpos
  | finite s m e hm =>
    cases s with
    | negative => rw [hd] at hpos; cases hpos
    | positive => exact ⟨m, e, hm, rfl⟩

theorem unpack_sub (x y : Float) : (x - y).toModel.unpack =
    stored .binary64 (.sub .binary64 x.toModel.unpack y.toModel.unpack) := rfl

theorem unpack_div (x y : Float) : (x / y).toModel.unpack =
    stored .binary64 (.div .binary64 x.toModel.unpack y.toModel.unpack) := rfl

theorem unpack_narrow (x : Float) : (narrow x).toModel.unpack =
    stored .binary32 (roundTo .binary32 x.toModel.unpack) := rfl

theorem number_of_isFinite {u : UnpackedFloat} (h : u.isFinite = true) :
    u.isNaN = false ∧ u.isInf = false := by
  cases u with
  | notANumber => cases h
  | infinity s => cases h
  | zero s => exact ⟨rfl, rfl⟩
  | finite s m e hm => exact ⟨rfl, rfl⟩

theorem isCanonical_of_isStored {spec : Format} {u : UnpackedFloat} (h : IsStored spec u) :
    IsCanonical spec u := by
  cases u with
  | finite s m e hm => exact h.1
  | _ => trivial

theorem one_lt_halfRange_binary64 : 1 < halfRange .binary64 := by decide

/-- Taking the same number away keeps the order. -/
theorem stored_sub_le_stored_sub {u v w : UnpackedFloat} (hu : IsStored .binary64 u)
    (hv : IsStored .binary64 v) (hw : IsStored .binary64 w) (hfin : w.isFinite = true)
    (h : u.le v = true) :
    (stored .binary64 (.sub .binary64 u w)).le (stored .binary64 (.sub .binary64 v w)) = true := by
  obtain ⟨hnan, hinf⟩ := number_of_isFinite hfin
  have hmono : Monotone fun r : ℚ => rounded .binary64 (r - value .binary64 w) :=
    fun _ _ hle => rounded_mono (sub_le_sub_right hle _)
  have hkeep (s : Sign) : UnpackedFloat.sub .binary64 (.infinity s) w = .infinity s := by
    cases w with
    | notANumber => cases hnan
    | infinity s' => cases hinf
    | zero s' => rfl
    | finite s' m e hm => rfl
  exact stored_le_stored one_lt_halfRange_binary64 hmono hkeep
    (fun u hu hnu hiu => represents_sub (isCanonical_of_isStored hu) (isCanonical_of_isStored hw) hnu
      hnan hiu hinf) hu hv h

theorem sub_le_sub {x y s : Float} (h : x ≤ y) (hs : s.isFinite = true) : x - s ≤ y - s := by
  rw [le_iff_unpack] at h
  rw [le_iff_unpack, unpack_sub, unpack_sub]
  exact stored_sub_le_stored_sub (isStored_toModel x) (isStored_toModel y) (isStored_toModel s) hs h

/-- Dividing by the same positive number keeps the order. -/
theorem stored_div_le_stored_div {u v : UnpackedFloat} {m : ℕ} {e : ℤ} {hm : 0 < m}
    (hu : IsStored .binary64 u) (hv : IsStored .binary64 v) (h : u.le v = true) :
    (stored .binary64 (.div .binary64 u (.finite .positive m e hm))).le
      (stored .binary64 (.div .binary64 v (.finite .positive m e hm))) = true := by
  have hmono : Monotone fun r : ℚ => rounded .binary64 (r / (m * 2 ^ e)) :=
    fun _ _ hle => rounded_mono (div_le_div_of_nonneg_right hle (magnitude_pos hm e).le)
  have hkeep (s : Sign) :
      UnpackedFloat.div .binary64 (.infinity s) (.finite .positive m e hm) = .infinity s := by
    cases s <;> rfl
  exact stored_le_stored one_lt_halfRange_binary64 hmono hkeep
    (fun u _ hnu hiu => represents_div hnu hiu) hu hv h

theorem div_le_div {x y d : Float} (h : x ≤ y) (hfin : d.isFinite = true) (hpos : 0.0 < d) :
    x / d ≤ y / d := by
  obtain ⟨m, e, hm, hd⟩ := unpack_of_pos hfin hpos
  rw [le_iff_unpack] at h
  rw [le_iff_unpack, unpack_div, unpack_div, hd]
  exact stored_div_le_stored_div (isStored_toModel x) (isStored_toModel y) h

/-- The way to binary32 keeps the order. -/
theorem narrow_le_narrow {x y : Float} (h : x ≤ y) : narrow x ≤ narrow y := by
  have hmono : Monotone fun r : ℚ => rounded .binary32 r := fun _ _ hle => rounded_mono hle
  rw [le_iff_unpack] at h
  have hnarrow : (narrow x).toModel.unpack.le (narrow y).toModel.unpack = true := by
    rw [unpack_narrow, unpack_narrow]
    apply stored_le_stored (by decide) hmono _ _ (isStored_toModel x) (isStored_toModel y) h
    · intro σ
      rfl
    · intro u hu hnu hiu
      exact represents_roundTo hnu hiu
  change decide ((narrow x).toModel ≤ (narrow y).toModel) = true
  exact decide_eq_true hnarrow

theorem unpack_div_of_notANumber {x d : Float} (hx : x.toModel.unpack = .notANumber) :
    (x / d).toModel.unpack = .notANumber := by
  rw [unpack_div, hx, UnpackedFloat.div, stored_notANumber]

theorem unpack_div_of_infinity {x d : Float} {s : Sign} (hx : x.toModel.unpack = .infinity s)
    (hfin : d.isFinite = true) (hpos : 0.0 < d) : (x / d).toModel.unpack = .infinity s := by
  obtain ⟨m, e, hm, hd⟩ := unpack_of_pos hfin hpos
  rw [unpack_div, hx, hd, UnpackedFloat.div, stored_infinity]
  cases s <;> rfl

theorem unpack_sub_of_notANumber {x s : Float} (hs : s.toModel.unpack = .notANumber) :
    (x - s).toModel.unpack = .notANumber := by
  have hsub : UnpackedFloat.sub .binary64 x.toModel.unpack .notANumber = .notANumber := by
    cases x.toModel.unpack <;> rfl
  rw [unpack_sub, hs, hsub, stored_notANumber]

/-- Nothing is left of infinity when infinity is taken away. -/
theorem unpack_sub_of_infinity {x s : Float} {σ : Sign} (hs : s.toModel.unpack = .infinity σ)
    (hx : x.isNaN = false) :
    (x.toModel.unpack = .infinity σ ∧ (x - s).toModel.unpack = .notANumber) ∨
      (x.toModel.unpack ≠ .infinity σ ∧ (x - s).toModel.unpack = .infinity (-σ)) := by
  change x.toModel.unpack.isNaN = false at hx
  rw [unpack_sub, hs]
  cases hu : x.toModel.unpack with
  | notANumber => rw [hu] at hx; cases hx
  | zero s' =>
    have hsub : UnpackedFloat.sub .binary64 (.zero s') (.infinity σ) = .infinity (-σ) := rfl
    rw [hsub, stored_infinity]
    exact Or.inr ⟨UnpackedFloat.noConfusion, rfl⟩
  | finite s' m e hm =>
    have hsub : UnpackedFloat.sub .binary64 (.finite s' m e hm) (.infinity σ) = .infinity (-σ) := rfl
    rw [hsub, stored_infinity]
    exact Or.inr ⟨UnpackedFloat.noConfusion, rfl⟩
  | infinity s' =>
    by_cases hσ : s' = σ
    · have hsub : UnpackedFloat.sub .binary64 (.infinity s') (.infinity σ) = .notANumber := by
        rw [hσ]
        cases σ <;> rfl
      rw [hsub, stored_notANumber]
      exact Or.inl ⟨congrArg _ hσ, rfl⟩
    · have hsub : UnpackedFloat.sub .binary64 (.infinity s') (.infinity σ) = .infinity (-σ) := by
        cases s' with
        | negative =>
          cases σ with
          | negative => exact absurd rfl hσ
          | positive => rfl
        | positive =>
          cases σ with
          | negative => rfl
          | positive => exact absurd rfl hσ
      rw [hsub, stored_infinity]
      refine Or.inr ⟨fun heq => hσ ?_, rfl⟩
      injection heq

/-- The share of some time that has passed grows with the time, unless it is no number or over one
in the end. -/
theorem share_cases {x y s d : Float} (h : x ≤ y) (hfin : d.isFinite = true) (hpos : 0.0 < d) :
    ((y - s) / d).isNaN = true ∨ 1.0 ≤ (y - s) / d ∨ (x - s) / d ≤ (y - s) / d := by
  obtain ⟨hx, hy, -⟩ := le_iff_valueOf.mp h
  have hgrows (hsfin : s.toModel.unpack.isFinite = true) : (x - s) / d ≤ (y - s) / d :=
    div_le_div (sub_le_sub h hsfin) hfin hpos
  have hnan (hsub : (y - s).toModel.unpack = .notANumber) : ((y - s) / d).isNaN = true := by
    change ((y - s) / d).toModel.unpack.isNaN = true
    rw [unpack_div_of_notANumber hsub]
    rfl
  cases hs : s.toModel.unpack with
  | notANumber => exact Or.inl (hnan (unpack_sub_of_notANumber hs))
  | infinity σ =>
    rcases unpack_sub_of_infinity hs hy with ⟨-, hsub⟩ | ⟨hne, hsub⟩
    · exact Or.inl (hnan hsub)
    · right
      have hquotient := unpack_div_of_infinity hsub hfin hpos
      cases σ with
      | negative =>
        left
        rw [le_iff_unpack, hquotient]
        rfl
      | positive =>
        right
        rcases unpack_sub_of_infinity hs hx with ⟨heq, -⟩ | ⟨-, hsub'⟩
        · rw [le_iff_unpack, heq] at h
          exact absurd (eq_infinity_of_le h) hne
        · rw [le_iff_unpack, hquotient, unpack_div_of_infinity hsub' hfin hpos]
          rfl
  | zero σ =>
    exact Or.inr (Or.inr (hgrows (by rw [hs]; rfl)))
  | finite σ m e hm =>
    exact Or.inr (Or.inr (hgrows (by rw [hs]; rfl)))

end Motion.Number
