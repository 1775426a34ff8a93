import Mathlib
import Motion.Number.Binary

namespace Motion.Number
open Float.Model

theorem lt_iff_compare (x y : Float) :
    x < y ↔ x.toModel.unpack.compare y.toModel.unpack = some .lt := by
  change decide (x.toModel < y.toModel) = true ↔ _
  rw [decide_eq_true_iff]
  change UnpackedFloat.lt _ _ = true ↔ _
  simp [UnpackedFloat.lt]

theorem le_iff_compare (x y : Float) :
    x ≤ y ↔ x.toModel.unpack.compare y.toModel.unpack = some .lt ∨
      x.toModel.unpack.compare y.toModel.unpack = some .eq := by
  change decide (x.toModel ≤ y.toModel) = true ↔ _
  rw [decide_eq_true_iff]
  change UnpackedFloat.le _ _ = true ↔ _
  unfold UnpackedFloat.le
  rcases UnpackedFloat.compare x.toModel.unpack y.toModel.unpack with _ | o
  · simp
  · cases o <;> simp [Ordering.isLE]

theorem le_of_lt {x y : Float} (h : x < y) : x ≤ y :=
  (le_iff_compare x y).mpr (Or.inl ((lt_iff_compare x y).mp h))

theorem unpack_zero : (0.0 : Float).toModel.unpack = .zero .positive := rfl

theorem unpack_one :
    (1.0 : Float).toModel.unpack = .finite .positive (2 ^ 52) (-52) (by decide) := rfl

theorem isNaN_of_lt {x y : Float} (h : x < y) : x.isNaN = false ∧ y.isNaN = false := by
  rw [lt_iff_compare] at h
  change x.toModel.unpack.isNaN = false ∧ y.toModel.unpack.isNaN = false
  revert h
  cases x.toModel.unpack <;> cases y.toModel.unpack <;>
    simp [UnpackedFloat.compare, UnpackedFloat.isNaN]

/-- A negative number is not beyond one. -/
theorem not_one_le_of_neg {x : Float} (h : x < 0.0) : ¬1.0 ≤ x := by
  rw [lt_iff_compare, unpack_zero] at h
  rw [le_iff_compare, unpack_one]
  revert h
  cases x.toModel.unpack with
  | notANumber => simp [UnpackedFloat.compare]
  | infinity s => cases s <;> simp [UnpackedFloat.compare]
  | zero s => cases s <;> simp [UnpackedFloat.compare]
  | finite s m e hm => cases s <;> simp [UnpackedFloat.compare]

/-- Pulling a number into the unit interval does not change whether it has reached its end. -/
theorem one_le_clampUnit_iff (x : Float) : 1.0 ≤ clampUnit x ↔ 1.0 ≤ x := by
  unfold clampUnit
  split
  · rename_i hneg
    have hzero : ¬(1.0 : Float) ≤ 0.0 := by decide
    simp only [hzero, not_one_le_of_neg hneg]
  · split
    · rename_i hbig
      have hone : (1.0 : Float) ≤ 1.0 := by decide
      simp only [hone, le_of_lt hbig]
    · rfl

theorem positivePart_nonneg (x : Float) : 0.0 ≤ positivePart x := by
  unfold positivePart
  split
  · rename_i hpos
    exact le_of_lt hpos
  · decide

theorem isNaN_clampUnit (x : Float) : (clampUnit x).isNaN = x.isNaN := by
  unfold clampUnit
  split
  · rename_i hneg
    rw [(isNaN_of_lt hneg).1]
    rfl
  · split
    · rename_i hbig
      rw [(isNaN_of_lt hbig).2]
      rfl
    · rfl

end Motion.Number
