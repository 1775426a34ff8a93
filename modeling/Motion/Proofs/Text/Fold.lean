import Motion.Proofs.Text.Lowercase
import Motion.Text.Fold

namespace Motion.Text

/-- The code points that folding starts from or leads to, and zero, which stands for a number that
is no code point. -/
def casePoints : List Nat :=
  0 :: lowerRows.flatMap CaseRow.points ++ lowerPoints ++ variantLetters.map (·.1)
    ++ variantLetters.map (·.2)

/-- A character that differs from no other one in case only. -/
def IsCaseless (c : Char) : Prop := c.toNat ∉ casePoints

variable {c : Char}

theorem mem_casePoints_of_covers {r : CaseRow} (hr : r ∈ lowerRows) {n : Nat} (hn : r.covers n) :
    n ∈ casePoints := by
  have hrow : n ∈ lowerRows.flatMap CaseRow.points :=
    List.mem_flatMap.mpr ⟨r, hr, r.mem_points_of_covers hn⟩
  have hfront : n ∈ 0 :: lowerRows.flatMap CaseRow.points := List.mem_cons_of_mem _ hrow
  exact List.mem_append_left _ (List.mem_append_left _ (List.mem_append_left _ hfront))

theorem mem_casePoints_of_mem_lowerPoints {n : Nat} (h : n ∈ lowerPoints) : n ∈ casePoints :=
  List.mem_append_left _ (List.mem_append_left _ (List.mem_append_right _ h))

theorem mem_casePoints_of_variant {v : Nat × Nat} (hv : v ∈ variantLetters) :
    v.1 ∈ casePoints ∧ v.2 ∈ casePoints := by
  constructor
  · exact List.mem_append_left _ (List.mem_append_right _ (List.mem_map_of_mem hv))
  · exact List.mem_append_right _ (List.mem_map_of_mem hv)

theorem toNat_ofNat_mem_casePoints {n : Nat} (h : n ∈ casePoints) :
    (Char.ofNat n).toNat ∈ casePoints := by
  rcases toNat_ofNat_cases n with hn | hn
  · rw [hn]
    exact h
  · have hzero : 0 ∈ casePoints := List.mem_cons_self
    rw [hn]
    exact hzero

theorem lowerSimple_eq_or_mem (a : Char) :
    lowerSimple a = a ∨ (lowerSimple a).toNat ∈ casePoints := by
  cases hfind : lowerRows.find? (·.covers a.toNat) with
  | none =>
    left
    rw [lowerSimple, hfind]
  | some r =>
    right
    have hcovers : r.covers a.toNat := by simpa using List.find?_some hfind
    have hlower : lowerSimple a = Char.ofNat (a.toNat + r.shift).toNat := by
      rw [lowerSimple, hfind]
    rw [hlower]
    apply toNat_ofNat_mem_casePoints
    apply mem_casePoints_of_mem_lowerPoints
    refine List.mem_flatMap.mpr ⟨r, List.mem_of_find?_eq_some hfind, ?_⟩
    exact List.mem_map_of_mem (r.mem_points_of_covers hcovers)

/-- Folding leaves a character alone or leads to one that has case. -/
theorem fold_eq_or_mem (a : Char) : fold a = a ∨ (fold a).toNat ∈ casePoints := by
  have hlower : (if inRanges unfoldedRanges a then a else lowerSimple a) = a ∨
      (if inRanges unfoldedRanges a then a else lowerSimple a).toNat ∈ casePoints := by
    split
    · exact Or.inl rfl
    · exact lowerSimple_eq_or_mem a
  unfold fold
  generalize (if inRanges unfoldedRanges a then a else lowerSimple a) = lower at hlower ⊢
  dsimp only
  cases hfind : variantLetters.find? (·.1 == lower.toNat) with
  | none => exact hlower
  | some v =>
    right
    exact toNat_ofNat_mem_casePoints
      (mem_casePoints_of_variant (List.mem_of_find?_eq_some hfind)).2

theorem fold_of_isCaseless (h : IsCaseless c) : fold c = c := by
  have hlower : lowerSimple c = c := by
    apply lowerSimple_of_not_covers
    intro r hr
    rw [Bool.eq_false_iff]
    intro hcovers
    exact h (mem_casePoints_of_covers hr hcovers)
  have hvariant : variantLetters.find? (·.1 == c.toNat) = none := by
    rw [List.find?_eq_none]
    intro v hv heq
    apply h
    rw [← beq_iff_eq.mp heq]
    exact (mem_casePoints_of_variant hv).1
  simp only [fold, hlower, ite_self, hvariant]

/-- A character without case is the fold of itself alone. -/
theorem fold_eq_iff_of_isCaseless (h : IsCaseless c) (a : Char) : fold a = fold c ↔ a = c := by
  constructor
  · intro heq
    rw [fold_of_isCaseless h] at heq
    rcases fold_eq_or_mem a with hsame | hmem
    · rw [← hsame, heq]
    · rw [heq] at hmem
      exact absurd hmem h
  · rintro rfl
    rfl

end Motion.Text
