import Mathlib.Data.List.DropRight
import Motion.Text.Lowercase

/-! The normal form of a word is its own normal form, since lower case leads to characters that stay
as they are. -/
namespace Motion.Text

/-- A text that starts and ends with no blank. -/
structure IsTrimmed (cs : List Char) : Prop where
  head : ∀ h : cs ≠ [], isBlank (cs.head h) = false
  last : ∀ h : cs ≠ [], isBlank (cs.getLast h) = false

theorem trimEnd_eq_rdropWhile (cs : List Char) : trimEnd cs = cs.rdropWhile isBlank := rfl

theorem isTrimmed_trim (cs : List Char) : IsTrimmed (trim cs) where
  head h := by
    have hkept : trim cs <+: trimStart cs := List.rdropWhile_prefix isBlank _
    have hne : trimStart cs ≠ [] := by
      intro hnil
      rw [hnil, List.prefix_nil] at hkept
      exact h hkept
    rw [hkept.head h]
    exact List.head_dropWhile_not isBlank hne
  last h := by
    rw [← Bool.not_eq_true]
    exact List.rdropWhile_last_not isBlank (trimStart cs) h

/-- A text is its trimmed form between blanks. -/
theorem exists_eq_append_trim (cs : List Char) : ∃ before after, cs = before ++ (trim cs ++ after) ∧
    (∀ c ∈ before, isBlank c = true) ∧ ∀ c ∈ after, isBlank c = true := by
  have hfront : cs.takeWhile isBlank ++ trimStart cs = cs := List.takeWhile_append_dropWhile
  have hback : trim cs ++ (trimStart cs).rtakeWhile isBlank = trimStart cs := by
    have hreverse := congrArg List.reverse
      (List.takeWhile_append_dropWhile (p := isBlank) (l := (trimStart cs).reverse))
    rwa [List.reverse_append, List.reverse_reverse] at hreverse
  refine ⟨cs.takeWhile isBlank, (trimStart cs).rtakeWhile isBlank, ?_, ?_, ?_⟩
  · rw [hback, hfront]
  · intro c hc
    exact List.mem_takeWhile_imp hc
  · intro c hc
    exact List.mem_rtakeWhile_imp hc

theorem trim_of_isTrimmed {cs : List Char} (h : IsTrimmed cs) : trim cs = cs := by
  cases cs with
  | nil => rfl
  | cons c rest =>
    have hne : c :: rest ≠ [] := List.cons_ne_nil c rest
    have hhead : ¬isBlank c = true := by
      rw [Bool.not_eq_true]
      exact h.head hne
    have hstart : trimStart (c :: rest) = c :: rest := List.dropWhile_cons_of_neg hhead
    have hend : trimEnd (c :: rest) = c :: rest := by
      rw [trimEnd_eq_rdropWhile, List.rdropWhile_eq_self_iff]
      intro _
      rw [Bool.not_eq_true]
      exact h.last hne
    rw [trim, hstart, hend]

/-- A set of numbers as the bits of one number. -/
def pointSet (points : List Nat) : Nat := points.foldr (fun n set => set ||| 1 <<< n) 0

theorem testBit_pointSet (points : List Nat) (n : Nat) :
    (pointSet points).testBit n = decide (n ∈ points) := by
  induction points with
  | nil => simp [pointSet]
  | cons m points ih =>
    have hcons : pointSet (m :: points) = pointSet points ||| 1 <<< m := rfl
    rw [hcons, Nat.testBit_or, ih, Nat.one_shiftLeft, Nat.testBit_two_pow]
    by_cases h : n = m
    · simp [h]
    · simp [h, Ne.symm h]

theorem disjoint_of_land_eq_zero {xs ys : List Nat} (h : pointSet xs &&& pointSet ys = 0) {n : Nat}
    (hx : n ∈ xs) : n ∉ ys := by
  intro hy
  have hbit : (pointSet xs &&& pointSet ys).testBit n = true := by
    rw [Nat.testBit_and, testBit_pointSet, testBit_pointSet, decide_eq_true hx, decide_eq_true hy]
    rfl
  rw [h, Nat.zero_testBit] at hbit
  cases hbit

/-- The code points that a row covers. -/
def CaseRow.points (r : CaseRow) : List Nat :=
  (List.range ((r.last - r.first) / r.step + 1)).map fun k => r.first + k * r.step

theorem CaseRow.mem_points_of_covers {r : CaseRow} {n : Nat} (h : r.covers n) : n ∈ r.points := by
  simp only [covers, Bool.and_eq_true, decide_eq_true_eq, beq_iff_eq, and_assoc] at h
  obtain ⟨hfirst, hlast, hstep⟩ := h
  have hsum : (n - r.first) / r.step * r.step = n - r.first :=
    Nat.div_mul_cancel (Nat.dvd_of_mod_eq_zero hstep)
  have hle : (n - r.first) / r.step ≤ (r.last - r.first) / r.step :=
    Nat.div_le_div_right (Nat.sub_le_sub_right hlast _)
  rw [points, List.mem_map]
  refine ⟨(n - r.first) / r.step, List.mem_range.mpr (Nat.lt_succ_of_le hle), ?_⟩
  rw [hsum, Nat.add_sub_cancel' hfirst]

/-- The code points that some character is moved to. -/
def lowerPoints : List Nat :=
  lowerRows.flatMap fun r => r.points.map fun n : Nat => (n + r.shift).toNat

/-- The code points that lower case never leads to: those of capitals, the dotted capital I among
them, and those of blanks. -/
def leftPoints : List Nat :=
  0x0130 :: lowerRows.flatMap CaseRow.points ++
    blankRanges.flatMap fun r => List.range' r.1 (r.2 + 1 - r.1)

theorem mem_leftPoints_of_covers {r : CaseRow} (hr : r ∈ lowerRows) {n : Nat} (hn : r.covers n) :
    n ∈ leftPoints := by
  apply List.mem_append_left
  apply List.mem_cons_of_mem
  exact List.mem_flatMap.mpr ⟨r, hr, r.mem_points_of_covers hn⟩

theorem mem_leftPoints_of_isBlank {c : Char} (hc : isBlank c) : c.toNat ∈ leftPoints := by
  obtain ⟨r, hr, hc⟩ := List.any_eq_true.mp hc
  simp only [Bool.and_eq_true, decide_eq_true_eq] at hc
  apply List.mem_append_right
  refine List.mem_flatMap.mpr ⟨r, hr, ?_⟩
  rw [List.mem_range'_1]
  omega

theorem not_mem_leftPoints_shifted {r : CaseRow} (hr : r ∈ lowerRows) {n : Nat} (hn : r.covers n) :
    (n + r.shift).toNat ∉ leftPoints := by
  -- as bit sets, since the lists have more than a thousand points each
  have hdisjoint : pointSet lowerPoints &&& pointSet leftPoints = 0 := by decide +kernel
  apply disjoint_of_land_eq_zero hdisjoint
  apply List.mem_flatMap.mpr ⟨r, hr, ?_⟩
  exact List.mem_map_of_mem (r.mem_points_of_covers hn)

/-- A character that lower case leads to, if only from itself. -/
structure IsLowered (c : Char) : Prop where
  lowerChar_eq : lowerChar c = [c]
  ne_sigma : c ≠ '\u03A3'

theorem lowerSimple_of_not_covers {c : Char} (h : ∀ r ∈ lowerRows, r.covers c.toNat = false) :
    lowerSimple c = c := by
  have hnone : lowerRows.find? (·.covers c.toNat) = none := by
    rw [List.find?_eq_none]
    intro r hr
    rw [h r hr]
    exact Bool.false_ne_true
  rw [lowerSimple, hnone]

theorem isLowered_of_not_mem {c : Char} (h : c.toNat ∉ leftPoints) : IsLowered c := by
  have hrows : ∀ r ∈ lowerRows, r.covers c.toNat = false := by
    intro r hr
    rw [Bool.eq_false_iff]
    exact fun hcovers => h (mem_leftPoints_of_covers hr hcovers)
  have hdotted : c ≠ '\u0130' := by
    rintro rfl
    apply h
    apply List.mem_append_left
    exact List.mem_cons_self
  constructor
  · rw [lowerChar, if_neg hdotted, lowerSimple_of_not_covers hrows]
  · rintro rfl
    have hsigma : (⟨0x03A3, 0x03AB, 1, 32⟩ : CaseRow) ∈ lowerRows := by decide +kernel
    have hcovers : (⟨0x03A3, 0x03AB, 1, 32⟩ : CaseRow).covers 0x03A3 := rfl
    exact h (mem_leftPoints_of_covers hsigma hcovers)

theorem not_isBlank_of_not_mem {c : Char} (h : c.toNat ∉ leftPoints) : isBlank c = false := by
  rw [Bool.eq_false_iff]
  exact fun hblank => h (mem_leftPoints_of_isBlank hblank)

/-- A number that is no code point gives the character zero. -/
theorem toNat_ofNat_cases (n : Nat) : (Char.ofNat n).toNat = n ∨ (Char.ofNat n).toNat = 0 := by
  by_cases h : n.isValidChar
  · left
    rw [Char.ofNat, dif_pos h]
    rfl
  · right
    rw [Char.ofNat, dif_neg h]
    rfl

/-- A character without a row stays; any other one is moved to where lower case has nothing more to
do. -/
theorem lowerSimple_cases (c : Char) : lowerSimple c = c ∨ (lowerSimple c).toNat ∉ leftPoints := by
  cases hfind : lowerRows.find? (·.covers c.toNat) with
  | none =>
    left
    rw [lowerSimple, hfind]
  | some r =>
    right
    have hcovers : r.covers c.toNat := by simpa using List.find?_some hfind
    have hlower : lowerSimple c = Char.ofNat (c.toNat + r.shift).toNat := by
      rw [lowerSimple, hfind]
    rw [hlower]
    rcases toNat_ofNat_cases (c.toNat + r.shift).toNat with h | h
    · rw [h]
      exact not_mem_leftPoints_shifted (List.mem_of_find?_eq_some hfind) hcovers
    · have hzero : 0 ∉ leftPoints := by decide +kernel
      rw [h]
      exact hzero

theorem isLowered_of_mem_lowerChar {c d : Char} (hc : c ≠ '\u03A3') (hd : d ∈ lowerChar c) :
    IsLowered d := by
  unfold lowerChar at hd
  split at hd
  · rw [List.mem_pair] at hd
    rcases hd with rfl | rfl
    · exact ⟨by decide +kernel, by decide⟩
    · exact ⟨by decide +kernel, by decide⟩
  · rename_i hdotted
    obtain rfl : d = lowerSimple c := List.mem_singleton.mp hd
    rcases lowerSimple_cases c with hsame | hleft
    · rw [hsame]
      refine ⟨?_, hc⟩
      rw [lowerChar, if_neg hdotted, hsame]
    · exact isLowered_of_not_mem hleft

theorem not_isBlank_of_mem_lowerChar {c d : Char} (hc : isBlank c = false) (hd : d ∈ lowerChar c) :
    isBlank d = false := by
  unfold lowerChar at hd
  split at hd
  · rw [List.mem_pair] at hd
    rcases hd with rfl | rfl
    · rfl
    · rfl
  · obtain rfl : d = lowerSimple c := List.mem_singleton.mp hd
    rcases lowerSimple_cases c with hsame | hleft
    · rw [hsame]
      exact hc
    · exact not_isBlank_of_not_mem hleft

theorem lowerSigma_cases (before after : List Char) :
    lowerSigma before after = '\u03C2' ∨ lowerSigma before after = '\u03C3' := by
  unfold lowerSigma
  split
  · exact Or.inl rfl
  · exact Or.inr rfl

/-- The lower case of one character between what stands before it, nearest first, and behind it. -/
def lowerAt (before : List Char) (c : Char) (after : List Char) : List Char :=
  if c = '\u03A3' then [lowerSigma before after] else lowerChar c

theorem lowercaseFrom_cons (before : List Char) (c : Char) (after : List Char) :
    lowercaseFrom before (c :: after) =
      lowerAt before c after ++ lowercaseFrom (c :: before) after := rfl

theorem lowerAt_ne_nil (before : List Char) (c : Char) (after : List Char) :
    lowerAt before c after ≠ [] := by
  unfold lowerAt lowerChar
  split
  · exact List.cons_ne_nil _ _
  · split
    · exact List.cons_ne_nil _ _
    · exact List.cons_ne_nil _ _

theorem isLowered_of_mem_lowerAt {before after : List Char} {c d : Char}
    (hd : d ∈ lowerAt before c after) : IsLowered d := by
  unfold lowerAt at hd
  split at hd
  · obtain rfl := List.mem_singleton.mp hd
    rcases lowerSigma_cases before after with h | h
    · rw [h]
      exact ⟨by decide +kernel, by decide⟩
    · rw [h]
      exact ⟨by decide +kernel, by decide⟩
  · rename_i hc
    exact isLowered_of_mem_lowerChar hc hd

theorem not_isBlank_of_mem_lowerAt {before after : List Char} {c d : Char} (hc : isBlank c = false)
    (hd : d ∈ lowerAt before c after) : isBlank d = false := by
  unfold lowerAt at hd
  split at hd
  · obtain rfl := List.mem_singleton.mp hd
    rcases lowerSigma_cases before after with h | h
    · rw [h]
      rfl
    · rw [h]
      rfl
  · exact not_isBlank_of_mem_lowerChar hc hd

theorem isLowered_of_mem_lowercaseFrom {before cs : List Char} {d : Char}
    (hd : d ∈ lowercaseFrom before cs) : IsLowered d := by
  induction cs generalizing before with
  | nil => cases hd
  | cons c after ih =>
    rw [lowercaseFrom_cons, List.mem_append] at hd
    rcases hd with hd | hd
    · exact isLowered_of_mem_lowerAt hd
    · exact ih hd

theorem lowercaseFrom_of_isLowered {before cs : List Char} (h : ∀ c ∈ cs, IsLowered c) :
    lowercaseFrom before cs = cs := by
  induction cs generalizing before with
  | nil => rfl
  | cons c after ih =>
    have hc := h c List.mem_cons_self
    have hafter : lowercaseFrom (c :: before) after = after :=
      ih fun d hd => h d (List.mem_cons_of_mem c hd)
    rw [lowercaseFrom_cons, hafter, lowerAt, if_neg hc.ne_sigma, hc.lowerChar_eq]
    rfl

theorem lowercase_lowercase (cs : List Char) : lowercase (lowercase cs) = lowercase cs :=
  lowercaseFrom_of_isLowered fun _ => isLowered_of_mem_lowercaseFrom

theorem not_isBlank_head_lowercaseFrom {before cs : List Char}
    (hcs : ∀ h : cs ≠ [], isBlank (cs.head h) = false) (h : lowercaseFrom before cs ≠ []) :
    isBlank ((lowercaseFrom before cs).head h) = false := by
  cases cs with
  | nil => exact absurd rfl h
  | cons c after =>
    have hne := lowerAt_ne_nil before c after
    have hc : isBlank c = false := hcs (List.cons_ne_nil c after)
    simp only [lowercaseFrom_cons, List.head_append_of_ne_nil hne]
    exact not_isBlank_of_mem_lowerAt hc (List.head_mem hne)

theorem not_isBlank_getLast_lowercaseFrom {before cs : List Char}
    (hcs : ∀ h : cs ≠ [], isBlank (cs.getLast h) = false) (h : lowercaseFrom before cs ≠ []) :
    isBlank ((lowercaseFrom before cs).getLast h) = false := by
  induction cs generalizing before with
  | nil => exact absurd rfl h
  | cons c after ih =>
    simp only [lowercaseFrom_cons]
    cases after with
    | nil =>
      have hc : isBlank c = false := hcs (List.cons_ne_nil c [])
      simp only [lowercaseFrom, List.append_nil]
      exact not_isBlank_of_mem_lowerAt hc (List.getLast_mem _)
    | cons d rest =>
      have hne : lowercaseFrom (c :: before) (d :: rest) ≠ [] := by
        rw [lowercaseFrom_cons]
        exact List.append_ne_nil_of_left_ne_nil (lowerAt_ne_nil _ d rest) _
      have hrest : ∀ h : d :: rest ≠ [], isBlank ((d :: rest).getLast h) = false := by
        intro h
        have hlast := hcs (List.cons_ne_nil c (d :: rest))
        rwa [List.getLast_cons h] at hlast
      rw [List.getLast_append_of_ne_nil _ hne]
      exact ih hrest hne

theorem isTrimmed_lowercase {cs : List Char} (h : IsTrimmed cs) : IsTrimmed (lowercase cs) :=
  ⟨not_isBlank_head_lowercaseFrom h.head, not_isBlank_getLast_lowercaseFrom h.last⟩

theorem normalizeWord_normalizeWord (s : String) :
    normalizeWord (normalizeWord s) = normalizeWord s := by
  have htrimmed : trim (lowercase (trim s.toList)) = lowercase (trim s.toList) :=
    trim_of_isTrimmed (isTrimmed_lowercase (isTrimmed_trim _))
  simp only [normalizeWord, String.toList_ofList, htrimmed, lowercase_lowercase]

end Motion.Text
