import Mathlib.Data.List.SplitBy
import Motion.Proofs.Pattern.Wildcard

namespace Motion.Pattern
open Motion.Text (isBlank)

/-- Whether what stands between two texts is delimited from both by blanks. -/
def StandsAlone (before after : List Char) : Prop :=
  (∀ c ∈ before.getLast?, isBlank c = true) ∧ ∀ c ∈ after.head?, isBlank c = true

/-- A text without a separator that stands alone. -/
def IsPiece (piece : List Char) : Prop :=
  ∀ before after, piece = before ++ separator ++ after → ¬StandsAlone before after

/-- A text cut at every separator that stands alone. -/
inductive CutAtSeparators : List Char → List (List Char) → Prop
  | last {piece : List Char} (h : IsPiece piece) : CutAtSeparators piece [piece]
  | next {piece rest : List Char} {pieces : List (List Char)} (h : IsPiece piece)
      (hs : StandsAlone piece rest) (hrest : CutAtSeparators rest pieces) :
      CutAtSeparators (piece ++ separator ++ rest) (piece :: pieces)

/-- Runs of blanks and of other characters in turn; the first is of blanks or not. -/
inductive Alternating : Bool → List (List Char) → Prop
  | nil (blank : Bool) : Alternating blank []
  | cons {blank : Bool} {run : List Char} {rest : List (List Char)} (hne : run ≠ [])
      (hrun : ∀ c ∈ run, isBlank c = blank) (hrest : Alternating (!blank) rest) :
      Alternating blank (run :: rest)

variable {blank : Bool} {run : List Char} {rs : List (List Char)}

theorem isBlank_of_isChain {c : Char}
    (h : (c :: run).IsChain fun a b => (isBlank a == isBlank b) = true) :
    ∀ d ∈ c :: run, isBlank d = isBlank c := by
  induction run generalizing c with
  | nil =>
    intro d hd
    rw [List.mem_singleton.mp hd]
  | cons c' run ih =>
    obtain ⟨hc, hrest⟩ := List.isChain_cons_cons.mp h
    intro d hd
    rcases List.mem_cons.mp hd with rfl | hd
    · rfl
    · rw [ih hrest d hd, ← beq_iff_eq.mp hc]

theorem alternating_of_isChain (hne : [] ∉ rs)
    (hrun : ∀ run ∈ rs, run.IsChain fun a b => (isBlank a == isBlank b) = true)
    (hnext : rs.IsChain fun a b => ∃ ha hb, (isBlank (a.getLast ha) == isBlank (b.head hb)) = false) :
    ∃ blank, Alternating blank rs := by
  induction rs with
  | nil => exact ⟨true, .nil true⟩
  | cons run rs ih =>
    cases run with
    | nil => exact absurd List.mem_cons_self hne
    | cons c run =>
      have hsame := isBlank_of_isChain (hrun _ List.mem_cons_self)
      refine ⟨isBlank c, .cons (List.cons_ne_nil c run) hsame ?_⟩
      cases rs with
      | nil => exact .nil _
      | cons next rs =>
        obtain ⟨blank, hrest⟩ := ih (fun h => hne (List.mem_cons_of_mem _ h))
          (fun r h => hrun r (List.mem_cons_of_mem _ h)) hnext.tail
        obtain ⟨⟨_, hnextne, hdiffer⟩, -⟩ := List.isChain_cons_cons.mp hnext
        have hhead : isBlank (next.head hnextne) = blank := by
          cases hrest with
          | cons _ hall _ => exact hall _ (List.head_mem hnextne)
        rw [hsame _ (List.getLast_mem _), hhead, beq_eq_false_iff_ne] at hdiffer
        have hblank : blank = !isBlank c := Bool.eq_not.mpr hdiffer.symm
        rwa [← hblank]

theorem exists_alternating_runs (cs : List Char) : ∃ blank, Alternating blank (runs cs) :=
  alternating_of_isChain (List.nil_notMem_splitBy _ cs)
    (fun _ h => List.isChain_of_mem_splitBy h)
    (List.isChain_getLast_head_splitBy (fun a b => isBlank a == isBlank b) cs)

theorem isBlank_head_of_alternating (h : Alternating blank rs) :
    ∀ c ∈ rs.flatten.head?, isBlank c = blank := by
  cases h with
  | nil => simp
  | cons hne hrun _ =>
    intro c hc
    rw [List.flatten_cons, List.head?_append_of_ne_nil _ hne] at hc
    exact hrun c (List.mem_of_mem_head? hc)

theorem standsAlone_nil_left {after : List Char} (h : ∀ c ∈ after.head?, isBlank c = true) :
    StandsAlone [] after := by
  refine ⟨?_, h⟩
  intro c hc
  cases hc

theorem isPiece_nil : IsPiece [] := by
  intro before after h
  simp [separator] at h

/-- A run before a piece makes a longer piece, unless it is a separator. -/
theorem isPiece_append (hrun : ∀ c ∈ run, isBlank c = blank) (hsep : run ≠ separator)
    {piece : List Char} (hhead : ∀ c ∈ piece.head?, isBlank c = !blank) (h : IsPiece piece) :
    IsPiece (run ++ piece) := by
  intro before after heq ⟨hbefore, hafter⟩
  rw [List.append_assoc] at heq
  rcases List.append_eq_append_iff.mp heq with ⟨front, rfl, hpiece⟩ | ⟨back, rfl, hback⟩
  · apply h front after
    · rw [hpiece, List.append_assoc]
    · refine ⟨?_, hafter⟩
      intro c hc
      apply hbefore
      rw [List.getLast?_append, Option.mem_def.mp hc]
      rfl
  · cases back with
    | nil =>
      exact h [] after hback.symm (standsAlone_nil_left hafter)
    | cons o back =>
      have ho : o = 'O' := (List.cons.inj hback).1.symm
      have hrest : 'R' :: after = back ++ piece := (List.cons.inj hback).2
      have hword : blank = false := by
        rw [← hrun o (List.mem_append_right _ List.mem_cons_self), ho]
        rfl
      have hstart : before = [] := by
        by_contra hne
        have hblank := hbefore _ (List.getLast_mem_getLast? hne)
        rw [hrun _ (List.mem_append_left _ (List.getLast_mem hne)), hword] at hblank
        cases hblank
      cases back with
      | nil =>
        have hblank := hhead 'R' (by rw [← show 'R' :: after = piece from hrest]; rfl)
        rw [hword] at hblank
        cases hblank
      | cons r back =>
        have hr : r = 'R' := (List.cons.inj hrest).1.symm
        have hend : after = back ++ piece := (List.cons.inj hrest).2
        cases back with
        | nil =>
          apply hsep
          rw [hstart, ho, hr]
          rfl
        | cons c back =>
          have hblank := hafter c (by rw [hend]; rfl)
          have hmem : c ∈ before ++ o :: r :: c :: back := by simp
          rw [hrun c hmem, hword] at hblank
          cases hblank

theorem groups_cons_of_ne (h : run ≠ separator) {g : List (List Char)} {gs : List (List (List Char))}
    (hgroups : groups rs = g :: gs) : groups (run :: rs) = (run :: g) :: gs := by
  rw [groups, if_neg h, hgroups]

theorem standsAlone_append {piece rest : List Char} (hlast : piece = [] → ∀ c ∈ run, isBlank c = true)
    (h : StandsAlone piece rest) : StandsAlone (run ++ piece) rest := by
  refine ⟨?_, h.2⟩
  intro c hc
  rw [List.getLast?_append] at hc
  cases hpiece : piece.getLast? with
  | some d =>
    rw [hpiece, Option.some_or] at hc
    exact h.1 c (hpiece ▸ hc)
  | none =>
    rw [hpiece, Option.none_or] at hc
    exact hlast (List.getLast?_eq_none_iff.mp hpiece) c (List.mem_of_mem_getLast? hc)

theorem cutAtSeparators_groups (h : Alternating blank rs) :
    CutAtSeparators rs.flatten ((groups rs).map List.flatten) := by
  induction h with
  | nil => exact .last isPiece_nil
  | @cons blank run rest hne hrun hrest ih =>
    have hhead := isBlank_head_of_alternating hrest
    by_cases hsep : run = separator
    · have hword : blank = false := by
        rw [← hrun 'O' (by rw [hsep]; decide)]
        rfl
      rw [hword] at hhead
      rw [groups, if_pos hsep, List.flatten_cons, hsep]
      exact .next isPiece_nil (standsAlone_nil_left hhead) ih
    · obtain ⟨g, gs, hgroups⟩ := List.exists_cons_of_ne_nil (groups_ne_nil rest)
      rw [groups_cons_of_ne hsep hgroups, List.flatten_cons, List.map_cons, List.flatten_cons]
      rw [hgroups, List.map_cons] at ih
      generalize rest.flatten = cs at *
      generalize g.flatten = piece at *
      generalize gs.map List.flatten = pieces at *
      cases ih with
      | last h => exact .last (isPiece_append hrun hsep hhead h)
      | @next _ cs _ h hs hcut =>
        have hpiece : ∀ c ∈ piece.head?, isBlank c = !blank := by
          intro c hc
          apply hhead
          rw [List.append_assoc, List.head?_append, Option.mem_def.mp hc]
          rfl
        have hlast : piece = [] → ∀ c ∈ run, isBlank c = true := by
          rintro rfl c hc
          have hword : isBlank 'O' = !blank := hhead 'O' rfl
          have hblank : blank = true := by
            cases blank with
            | true => rfl
            | false => cases hword
          rw [hrun c hc, hblank]
        rw [List.append_assoc, ← List.append_assoc run, ← List.append_assoc]
        exact .next (isPiece_append hrun hsep hpiece h) (standsAlone_append hlast hs) hcut

/-- The first separator that stands alone ends the first piece. -/
theorem eq_nil_of_isPiece_append {piece longer rest rest' : List Char} (h : IsPiece (piece ++ longer))
    (hs : StandsAlone piece rest) (heq : separator ++ rest = longer ++ (separator ++ rest')) :
    longer = [] := by
  cases longer with
  | nil => rfl
  | cons o longer =>
    exfalso
    have ho : o = 'O' := (List.cons.inj heq).1.symm
    have htail : 'R' :: rest = longer ++ (separator ++ rest') := (List.cons.inj heq).2
    cases longer with
    | nil => cases (List.cons.inj htail).1
    | cons r longer =>
      have hr : r = 'R' := (List.cons.inj htail).1.symm
      have hrest : rest = longer ++ (separator ++ rest') := (List.cons.inj htail).2
      apply h piece longer
      · rw [ho, hr, List.append_assoc]
        rfl
      · refine ⟨hs.1, ?_⟩
        intro c hc
        apply hs.2
        rw [hrest, List.head?_append, Option.mem_def.mp hc]
        rfl

/-- A text is cut at its separators in one way. -/
theorem CutAtSeparators.unique {cs : List Char} {pieces pieces' : List (List Char)}
    (h : CutAtSeparators cs pieces) (h' : CutAtSeparators cs pieces') : pieces = pieces' := by
  induction h generalizing pieces' with
  | last h =>
    cases h' with
    | last _ => rfl
    | next _ hs _ => exact absurd hs (h _ _ rfl)
  | @next piece rest pieces h hs hrest ih =>
    generalize hcs : piece ++ separator ++ rest = cs at h'
    cases h' with
    | last h' => exact absurd hs (h' _ _ hcs.symm)
    | @next piece' rest' pieces' hpiece' hs' hrest' =>
      rw [List.append_assoc, List.append_assoc] at hcs
      have hpieces : piece = piece' := by
        rcases List.append_eq_append_iff.mp hcs with
          ⟨longer, hlonger, htail⟩ | ⟨longer, hlonger, htail⟩
        · rw [hlonger] at hpiece'
          rw [hlonger, eq_nil_of_isPiece_append hpiece' hs htail, List.append_nil]
        · rw [hlonger] at h
          rw [hlonger, eq_nil_of_isPiece_append h hs' htail, List.append_nil]
      rw [hpieces] at hcs
      have hrests : rest = rest' := List.append_cancel_left (List.append_cancel_left hcs)
      rw [hpieces, ih (hrests ▸ hrest')]

theorem cutAtSeparators_iff (cs : List Char) (pieces : List (List Char)) :
    CutAtSeparators cs pieces ↔ pieces = (groups (runs cs)).map List.flatten := by
  have hcut : CutAtSeparators cs ((groups (runs cs)).map List.flatten) := by
    obtain ⟨blank, hruns⟩ := exists_alternating_runs cs
    have hgroups := cutAtSeparators_groups hruns
    rwa [runs, List.flatten_splitBy] at hgroups
  constructor
  · intro h
    exact h.unique hcut
  · rintro rfl
    exact hcut

theorem alternatives_eq_map_trim {cs : List Char} {pieces : List (List Char)}
    (h : CutAtSeparators cs pieces) : alternatives cs = pieces.map Text.trim := by
  rw [(cutAtSeparators_iff cs pieces).mp h, List.map_map]
  rfl

end Motion.Pattern
