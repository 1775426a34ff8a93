import Mathlib.Data.List.Nodup
import Motion.Part.Basic
import Motion.Proofs.Template.Paths

namespace Motion.Part

/-- What can be wrong with a part in its list. -/
inductive Fault where
  /-- The id addresses no slot. -/
  | unaddressed
  /-- An earlier part has the same id. -/
  | repeated
  /-- The parent is no part of the list, neither before nor after this one. -/
  | orphaned (parent : Nat)

namespace Fault

/-- The order of the faults of one part. -/
def rank : Fault → Nat
  | unaddressed => 0
  | repeated => 1
  | orphaned _ => 2

def AppliesTo (parts : List Part) (i : Nat) (p : Part) : Fault → Prop
  | unaddressed => p.id = 0 ∨ 32 < p.id
  | repeated => ∃ j < i, ∃ q, parts[j]? = some q ∧ q.id = p.id
  | orphaned parent => p.parent = some parent ∧ ∀ q ∈ parts, q.id ≠ parent

/-- The warning about the part at a position. -/
def warning (i : Nat) (p : Part) : Fault → Issue
  | unaddressed =>
    ⟨.warning, none, "$[" ++ toString i ++ "]",
      if p.id = 0 then "part '" ++ p.name ++ "' uses reserved id 0"
      else "part '" ++ p.name ++ "' id " ++ toString p.id ++ " exceeds the 32 addressable slots"⟩
  | repeated =>
    ⟨.warning, none, "$[" ++ toString i ++ "]", "duplicate part id " ++ toString p.id⟩
  | orphaned parent =>
    ⟨.warning, none, "$[" ++ toString i ++ "].parent",
      "parent id " ++ toString parent ++ " does not name a part"⟩

end Fault

/-- A fault of the part at a position. -/
structure Finding where
  position : Nat
  part : Part
  fault : Fault

namespace Finding

def warning (f : Finding) : Issue := f.fault.warning f.position f.part

def HoldsOf (parts : List Part) (f : Finding) : Prop :=
  parts[f.position]? = some f.part ∧ f.fault.AppliesTo parts f.position f.part

/-- By position, and at one position by fault. -/
def Before (f g : Finding) : Prop :=
  f.position < g.position ∨ f.position = g.position ∧ f.fault.rank < g.fault.rank

end Finding

variable {parts : List Part} {i : Nat} {p : Part}

theorem isEncodable_iff : p.isEncodable ↔ 1 ≤ p.id ∧ p.id ≤ 32 := by
  rw [isEncodable, Bool.and_eq_true, decide_eq_true_iff, decide_eq_true_iff]
  rfl

theorem not_isEncodable_iff : ¬p.isEncodable ↔ p.id = 0 ∨ 32 < p.id := by
  rw [isEncodable_iff]
  omega

theorem any_take_iff :
    (parts.take i).any (·.id == p.id) ↔ ∃ j < i, ∃ q, parts[j]? = some q ∧ q.id = p.id := by
  simp only [List.any_eq_true, beq_iff_eq, List.mem_take_iff_getElem, List.getElem?_eq_some_iff]
  constructor
  · rintro ⟨q, ⟨j, hj, hq⟩, hid⟩
    exact ⟨j, by omega, q, ⟨by omega, hq⟩, hid⟩
  · rintro ⟨j, hj, q, ⟨hlength, hq⟩, hid⟩
    exact ⟨q, ⟨j, by omega, hq⟩, hid⟩

theorem not_any_iff {parent : Nat} :
    ¬parts.any (·.id == parent) ↔ ∀ q ∈ parts, q.id ≠ parent := by
  simp

instance (parts : List Part) (i : Nat) (p : Part) : DecidablePred (Fault.AppliesTo parts i p)
  | .unaddressed => inferInstanceAs (Decidable (p.id = 0 ∨ 32 < p.id))
  | .repeated => decidable_of_iff _ any_take_iff
  | .orphaned parent =>
    inferInstanceAs (Decidable (p.parent = some parent ∧ ∀ q ∈ parts, q.id ≠ parent))

/-- The faults that a part can have, in order. -/
def possibleFaults (p : Part) : List Fault :=
  [.unaddressed, .repeated] ++ (p.parent.map Fault.orphaned).toList

def faultsAt (parts : List Part) (i : Nat) (p : Part) : List Fault :=
  p.possibleFaults.filter fun f => f.AppliesTo parts i p

theorem mem_faultsAt_iff {f : Fault} : f ∈ faultsAt parts i p ↔ f.AppliesTo parts i p := by
  rw [faultsAt, List.mem_filter, decide_eq_true_iff, and_iff_right_iff_imp]
  intro h
  cases f with
  | unaddressed => exact List.mem_cons_self
  | repeated => exact List.mem_cons_of_mem _ List.mem_cons_self
  | orphaned parent =>
    apply List.mem_append_right
    rw [h.1]
    exact List.mem_singleton_self _

theorem pairwise_faultsAt : (faultsAt parts i p).Pairwise fun f g => f.rank < g.rank := by
  apply List.Pairwise.filter
  unfold possibleFaults
  cases p.parent with
  | none => decide
  | some parent => simp [Fault.rank]

theorem render_index (i : Nat) : Path.render [.index i] = "$[" ++ toString i ++ "]" :=
  (Path.render_index_cons i []).trans String.append_empty

theorem render_index_parent (i : Nat) :
    Path.render [.index i, .key "parent"] = "$[" ++ toString i ++ "].parent" := by
  rw [Path.render_index_cons, String.append_assoc]
  rfl

/-- The warning about a fault where the part has it. -/
def warningIf (parts : List Part) (i : Nat) (p : Part) (f : Fault) : List Issue :=
  if f.AppliesTo parts i p then [f.warning i p] else []

theorem checkId_eq_warningIf (parts : List Part) :
    checkId i p = warningIf parts i p .unaddressed := by
  simp only [warningIf, Fault.AppliesTo, ← not_isEncodable_iff, Fault.warning, ← render_index]
  unfold checkId
  by_cases hzero : p.id = 0
  · have hcode : ¬p.isEncodable := not_isEncodable_iff.mpr (Or.inl hzero)
    rw [if_pos hzero, if_pos hcode, if_pos hzero]
    rfl
  · have hcount : " exceeds the 32 addressable slots" =
        " exceeds the " ++ "32" ++ " addressable slots" := rfl
    rw [if_neg hzero, if_neg hzero, hcount, ← String.append_assoc, ← String.append_assoc]
    simp only [Bool.not_eq_true', Bool.not_eq_true]
    rfl

theorem checkRepeated_eq_warningIf :
    checkRepeated i (parts.take i) p = warningIf parts i p .repeated := by
  simp only [warningIf, Fault.AppliesTo, ← any_take_iff, Fault.warning, ← render_index]
  rfl

theorem checkParent_eq_warningIf {parent : Nat} (h : p.parent = some parent) :
    checkParent i parts p = warningIf parts i p (.orphaned parent) := by
  simp only [warningIf, Fault.AppliesTo, h, true_and, ← not_any_iff, ite_not, Fault.warning,
    ← render_index_parent]
  unfold checkParent
  rw [h]
  rfl

theorem map_warning_faultsAt :
    (faultsAt parts i p).map (Fault.warning i p) =
      p.possibleFaults.flatMap (warningIf parts i p) := by
  unfold faultsAt
  induction p.possibleFaults with
  | nil => rfl
  | cons f rest ih =>
    rw [List.flatMap_cons, ← ih, warningIf]
    by_cases h : f.AppliesTo parts i p
    · simp [h]
    · simp [h]

/-- The findings about a list, part by part. -/
def findings (parts : List Part) : List Finding :=
  parts.zipIdx.flatMap fun (p, i) => (faultsAt parts i p).map (Finding.mk i p)

theorem mem_findings_iff {f : Finding} : f ∈ findings parts ↔ f.HoldsOf parts := by
  simp only [findings, List.mem_flatMap, List.mem_map, Prod.exists, List.mem_zipIdx_iff_getElem?,
    mem_faultsAt_iff]
  constructor
  · rintro ⟨p, i, hp, fault, hfault, rfl⟩
    exact ⟨hp, hfault⟩
  · rintro ⟨hp, hfault⟩
    exact ⟨f.part, f.position, hp, f.fault, hfault, rfl⟩

theorem pairwise_findings (parts : List Part) : (findings parts).Pairwise Finding.Before := by
  rw [findings, List.pairwise_flatMap]
  constructor
  · rintro ⟨p, i⟩ _
    rw [List.pairwise_map]
    exact pairwise_faultsAt.imp fun h => Or.inr ⟨rfl, h⟩
  · have hpositions : parts.zipIdx.Pairwise fun a b => a.2 < b.2 := by
      rw [← List.pairwise_map, List.zipIdx_map_snd]
      exact List.pairwise_lt_range'
    apply hpositions.imp
    rintro ⟨p, i⟩ ⟨q, j⟩ hij f hf g hg
    obtain ⟨_, _, rfl⟩ := List.mem_map.mp hf
    obtain ⟨_, _, rfl⟩ := List.mem_map.mp hg
    exact Or.inl hij

/-- What is checked about one part is whether it has each fault. -/
theorem check_part_eq :
    checkId i p ++ checkRepeated i (parts.take i) p ++ checkParent i parts p =
      (faultsAt parts i p).map (Fault.warning i p) := by
  rw [map_warning_faultsAt, checkId_eq_warningIf parts, checkRepeated_eq_warningIf,
    possibleFaults]
  cases hparent : p.parent with
  | none =>
    have hnone : checkParent i parts p = [] := by rw [checkParent, hparent]
    simp [hnone]
  | some parent => simp [checkParent_eq_warningIf hparent]

/-- The check reports the findings and nothing else. -/
theorem check_eq_map_findings (parts : List Part) :
    check parts = (findings parts).map Finding.warning := by
  rw [check, findings, List.map_flatMap]
  congr 1
  funext ⟨p, i⟩
  dsimp only
  rw [check_part_eq, List.map_map]
  rfl

theorem check_eq_nil_iff : check parts = [] ↔ ∀ f : Finding, ¬f.HoldsOf parts := by
  rw [check_eq_map_findings, List.map_eq_nil_iff, List.eq_nil_iff_forall_not_mem]
  simp only [mem_findings_iff]

/-- A list in which nothing is wrong. -/
structure IsClean (parts : List Part) : Prop where
  addressed : ∀ p ∈ parts, 1 ≤ p.id ∧ p.id ≤ 32
  distinct : (parts.map (·.id)).Nodup
  /-- The parent may come after its part. -/
  rooted : ∀ p ∈ parts, ∀ parent, p.parent = some parent → ∃ q ∈ parts, q.id = parent

theorem nodup_ids_iff : (parts.map (·.id)).Nodup ↔
    ∀ i p, parts[i]? = some p → ¬Fault.repeated.AppliesTo parts i p := by
  rw [List.nodup_iff_pairwise_ne, List.pairwise_map, List.pairwise_iff_getElem]
  simp only [Fault.AppliesTo, List.getElem?_eq_some_iff]
  constructor
  · rintro h i p ⟨hi, rfl⟩ ⟨j, hj, q, ⟨hlength, rfl⟩, hid⟩
    exact h j i hlength hi hj hid
  · intro h j i hj hi hlt hid
    exact h i parts[i] ⟨hi, rfl⟩ ⟨j, hlt, parts[j], ⟨hj, rfl⟩, hid⟩

theorem isClean_iff : IsClean parts ↔ ∀ f : Finding, ¬f.HoldsOf parts := by
  constructor
  · rintro h ⟨i, p, fault⟩ ⟨hp, hfault⟩
    have hmem : p ∈ parts := List.mem_of_getElem? hp
    cases fault with
    | unaddressed =>
      have hcode : p.id = 0 ∨ 32 < p.id := hfault
      obtain ⟨hfirst, hlast⟩ := h.addressed p hmem
      omega
    | repeated => exact nodup_ids_iff.mp h.distinct i p hp hfault
    | orphaned parent =>
      obtain ⟨q, hq, hid⟩ := h.rooted p hmem parent hfault.1
      exact hfault.2 q hq hid
  · intro h
    constructor
    · intro p hmem
      obtain ⟨i, hp⟩ := List.getElem?_of_mem hmem
      have hcode : ¬(p.id = 0 ∨ 32 < p.id) := fun hcode => h ⟨i, p, .unaddressed⟩ ⟨hp, hcode⟩
      omega
    · exact nodup_ids_iff.mpr fun i p hp hfault => h ⟨i, p, .repeated⟩ ⟨hp, hfault⟩
    · intro p hmem parent hparent
      obtain ⟨i, hp⟩ := List.getElem?_of_mem hmem
      by_contra hnone
      exact h ⟨i, p, .orphaned parent⟩ ⟨hp, hparent, fun q hq hid => hnone ⟨q, hq, hid⟩⟩

theorem map_id_ofNames (names : List String) :
    (ofNames names).map (·.id) = List.range' 1 names.length := by
  have hshift : (fun p : Part => p.id) ∘ (fun e : String × Nat => ⟨e.2 + 1, e.1, none⟩) =
      (1 + ·) ∘ Prod.snd := by
    funext e
    exact Nat.add_comm e.2 1
  calc
    (ofNames names).map (·.id) = names.zipIdx.map ((1 + ·) ∘ Prod.snd) := by
      rw [ofNames, List.map_map, ← hshift]
    _ = (List.range' 0 names.length).map (1 + ·) := by
      rw [← List.map_map, List.zipIdx_map_snd]
    _ = List.range' 1 names.length := List.map_add_range' 0 names.length 1

/-- Ids run out with the slots. -/
theorem isClean_ofNames_iff (names : List String) :
    IsClean (ofNames names) ↔ names.length ≤ 32 := by
  constructor
  · intro h
    by_contra hlong
    have hbeyond : 33 ∈ (ofNames names).map (·.id) := by
      rw [map_id_ofNames, List.mem_range'_1]
      omega
    obtain ⟨p, hp, hid⟩ := List.mem_map.mp hbeyond
    have hlast := (h.addressed p hp).2
    omega
  · intro h
    constructor
    · intro p hp
      have hid : p.id ∈ (ofNames names).map (·.id) := List.mem_map_of_mem hp
      rw [map_id_ofNames, List.mem_range'_1] at hid
      omega
    · rw [map_id_ofNames]
      exact List.nodup_range'
    · intro p hp parent hparent
      obtain ⟨⟨name, i⟩, _, rfl⟩ := List.mem_map.mp hp
      cases hparent

/-- The check of a part list is exact: it reports every fault of every part, in order and as a
warning, and so nothing at all for a clean list. -/
theorem check_exact :
    (∀ parts, check parts = [] ↔ IsClean parts) ∧
    (∀ parts, ∃ findings : List Finding, check parts = findings.map Finding.warning ∧
      findings.Pairwise Finding.Before ∧ ∀ f, f ∈ findings ↔ f.HoldsOf parts) ∧
    (∀ parts, ¬hasErrors (check parts)) ∧
    ∀ names, check (ofNames names) = [] ↔ names.length ≤ 32 := by
  have hclean : ∀ parts, check parts = [] ↔ IsClean parts := by
    intro parts
    rw [check_eq_nil_iff, isClean_iff]
  refine ⟨hclean, ?_, ?_, ?_⟩
  · intro parts
    exact ⟨findings parts, check_eq_map_findings parts, pairwise_findings parts,
      fun f => mem_findings_iff⟩
  · intro parts
    rw [check_eq_map_findings, hasErrors, List.any_map, List.any_eq_true]
    rintro ⟨⟨i, p, fault⟩, _, herror⟩
    cases fault <;> cases herror
  · intro names
    rw [hclean, isClean_ofNames_iff]

/-- An id that addresses nothing can be repeated too; a parent is looked for in the whole list. -/
example : (check [⟨0, "rim", some 2⟩, ⟨0, "hub", none⟩, ⟨2, "axle", some 40⟩]).map (·.path) =
    ["$[0]", "$[1]", "$[1]", "$[2].parent"] := by decide +kernel

end Motion.Part
