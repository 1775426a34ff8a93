import Mathlib.Order.Bounds.Defs
import Motion.Compile.Targets
import Motion.Proofs.Pattern.Wildcard
import Motion.Template.Basic

/-! The targets of the rules of a template, without the order in which a compiler finds them. -/
namespace Motion

/-- Whether a rule's pattern matches a part's name. -/
def Rule.names (r : Rule) (p : Part) : Bool := Pattern.isMatch .unlimited p.name r.pattern

/-- Whether a rule's pattern and a part's name suggest the same category. -/
def Rule.suggests (r : Rule) (p : Part) : Bool :=
  (Part.Category.inferText? r.pattern).isSome &&
    Part.Category.inferText? p.name == Part.Category.inferText? r.pattern

namespace Targets

/-- The targets of the rule at a position: the parts that it names or, if there are none, the parts
of the category that it suggests whose ids are those of no target of an earlier rule. -/
def ofRule (parts : List Part) (rules : List Rule) (i : Nat) : List Part :=
  match rules[i]? with
  | none => []
  | some r =>
    match parts.filter r.names with
    | [] => parts.filter fun p =>
        r.suggests p && decide (∀ j : Fin i, ∀ q ∈ ofRule parts rules j, q.id ≠ p.id)
    | found => found
termination_by i
decreasing_by all_goals exact Fin.isLt _

/-- A rule matches the name of a part with an id. -/
def Named (parts : List Part) (rules : List Rule) (s i : Nat) : Prop :=
  ∃ r, rules[i]? = some r ∧ ∃ p ∈ parts, p.id = s ∧ r.names p

/-- A rule matches the name of no part and suggests the category of a part with an id. -/
def Suggested (parts : List Part) (rules : List Rule) (s i : Nat) : Prop :=
  ∃ r, rules[i]? = some r ∧ (∀ p ∈ parts, r.names p = false) ∧
    ∃ p ∈ parts, p.id = s ∧ r.suggests p

/-- A rule has a target with an id. -/
def Targeted (parts : List Part) (rules : List Rule) (s i : Nat) : Prop :=
  ∃ p ∈ ofRule parts rules i, p.id = s

variable {parts : List Part} {rules : List Rule}

theorem parts_resolve_of_exact {pattern : Pattern} (h : matchExact pattern parts ≠ [])
    (claimed : List Nat) :
    (resolve pattern parts claimed).parts = matchExact pattern parts := by
  unfold resolve
  split
  · next hnil => exact absurd hnil h
  · rfl

theorem parts_resolve_of_not_exact {pattern : Pattern} {r : Rule}
    (hsource : pattern.source = r.pattern) (h : matchExact pattern parts = [])
    (claimed : List Nat) :
    (resolve pattern parts claimed).parts =
      parts.filter fun p => !claimed.contains p.id && r.suggests p := by
  unfold resolve
  rw [h, hsource]
  cases hc : Part.Category.inferText? r.pattern with
  | none => simp [matchInferred?, hc, Rule.suggests, Targets.parts]
  | some category =>
    simp only [matchInferred?, hc, Rule.suggests, Option.isSome_some, Bool.true_and,
      Option.bind_eq_bind, Option.bind_some]
    generalize parts.filter _ = found
    cases found with
    | nil => rfl
    | cons p ps => rfl

theorem ofRule_of_none {i : Nat} (h : rules[i]? = none) : ofRule parts rules i = [] := by
  rw [ofRule, h]

theorem ofRule_of_named {i : Nat} {r : Rule} (hr : rules[i]? = some r)
    (h : parts.filter r.names ≠ []) :
    ofRule parts rules i = parts.filter r.names := by
  rw [ofRule, hr]
  dsimp only
  split
  · next hnil => exact absurd hnil h
  · rfl

theorem ofRule_of_not_named {i : Nat} {r : Rule} (hr : rules[i]? = some r)
    (h : parts.filter r.names = []) :
    ofRule parts rules i = parts.filter fun p =>
      r.suggests p &&
        decide (∀ j : Fin i, ∀ q ∈ ofRule parts rules j, q.id ≠ p.id) := by
  rw [ofRule, hr]
  dsimp only
  rw [h]

theorem free_iff {s i : Nat} :
    (∀ j : Fin i, ∀ q ∈ ofRule parts rules j, q.id ≠ s) ↔
      ∀ j < i, ¬Targeted parts rules s j := by
  constructor
  · rintro h j hj ⟨q, hq, hid⟩
    exact h ⟨j, hj⟩ q hq hid
  · intro h j q hq hid
    exact h j j.isLt ⟨q, hq, hid⟩

theorem mem_ofRule_of_not_named {i : Nat} {r : Rule} {p : Part} (hr : rules[i]? = some r)
    (h : parts.filter r.names = []) :
    p ∈ ofRule parts rules i ↔
      p ∈ parts ∧ r.suggests p ∧ ∀ j < i, ¬Targeted parts rules p.id j := by
  rw [ofRule_of_not_named hr h, List.mem_filter, Bool.and_eq_true, decide_eq_true_iff, free_iff]

theorem targeted_of_named {s i : Nat} (h : Named parts rules s i) : Targeted parts rules s i := by
  obtain ⟨r, hr, p, hp, hid, hname⟩ := h
  have hmem : p ∈ parts.filter r.names := List.mem_filter.mpr ⟨hp, hname⟩
  have hne : parts.filter r.names ≠ [] := List.ne_nil_of_mem hmem
  refine ⟨p, ?_, hid⟩
  rw [ofRule_of_named hr hne]
  exact hmem

/-- A rule that names no part of an id can only have such a target by a category, and then no
earlier rule has one. -/
theorem targeted_cases {s i : Nat} (h : Targeted parts rules s i) :
    Named parts rules s i ∨
      Suggested parts rules s i ∧ ∀ j < i, ¬Targeted parts rules s j := by
  obtain ⟨p, hp, rfl⟩ := h
  cases hr : rules[i]? with
  | none =>
    rw [ofRule_of_none hr] at hp
    cases hp
  | some r =>
    by_cases hnil : parts.filter r.names = []
    · obtain ⟨hmem, hsuggests, hfree⟩ := (mem_ofRule_of_not_named hr hnil).mp hp
      have hnone : ∀ q ∈ parts, r.names q = false := by
        intro q hq
        exact Bool.eq_false_iff.mpr (List.filter_eq_nil_iff.mp hnil q hq)
      exact Or.inr ⟨⟨r, hr, hnone, p, hmem, rfl, hsuggests⟩, hfree⟩
    · rw [ofRule_of_named hr hnil] at hp
      obtain ⟨hmem, hname⟩ := List.mem_filter.mp hp
      exact Or.inl ⟨r, hr, p, hmem, rfl, hname⟩

theorem targeted_of_suggested {s i : Nat} (h : Suggested parts rules s i)
    (hfree : ∀ j < i, ¬Targeted parts rules s j) : Targeted parts rules s i := by
  obtain ⟨r, hr, hnone, p, hp, rfl, hsuggests⟩ := h
  have hnil : parts.filter r.names = [] := by
    apply List.filter_eq_nil_iff.mpr
    intro q hq
    exact Bool.eq_false_iff.mp (hnone q hq)
  exact ⟨p, (mem_ofRule_of_not_named hr hnil).mpr ⟨hp, hsuggests, hfree⟩, rfl⟩

theorem mem_of_mem_ofRule {i : Nat} {p : Part} (h : p ∈ ofRule parts rules i) :
    p ∈ parts := by
  cases hr : rules[i]? with
  | none =>
    rw [ofRule_of_none hr] at h
    cases h
  | some r =>
    by_cases hnil : parts.filter r.names = []
    · exact ((mem_ofRule_of_not_named hr hnil).mp h).1
    · rw [ofRule_of_named hr hnil] at h
      exact (List.mem_filter.mp h).1

theorem length_ofRule_le (parts : List Part) (rules : List Rule) (i : Nat) :
    (ofRule parts rules i).length ≤ parts.length := by
  cases hr : rules[i]? with
  | none =>
    rw [ofRule_of_none hr]
    exact Nat.zero_le _
  | some r =>
    by_cases hnil : parts.filter r.names = []
    · rw [ofRule_of_not_named hr hnil]
      exact List.length_filter_le _ _
    · rw [ofRule_of_named hr hnil]
      exact List.length_filter_le _ _

/-- With the ids of all earlier targets claimed, the compiler finds the targets of a rule. -/
theorem parts_resolve_eq_ofRule {engine : Pattern.Engine} {i : Nat} {r : Rule} {pattern : Pattern}
    {claimed : List Nat} (hr : rules[i]? = some r)
    (hp : Pattern.compile engine r.pattern = .ok pattern)
    (hc : ∀ id, id ∈ claimed ↔ ∃ j < i, Targeted parts rules id j) :
    (resolve pattern parts claimed).parts = ofRule parts rules i := by
  have hexact : matchExact pattern parts = parts.filter r.names := by
    apply List.filter_congr
    intro p _
    rw [Rule.names, Pattern.isMatch_of_compile (Pattern.compile_unlimited hp)]
  by_cases hnil : parts.filter r.names = []
  · have hsource : pattern.source = r.pattern := by
      obtain ⟨-, -, rfl⟩ := Pattern.compile_eq_ok_iff.mp hp
      rfl
    rw [parts_resolve_of_not_exact hsource (hexact.trans hnil),
      ofRule_of_not_named hr hnil]
    apply List.filter_congr
    intro p _
    have hfree : (!claimed.contains p.id) =
        decide (∀ j : Fin i, ∀ q ∈ ofRule parts rules j, q.id ≠ p.id) := by
      rw [Bool.eq_iff_iff, decide_eq_true_iff, free_iff, Bool.not_eq_true', ← Bool.not_eq_true,
        List.contains_iff_mem, hc]
      simp only [not_exists, not_and]
    rw [hfree, Bool.and_comm]
  · rw [parts_resolve_of_exact (by rw [hexact]; exact hnil), hexact,
      ofRule_of_named hr hnil]

theorem lt_length_of_targeted {s i : Nat} (h : Targeted parts rules s i) : i < rules.length := by
  apply Nat.lt_of_not_le
  intro hle
  obtain ⟨p, hp, _⟩ := h
  rw [ofRule_of_none (List.getElem?_eq_none hle)] at hp
  cases hp

/-- Between the last rule that names a part of a slot and the end no rule has a target there: a
category is passed over once its ids are claimed. -/
theorem not_targeted_of_isGreatest {s i j : Nat}
    (h : IsGreatest {i | Named parts rules s i} i) (hj : i < j) : ¬Targeted parts rules s j := by
  intro ht
  rcases targeted_cases ht with hn | ⟨_, hfree⟩
  · have hle : j ≤ i := h.2 hn
    omega
  · exact hfree i hj (targeted_of_named h.1)

/-- The first rule that suggests the category of a part of a slot without names is the only one with
a target there. -/
theorem targeted_iff_of_isLeast {s i j : Nat} (hnamed : ∀ j, ¬Named parts rules s j)
    (h : IsLeast {i | Suggested parts rules s i} i) : Targeted parts rules s j ↔ j = i := by
  have hbefore : ∀ j < i, ¬Targeted parts rules s j := by
    intro j hj ht
    have hs := (targeted_cases ht).resolve_left (hnamed j)
    have hle : i ≤ j := h.2 hs.1
    omega
  have hhere := targeted_of_suggested h.1 hbefore
  constructor
  · intro ht
    have hs := (targeted_cases ht).resolve_left (hnamed j)
    have hle : i ≤ j := h.2 hs.1
    rcases Nat.lt_or_eq_of_le hle with hlt | heq
    · exact absurd hhere (hs.2 i hlt)
    · exact heq.symm
  · rintro rfl
    exact hhere

end Targets

end Motion
