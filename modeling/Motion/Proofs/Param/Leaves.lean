import Mathlib.Data.List.Forall2
import Motion.Param.Map
import Motion.Proofs.Outcome

/-! A value resolves as the list of its leaves does, however deep its lists are nested. -/
namespace Motion.Param

namespace Value

mutual

/-- The values of a list that are no lists themselves, from left to right. -/
def leaves : Value → List Value
  | list items => itemLeaves items
  | number x => [number x]
  | text s => [text s]

def itemLeaves : List Value → List Value
  | [] => []
  | v :: vs => leaves v ++ itemLeaves vs

end

/-- A leaf resolves to a number. -/
def Gives (vars : Formula.Variables) (leaf : Value) (x : Float) : Prop := leaf.resolve vars = .ok x

/-- Appends the numbers of leaves, one after the other, up to the first failure. -/
def resolveLeaves (vars : Formula.Variables) (out : List Float) : List Value → Resolution
  | [] => ⟨out, none⟩
  | leaf :: rest =>
    match leaf.resolve vars with
    | .ok x => resolveLeaves vars (out ++ [x]) rest
    | .error e => ⟨out, some e⟩

end Value

/-- The leaves of all parameters, from the first declaration to the last one. -/
def Map.leaves (m : Map) : List Value := m.entries.flatMap fun (_, v) => v.leaves

namespace Value

variable {vars : Formula.Variables} {out found : List Float} {leaf : Value} {e : Formula.Error}

theorem resolveLeaves_of_gives {x : Float} (h : Gives vars leaf x) (rest : List Value) :
    resolveLeaves vars out (leaf :: rest) = resolveLeaves vars (out ++ [x]) rest := by
  rw [resolveLeaves, h]

theorem resolveLeaves_of_error (h : leaf.resolve vars = .error e) (rest : List Value) :
    resolveLeaves vars out (leaf :: rest) = ⟨out, some e⟩ := by
  rw [resolveLeaves, h]

/-- Leaves behind others go on from what those have given, unless one of those has failed. -/
theorem resolveLeaves_append (before after : List Value) :
    resolveLeaves vars out (before ++ after) =
      match (resolveLeaves vars out before).failure? with
      | some e => ⟨(resolveLeaves vars out before).found, some e⟩
      | none => resolveLeaves vars (resolveLeaves vars out before).found after := by
  induction before generalizing out with
  | nil => rfl
  | cons leaf rest ih =>
    rw [List.cons_append]
    cases hleaf : leaf.resolve vars with
    | ok x =>
      rw [resolveLeaves_of_gives hleaf, resolveLeaves_of_gives hleaf]
      exact ih
    | error e =>
      rw [resolveLeaves_of_error hleaf, resolveLeaves_of_error hleaf]

mutual

/-- A value resolves as its leaves do. -/
theorem resolveInto_eq_resolveLeaves (out : List Float) (v : Value) :
    resolveInto vars out v = resolveLeaves vars out v.leaves := by
  cases v with
  | list items => exact resolveItems_eq_resolveLeaves out items
  | number x => rfl
  | text s =>
    rw [resolveInto, leaves]
    cases hleaf : resolve vars (text s) with
    | ok x => exact (resolveLeaves_of_gives hleaf []).symm
    | error e => exact (resolveLeaves_of_error hleaf []).symm

theorem resolveItems_eq_resolveLeaves (out : List Float) (items : List Value) :
    resolveItems vars out items = resolveLeaves vars out (itemLeaves items) := by
  cases items with
  | nil => rfl
  | cons v vs =>
    rw [itemLeaves, resolveLeaves_append, ← resolveInto_eq_resolveLeaves out v, resolveItems]
    cases hv : (resolveInto vars out v).failure? with
    | some e => rfl
    | none => exact resolveItems_eq_resolveLeaves _ vs

end

/-- Leaves are passed without a failure if all of them give numbers, and these are appended. -/
theorem resolveLeaves_eq_none_iff {ls : List Value} :
    resolveLeaves vars out ls = ⟨found, none⟩ ↔
      ∃ xs, List.Forall₂ (Gives vars) ls xs ∧ found = out ++ xs := by
  induction ls generalizing out with
  | nil => simp [resolveLeaves, eq_comm]
  | cons leaf rest ih =>
    cases hleaf : leaf.resolve vars with
    | ok x =>
      rw [resolveLeaves_of_gives hleaf, ih]
      constructor
      · rintro ⟨xs, hxs, rfl⟩
        exact ⟨x :: xs, hxs.cons hleaf, (List.append_cons ..).symm⟩
      · rintro ⟨_, _ | ⟨hx, hxs⟩, rfl⟩
        cases hleaf.symm.trans hx
        exact ⟨_, hxs, List.append_cons ..⟩
    | error e =>
      rw [resolveLeaves_of_error hleaf]
      constructor
      · rintro ⟨⟩
      · rintro ⟨_, _ | ⟨hx, -⟩, -⟩
        cases hleaf.symm.trans hx

/-- A failure is that of the first leaf that gives no number, and the numbers before it are kept. -/
theorem resolveLeaves_eq_some_iff {ls : List Value} :
    resolveLeaves vars out ls = ⟨found, some e⟩ ↔
      ∃ before leaf after xs, ls = before ++ leaf :: after ∧ List.Forall₂ (Gives vars) before xs ∧
        leaf.resolve vars = .error e ∧ found = out ++ xs := by
  constructor
  · intro h
    induction ls generalizing out with
    | nil => cases h
    | cons leaf rest ih =>
      cases hleaf : leaf.resolve vars with
      | ok x =>
        rw [resolveLeaves_of_gives hleaf] at h
        obtain ⟨before, failing, after, xs, rfl, hxs, he, rfl⟩ := ih h
        exact ⟨leaf :: before, failing, after, x :: xs, rfl, hxs.cons hleaf, he,
          (List.append_cons ..).symm⟩
      | error e' =>
        rw [resolveLeaves_of_error hleaf] at h
        cases h
        exact ⟨[], leaf, rest, [], rfl, .nil, hleaf, (List.append_nil _).symm⟩
  · rintro ⟨before, leaf, after, xs, rfl, hxs, he, rfl⟩
    have hbefore : resolveLeaves vars out before = ⟨out ++ xs, none⟩ :=
      resolveLeaves_eq_none_iff.mpr ⟨xs, hxs, rfl⟩
    rw [resolveLeaves_append, hbefore]
    exact resolveLeaves_of_error he after

/-- Which leaf fails does not depend on what has been found before. -/
theorem failure?_resolveLeaves (ls : List Value) :
    (resolveLeaves vars out ls).failure? = ls.findSome? fun leaf => failure? (leaf.resolve vars) := by
  induction ls generalizing out with
  | nil => rfl
  | cons leaf rest ih =>
    rw [List.findSome?_cons]
    cases hleaf : leaf.resolve vars with
    | ok x =>
      rw [resolveLeaves_of_gives hleaf]
      exact ih
    | error e =>
      rw [resolveLeaves_of_error hleaf]
      rfl

/-- A value fails where its first failing leaf does, whatever has been found before it. -/
theorem failure?_resolveInto (vars : Formula.Variables) (out : List Float) (v : Value) :
    (resolveInto vars out v).failure? = v.leaves.findSome? fun leaf => failure? (leaf.resolve vars) := by
  rw [resolveInto_eq_resolveLeaves]
  exact failure?_resolveLeaves v.leaves

end Value

end Motion.Param
