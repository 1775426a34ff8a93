import Motion.Proofs.Compile.Steps
import Motion.Proofs.Param.Leaves

namespace Motion

open Param (Value)

section
variable {vars : Formula.Variables} {values found : List Float} {context : String}

/-- Parameters resolve as the leaves of all of them do. -/
theorem resolveParams_eq_ok_iff {entries : List (String × Value)} :
    resolveParams vars context values entries = .ok found ↔
      Value.resolveLeaves vars values (entries.flatMap fun (_, v) => v.leaves) = ⟨found, none⟩ := by
  induction entries generalizing values with
  | nil => simp [resolveParams, Value.resolveLeaves]
  | cons entry rest ih =>
    obtain ⟨key, v⟩ := entry
    rw [List.flatMap_cons, Value.resolveLeaves_append, ← Value.resolveInto_eq_resolveLeaves values v,
      resolveParams]
    cases hv : (v.resolveInto vars values).failure? with
    | some e => simp
    | none => exact ih

theorem getElem_packParams (xs : List Float) (j : Nat) (hj : j < paramCount) :
    (Assignment.packParams xs)[j] = (xs[j]?).elim 0.0 Number.narrow := by
  rw [Assignment.packParams, Vector.getElem_ofFn]

end

namespace Param.Value

/-- A value appends the numbers of its leaves to what is there, from left to right, if all of them
give one, and otherwise those before the first failure. So a motion that resolves has numbers for
all leaves of its parameters, and its parameters are the first of these, with zeros behind them. -/
theorem resolveInto_leaves :
    (∀ (vars : Formula.Variables) (out : List Float) (v : Value),
      ((resolveInto vars out v).failure? = none ↔ ∀ leaf ∈ v.leaves, ∃ x, Gives vars leaf x) ∧
      (∀ found, resolveInto vars out v = ⟨found, none⟩ ↔
        ∃ xs, List.Forall₂ (Gives vars) v.leaves xs ∧ found = out ++ xs) ∧
      ∀ found e, resolveInto vars out v = ⟨found, some e⟩ ↔
        ∃ before leaf after xs, v.leaves = before ++ leaf :: after ∧
          List.Forall₂ (Gives vars) before xs ∧ leaf.resolve vars = .error e ∧ found = out ++ xs) ∧
    ∀ (options : CompileOptions) (m : MotionSpec) (vars : MotionVars) (context : String)
      (attachment : Attachment) (a : Assignment),
      resolveMotion options m vars context attachment = .ok a →
        ∃ xs, List.Forall₂ (Gives vars.lookup) m.params.leaves xs ∧
          ∀ (j : Nat) (hj : j < paramCount), a.params[j] = (xs[j]?).elim 0.0 Number.narrow := by
  constructor
  · intro vars out v
    refine ⟨?_, ?_, ?_⟩
    · have hleaf (leaf : Value) : failure? (leaf.resolve vars) = none ↔ ∃ x, Gives vars leaf x := by
        unfold Gives
        cases leaf.resolve vars <;> simp [failure?]
      simp only [failure?_resolveInto, List.findSome?_eq_none_iff, hleaf]
    · intro found
      rw [resolveInto_eq_resolveLeaves]
      exact resolveLeaves_eq_none_iff
    · intro found e
      rw [resolveInto_eq_resolveLeaves]
      exact resolveLeaves_eq_some_iff
  · intro options m vars context attachment a h
    obtain ⟨_, values, _, _, _, -, hvalues, -, -, -, rfl⟩ := exists_of_resolveMotion h
    obtain ⟨xs, hxs, hfound⟩ := resolveLeaves_eq_none_iff.mp (resolveParams_eq_ok_iff.mp hvalues)
    rw [List.nil_append] at hfound
    subst hfound
    exact ⟨values, hxs, getElem_packParams values⟩

/-- Lists in lists with an empty one among them, which stop at a text, and a motion with more leaves
than parameters. -/
theorem resolveInto_leaves_sway :
    let v : Value := list [number 1.0, list [list [], list [number 2.0, text "x"], number 3.0], text "y"]
    let m : MotionSpec := { MotionSpec.blank with
      primitive := "sway"
      params := .ofList [("direction", list [number 0.5, list [], list [number 1.5]]),
        ("weights", list (List.replicate 12 (number 2.5)))] }
    (∀ vars, resolveInto vars [0.5] v =
      ⟨[0.5, 1.0, 2.0], some ⟨0, .notNumber "x"⟩⟩) ∧
    ∀ vars context, ∃ a, resolveMotion .standard m vars context .gradient = .ok a ∧
      a.params[1] = Number.narrow 1.5 ∧ a.params[11] = Number.narrow 2.5 := by
  intro v m
  refine ⟨?_, ?_⟩
  · intro vars
    have hx : resolve vars (text "x") = .error ⟨0, .notNumber "x"⟩ := rfl
    have hbefore : List.Forall₂ (Gives vars) [number 1.0, number 2.0] [1.0, 2.0] :=
      .cons rfl (.cons rfl .nil)
    exact ((resolveInto_leaves.1 vars [0.5] v).2.2 _ _).mpr
      ⟨_, text "x", [number 3.0, text "y"], _, rfl, hbefore, hx, rfl⟩
  · intro vars context
    have hname : Primitive.ofName? "sway" = some .sway := by decide
    obtain ⟨a, ha⟩ : ∃ a, resolveMotion .standard m vars context .gradient = .ok a := by
      unfold resolveMotion
      rw [show Primitive.ofName? m.primitive = some .sway from hname]
      exact ⟨_, rfl⟩
    obtain ⟨xs, hxs, hentry⟩ := resolveInto_leaves.2 _ _ _ _ _ _ ha
    have hliterals : m.params.leaves = ([0.5, 1.5] ++ List.replicate 12 2.5).map number := rfl
    rw [hliterals, List.forall₂_map_left_iff] at hxs
    have heq := hxs.imp fun _ _ h => Except.ok.inj h
    rw [List.forall₂_eq_eq_eq] at heq
    refine ⟨a, ha, ?_, ?_⟩
    · rw [hentry 1 (by decide), ← heq]
      rfl
    · rw [hentry 11 (by decide), ← heq]
      rfl

end Param.Value

end Motion
