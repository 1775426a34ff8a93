import Motion.Proofs.Compile.Slots
import Motion.Proofs.Param.Leaves

/-! Where a compilation fails: `Template.sites` lists the places in the order in which they are
reached, and the first one that fails by itself decides. -/
namespace Motion

/-- A place in a template where a compilation can fail. -/
inductive Site where
  | wholeBody (templateId : String) (motion : Option MotionSpec)
  | primitive (name : String)
  | value (environment : Formula.Variables) (context : String) (v : Param.Value)
  | pattern (source : String)

/-- What is wrong with a place, whatever surrounds it. -/
def Site.failure? (engine : Pattern.Engine) : Site → Option CompileError
  | wholeBody id motion => if motion.isNone then some (.missingWholeBody id) else none
  | primitive name => if (Primitive.ofName? name).isNone then some (.unknownPrimitive name) else none
  | value environment context v => (Motion.failure? (v.resolve environment)).map (.formula context)
  | pattern source => (Motion.failure? (Pattern.compile engine source)).map .pattern

def fieldSites (vars : Formula.Variables) (context field : String) (value : Option Param.Value) :
    List Site :=
  value.toList.map (.value vars (context ++ "." ++ field))

def paramSites (vars : Formula.Variables) (context : String) (entries : List (String × Param.Value)) :
    List Site :=
  entries.flatMap fun (key, v) => v.leaves.map (.value vars (context ++ ".params." ++ key))

/-- The places of a motion for one target. -/
def MotionSpec.sites (m : MotionSpec) (vars : Formula.Variables) (context : String) : List Site :=
  .primitive m.primitive ::
    (paramSites vars context m.params.entries ++ (fieldSites vars context "duration" m.duration ++
      (fieldSites vars context "phase" m.phase ++ fieldSites vars context "start" m.start)))

/-- The places of a rule with so many targets: its pattern, and its motion once for each target. -/
def Rule.sites (r : Rule) (g : Globals) (i count : Nat) : List Site :=
  .pattern r.pattern :: (List.range count).flatMap fun k =>
    r.motion.sites (g.environment k count) s!"part_rules[{i}]"

/-- The places of a template in the order in which a compilation comes to them. -/
def Template.sites (t : Template) (parts : List Part) (overrides : Overrides) : List Site :=
  let g := Globals.resolve t overrides
  let targets := Targets.ofRule (parts.filter Part.isEncodable) t.rules
  .wholeBody t.id t.wholeBody ::
    ((t.wholeBody.toList.flatMap fun m => m.sites (g.environment 0 parts.length) "whole_body") ++
      t.rules.zipIdx.flatMap fun (r, i) => r.sites g i (targets i).length)

/-- The failure of the first place that has one. -/
def firstFailure? (engine : Pattern.Engine) (sites : List Site) : Option CompileError :=
  sites.findSome? (Site.failure? engine)

variable {engine : Pattern.Engine}

theorem firstFailure?_append (before after : List Site) :
    firstFailure? engine (before ++ after) =
      (firstFailure? engine before).or (firstFailure? engine after) :=
  List.findSome?_append

theorem firstFailure?_cons (site : Site) (rest : List Site) :
    firstFailure? engine (site :: rest) = (site.failure? engine).or (firstFailure? engine rest) := by
  rw [firstFailure?, List.findSome?_cons]
  cases site.failure? engine <;> rfl

variable {options : CompileOptions} {vars : Formula.Variables} {g : Globals} {parts : List Part}
  {rules : List Rule}

theorem firstFailure?_value (context : String) (leaves : List Param.Value) :
    firstFailure? engine (leaves.map (.value vars context)) =
      (leaves.findSome? fun leaf => failure? (leaf.resolve vars)).map (.formula context) := by
  rw [firstFailure?, List.findSome?_map, List.map_findSome?]
  rfl

theorem failure?_resolveParams (context : String) (values : List Float)
    (entries : List (String × Param.Value)) :
    failure? (resolveParams vars context values entries) =
      firstFailure? engine (paramSites vars context entries) := by
  induction entries generalizing values with
  | nil => rfl
  | cons entry rest ih =>
    obtain ⟨key, v⟩ := entry
    have hfirst := Param.Value.failure?_resolveInto vars values v
    rw [paramSites, List.flatMap_cons, firstFailure?_append, firstFailure?_value, ← hfirst]
    simp only [resolveParams]
    cases hv : (v.resolveInto vars values).failure? with
    | some e => rfl
    | none => exact ih _

theorem failure?_resolveField? (context field : String) (value : Option Param.Value) :
    failure? (resolveField? vars context field value) =
      firstFailure? engine (fieldSites vars context field value) := by
  cases value with
  | none => rfl
  | some v =>
    rw [fieldSites, firstFailure?_value]
    unfold resolveField?
    dsimp only
    cases hv : v.resolve vars <;> simp [hv, failure?]

/-- A motion fails in its primitive, in a parameter, or in its duration, phase or start, and in the
first of these that fails. -/
theorem failure?_resolveMotion (m : MotionSpec) (index count : Nat) (context : String)
    (attachment : Attachment) :
    failure? (resolveMotion options m (g.motionVars index count) context attachment) =
      firstFailure? engine (m.sites (g.environment index count) context) := by
  rw [← Globals.lookup_motionVars]
  unfold resolveMotion
  rw [MotionSpec.sites, firstFailure?_cons, firstFailure?_append, firstFailure?_append,
    firstFailure?_append]
  cases hp : Primitive.ofName? m.primitive with
  | none =>
    rw [Site.failure?, hp]
    rfl
  | some primitive =>
    rw [Site.failure?, hp]
    change failure? (resolveParams _ _ _ _ >>= _) = _
    rw [← failure?_resolveParams context [] m.params.entries, ← failure?_resolveField?,
      ← failure?_resolveField?, ← failure?_resolveField?]
    apply failure?_bind
    intro values _
    apply failure?_bind
    intro declared _
    apply failure?_bind
    intro phase _
    cases resolveField? (g.motionVars index count).lookup context "start" m.start <;> rfl

section
open Slots Targets

theorem failure?_applyTo (r : Rule) (context : String) (c : Compilation) (index count : Nat)
    (targets : List Part) :
    failure? (Compilation.applyTo options r (g.motionVars 0 count) context c index targets) =
      firstFailure? engine ((List.range' index targets.length).flatMap fun k =>
        r.motion.sites (g.environment k count) context) := by
  induction targets generalizing c index with
  | nil => rfl
  | cons p targets ih =>
    rw [Compilation.applyTo_cons, List.length_cons, List.range'_succ, List.flatMap_cons,
      firstFailure?_append, ← failure?_resolveMotion]
    apply failure?_bind
    intro a _
    exact ih _ _

theorem failure?_applyRule (total : Nat) {body : Assignment} {i : Nat} {r : Rule} {c : Compilation}
    (h : Applied options g parts rules body i c) (hr : rules[i]? = some r) :
    failure? (Compilation.applyRule engine options (g.motionVars 0 total) parts c r i) =
      firstFailure? engine (r.sites g i (ofRule parts rules i).length) := by
  rw [Rule.sites, firstFailure?_cons, Site.failure?]
  cases hp : Pattern.compile engine r.pattern with
  | error e =>
    rw [Compilation.applyRule, hp]
    rfl
  | ok pattern =>
    rw [Compilation.applyRule_of_ok hp, parts_resolve_eq_ofRule hr hp h.claimed, List.range_eq_range',
      ← failure?_applyTo r _ c 0]
    rfl

theorem failure?_applyRules (total : Nat) {body : Assignment} {rest : List Rule} {i : Nat}
    {c : Compilation} (henc : ∀ p ∈ parts, p.isEncodable) (hrest : rest = rules.drop i)
    (h : Applied options g parts rules body i c) :
    failure? (Compilation.applyRules engine options (g.motionVars 0 total) parts c (rest.zipIdx i)) =
      firstFailure? engine ((rest.zipIdx i).flatMap fun (r, i) =>
        r.sites g i (ofRule parts rules i).length) := by
  -- `Applied` is the invariant again: as long as nothing fails, the ids of all targets are claimed
  induction rest generalizing i c with
  | nil => rfl
  | cons r rest ih =>
    have hr : rules[i]? = some r := by
      rw [← List.head?_drop, ← hrest]
      rfl
    have htail : rest = rules.drop (i + 1) := by
      rw [← List.tail_drop, ← hrest]
      rfl
    rw [List.zipIdx_cons, Compilation.applyRules_cons, List.flatMap_cons, firstFailure?_append,
      ← failure?_applyRule total h hr]
    apply failure?_bind
    intro c₁ hstep
    exact ih htail (applied_succ henc h hr hstep)

end

theorem failure?_pattern_iff {pattern : String} {e : CompileError} :
    (Site.pattern pattern).failure? engine = some e ↔
      (∃ cause, Pattern.validate pattern = .error cause ∧ e = .pattern cause) ∨
        Pattern.validate pattern = .ok () ∧ ∃ message, Pattern.Refuses engine pattern message ∧
          e = .pattern (.invalid pattern message) := by
  simp only [Site.failure?, Option.map_eq_some_iff, failure?_eq_some_iff, Pattern.compile_fails_iff]
  constructor
  · rintro ⟨cause, hcause | ⟨hvalid, message, hrefuses, rfl⟩, rfl⟩
    · exact .inl ⟨cause, hcause, rfl⟩
    · exact .inr ⟨hvalid, message, hrefuses, rfl⟩
  · rintro (⟨cause, hcause, rfl⟩ | ⟨hvalid, message, hrefuses, rfl⟩)
    · exact ⟨cause, .inl hcause, rfl⟩
    · exact ⟨_, .inr ⟨hvalid, message, hrefuses, rfl⟩, rfl⟩

namespace Template

theorem failure?_compile (engine : Pattern.Engine) (t : Template) (options : CompileOptions)
    (parts : List Part) (overrides : Overrides) :
    failure? (t.compile engine options parts overrides) =
      firstFailure? engine (t.sites parts overrides) := by
  rw [sites, firstFailure?_cons, firstFailure?_append]
  cases hm : t.wholeBody with
  | none =>
    rw [compile_of_no_body hm]
    rfl
  | some m =>
    have henc : ∀ p ∈ parts.filter Part.isEncodable, p.isEncodable := by
      intro p hp
      exact (List.mem_filter.mp hp).2
    rw [compile_eq hm, Option.toList_some, List.flatMap_singleton]
    change _ = (firstFailure? engine _).or _
    rw [← failure?_resolveMotion m 0 parts.length "whole_body" .uniform]
    apply failure?_bind
    intro body _
    have hstart : Slots.Applied options (Globals.resolve t overrides) (parts.filter Part.isEncodable)
        t.rules body 0 ⟨.new body (Number.narrow (Globals.resolve t overrides).speed)
          (Number.narrow (Globals.resolve t overrides).amplitudeScale), []⟩ :=
      Slots.applied_zero body _ _
    rw [← failure?_applyRules parts.length henc (List.drop_zero (l := t.rules)).symm hstart]
    cases Compilation.applyRules engine options _ _ _ t.rules.zipIdx <;> rfl

/-- A compilation fails exactly where one of the places of the template fails, and with the failure
of the first one that does. The formulas of a place see the multipliers, the position of the target
and the number of targets. A pattern fails where it is not valid or the engine refuses an
alternative of it. -/
theorem compile_eq_error_iff (engine : Pattern.Engine) (t : Template) (options : CompileOptions)
    (parts : List Part) (overrides : Overrides) :
    (∀ e, t.compile engine options parts overrides = .error e ↔
      ∃ before site after, t.sites parts overrides = before ++ site :: after ∧
        site.failure? engine = some e ∧ ∀ s ∈ before, s.failure? engine = none) ∧
    ((∃ e, t.compile engine options parts overrides = .error e) ↔
      ∃ site ∈ t.sites parts overrides, (site.failure? engine).isSome) ∧
    ∀ pattern e, (Site.pattern pattern).failure? engine = some e ↔
      (∃ cause, Pattern.validate pattern = .error cause ∧ e = .pattern cause) ∨
        Pattern.validate pattern = .ok () ∧ ∃ message, Pattern.Refuses engine pattern message ∧
          e = .pattern (.invalid pattern message) := by
  have hfirst (e : CompileError) : t.compile engine options parts overrides = .error e ↔
      firstFailure? engine (t.sites parts overrides) = some e := by
    rw [← failure?_eq_some_iff, failure?_compile]
  refine ⟨?_, ?_, fun _ _ => failure?_pattern_iff⟩
  · intro e
    rw [hfirst, firstFailure?, List.findSome?_eq_some_iff]
  · rw [← List.findSome?_isSome_iff, Option.isSome_iff_exists]
    exact exists_congr hfirst

end Template

end Motion
