import Motion.Template.Check
import Motion.Proofs.Compile.Steps
import Motion.Proofs.Compile.Targets

/-! What the check of a template says about its compilation, by the one condition
`Template.isSound`. -/
namespace Motion

def MotionSpec.isKnown (m : MotionSpec) : Bool := (Primitive.ofName? m.primitive).isSome

/-- Whether a rule has a valid pattern and a motion that exists. -/
def Rule.isSound (r : Rule) : Bool := (Pattern.validate r.pattern).toBool && r.motion.isKnown

/-- Whether a template has a motion for the whole body and the primitives and patterns in it are
right. -/
def Template.isSound (t : Template) : Bool :=
  t.wholeBody.any MotionSpec.isKnown && t.rules.all Rule.isSound

theorem hasErrors_append (xs ys : List Issue) :
    hasErrors (xs ++ ys) = (hasErrors xs || hasErrors ys) := List.any_append

theorem hasErrors_flatMap {α : Type} (f : α → List Issue) (xs : List α) :
    hasErrors (xs.flatMap f) = xs.any fun x => hasErrors (f x) := List.any_flatMap

theorem hasErrors_eq_true_of_mem {issue : Issue} {xs : List Issue} (h : issue ∈ xs)
    (he : issue.isError) : hasErrors xs = true := List.any_eq_true.mpr ⟨issue, h, he⟩

theorem Primitive.ofName?_of_isBlankText {s : String} (h : Text.isBlankText s) :
    Primitive.ofName? s = none := by
  have htrim : Text.trim s.toList = [] := List.isEmpty_iff.mp h
  have hnames : ∀ p ∈ Primitive.all, p.name.toList ≠ [] := by decide
  rw [Primitive.ofName?, List.find?_eq_none, htrim]
  intro p hp
  have hne := hnames p hp
  simpa only [Text.asciiLower, List.map_nil, beq_iff_eq] using hne

namespace Template

theorem hasErrors_checkPrimitive (id : Option String) (base : Path) (m : MotionSpec) :
    hasErrors (checkPrimitive id base m) = !m.isKnown := by
  unfold checkPrimitive MotionSpec.isKnown
  by_cases hblank : Text.isBlankText m.primitive
  · rw [if_pos hblank, Primitive.ofName?_of_isBlankText hblank]
    rfl
  · rw [if_neg hblank]
    cases Primitive.ofName? m.primitive <;> rfl

theorem hasErrors_checkMultiplier (id : Option String) (base : Path) (field : String)
    (value : Option Float) : hasErrors (checkMultiplier id base field value) = false := by
  cases value with
  | none => rfl
  | some x =>
    simp only [checkMultiplier]
    split <;> rfl

theorem hasErrors_checkWholeBody (t : Template) :
    hasErrors t.checkWholeBody = !t.wholeBody.any MotionSpec.isKnown := by
  unfold checkWholeBody
  cases t.wholeBody with
  | none => rfl
  | some m => exact hasErrors_checkPrimitive _ _ m

theorem hasErrors_checkRule (id : Option String) (i : Nat) (r : Rule) :
    hasErrors (checkRule id i r) = !r.isSound := by
  unfold checkRule Rule.isSound
  rw [hasErrors_append, hasErrors_checkPrimitive, Bool.not_and]
  cases Pattern.validate r.pattern <;> rfl

theorem hasErrors_checkRules (id : Option String) (rules : List Rule) :
    hasErrors (rules.zipIdx.flatMap fun (r, i) => checkRule id i r) = !rules.all Rule.isSound := by
  have hfst : (rules.zipIdx.map Prod.fst).any (fun r => !r.isSound) = !rules.all Rule.isSound := by
    rw [List.zipIdx_map_fst, List.not_all_eq_any_not]
  rw [hasErrors_flatMap, ← hfst, List.any_map]
  simp only [hasErrors_checkRule, Function.comp_def]

theorem hasErrors_checkVerbs (t : Template) : hasErrors t.checkVerbs = false := by
  unfold checkVerbs
  split <;> rfl

theorem hasErrors_checkDefaults (t : Template) : hasErrors t.checkDefaults = false := by
  unfold checkDefaults
  cases t.defaults with
  | none => rfl
  | some d =>
    simp only [hasErrors_append, hasErrors_flatMap, hasErrors_checkMultiplier, Bool.or_false]
    exact List.any_eq_false.mpr (by simp)

def checkContents (t : Template) : List Issue :=
  t.checkWholeBody ++ (t.rules.zipIdx.flatMap fun (r, i) => checkRule t.id i r) ++ t.checkVerbs
    ++ t.checkDefaults

theorem check_eq_append (t : Template) : t.check = t.checkId ++ t.checkContents := by
  simp only [check, checkContents, List.append_assoc]

/-- Besides the id, the check finds an error exactly where the template is not sound. -/
theorem hasErrors_checkContents (t : Template) : hasErrors t.checkContents = !t.isSound := by
  rw [checkContents, hasErrors_append, hasErrors_append, hasErrors_append, hasErrors_checkWholeBody,
    hasErrors_checkRules, hasErrors_checkVerbs, hasErrors_checkDefaults, Bool.or_false,
    Bool.or_false, ← Bool.not_and]
  rfl

theorem isSound_of_check {t : Template} (h : hasErrors t.check = false) : t.isSound := by
  rw [check_eq_append, hasErrors_append, hasErrors_checkContents, Bool.or_eq_false_iff] at h
  simpa only [Bool.not_eq_false'] using h.2

/-- An error that is not about the id is about something that makes the template unsound. -/
theorem not_isSound_of_mem_check {t : Template} {issue : Issue} (h : issue ∈ t.check)
    (he : issue.isError)
    (hid : issue ≠ .error t.id [.key "template_id"] "template_id is required") :
    t.isSound = false := by
  have hnot : issue ∉ t.checkId := by
    unfold checkId
    split
    · simpa only [List.mem_singleton] using hid
    · exact List.not_mem_nil
  rw [check_eq_append, List.mem_append] at h
  have hmem : issue ∈ t.checkContents := h.resolve_left hnot
  have herrors := hasErrors_eq_true_of_mem hmem he
  rw [hasErrors_checkContents] at herrors
  exact (Bool.not_eq_true' _).mp herrors

end Template

/-- A step fails in no other way than in a formula. -/
def FailsInFormulas {α : Type} (x : Except CompileError α) : Prop :=
  ∀ e, x = .error e → ∃ context cause, e = .formula context cause

def Fails {α : Type} (x : Except CompileError α) : Prop := ∃ e, x = .error e

section
variable {α β : Type} {x : Except CompileError α} {f : α → Except CompileError β}

theorem failsInFormulas_ok (a : α) : FailsInFormulas (.ok a) := by
  intro e h
  cases h

theorem failsInFormulas_formula (context : String) (cause : Formula.Error) :
    FailsInFormulas (.error (.formula context cause) : Except CompileError α) := by
  intro e h
  cases h
  exact ⟨context, cause, rfl⟩

theorem FailsInFormulas.bind (hx : FailsInFormulas x)
    (hf : ∀ a, x = .ok a → FailsInFormulas (f a)) : FailsInFormulas (x >>= f) := by
  intro e h
  rcases bind_eq_error_iff.mp h with h | ⟨a, ha, h⟩
  · exact hx e h
  · exact hf a ha e h

theorem FailsInFormulas.ok_or_formula (hx : FailsInFormulas x) :
    (∃ a, x = .ok a) ∨ ∃ context cause, x = .error (.formula context cause) := by
  cases x with
  | ok a => exact Or.inl ⟨a, rfl⟩
  | error e =>
    obtain ⟨context, cause, rfl⟩ := hx e rfl
    exact Or.inr ⟨context, cause, rfl⟩

theorem Fails.bind (hx : Fails x) : Fails (x >>= f) := by
  obtain ⟨e, he⟩ := hx
  exact ⟨e, bind_eq_error_iff.mpr (Or.inl he)⟩

theorem fails_bind (hf : ∀ a, Fails (f a)) : Fails (x >>= f) := by
  cases hx : x with
  | error e => exact ⟨e, rfl⟩
  | ok a => exact hf a

end

theorem failsInFormulas_resolveParams (vars : Formula.Variables) (context : String)
    (entries : List (String × Param.Value)) (values : List Float) :
    FailsInFormulas (resolveParams vars context values entries) := by
  induction entries generalizing values with
  | nil => exact failsInFormulas_ok _
  | cons entry rest ih =>
    simp only [resolveParams]
    split
    · exact failsInFormulas_formula _ _
    · exact ih _

theorem failsInFormulas_resolveField? (vars : Formula.Variables) (context field : String)
    (value : Option Param.Value) : FailsInFormulas (resolveField? vars context field value) := by
  unfold resolveField?
  cases value with
  | none => exact failsInFormulas_ok _
  | some v =>
    dsimp only
    split
    · exact failsInFormulas_ok _
    · exact failsInFormulas_formula _ _

theorem failsInFormulas_resolveMotion {m : MotionSpec} (hm : m.isKnown) (options : CompileOptions)
    (vars : MotionVars) (context : String) (attachment : Attachment) :
    FailsInFormulas (resolveMotion options m vars context attachment) := by
  obtain ⟨primitive, hp⟩ := Option.isSome_iff_exists.mp hm
  unfold resolveMotion
  rw [hp]
  apply FailsInFormulas.bind (failsInFormulas_resolveParams _ _ _ _)
  intro values _
  apply FailsInFormulas.bind (failsInFormulas_resolveField? _ _ _ _)
  intro declared _
  apply FailsInFormulas.bind (failsInFormulas_resolveField? _ _ _ _)
  intro phase _
  apply FailsInFormulas.bind (failsInFormulas_resolveField? _ _ _ _)
  intro start _
  exact failsInFormulas_ok _

namespace Compilation

variable {engine : Pattern.Engine} {options : CompileOptions} {vars : MotionVars}
  {parts : List Part}

theorem failsInFormulas_applyTo {r : Rule} (hr : r.motion.isKnown) (context : String)
    (targets : List Part) (c : Compilation) (index : Nat) :
    FailsInFormulas (applyTo options r vars context c index targets) := by
  induction targets generalizing c index with
  | nil => exact failsInFormulas_ok _
  | cons p targets ih =>
    rw [applyTo_cons]
    apply FailsInFormulas.bind (failsInFormulas_resolveMotion hr _ _ _ _)
    intro a _
    exact ih _ _

theorem failsInFormulas_applyRule (hbuilds : engine.Builds) {r : Rule} (hr : r.isSound)
    (c : Compilation) (i : Nat) :
    FailsInFormulas (applyRule engine options vars parts c r i) := by
  obtain ⟨hpattern, hmotion⟩ := (Bool.and_eq_true _ _).mp hr
  obtain ⟨p, hp⟩ := Pattern.exists_compile_eq_ok hbuilds hpattern
  rw [applyRule_of_ok hp]
  exact failsInFormulas_applyTo hmotion _ _ _ _

theorem failsInFormulas_applyRules (hbuilds : engine.Builds) {rules : List (Rule × Nat)}
    (h : ∀ r ∈ rules, r.1.isSound) (c : Compilation) :
    FailsInFormulas (applyRules engine options vars parts c rules) := by
  induction rules generalizing c with
  | nil => exact failsInFormulas_ok _
  | cons rule rest ih =>
    obtain ⟨r, i⟩ := rule
    rw [applyRules_cons]
    apply FailsInFormulas.bind (failsInFormulas_applyRule hbuilds (h (r, i) List.mem_cons_self) c i)
    intro c' _
    exact ih (fun r hr => h r (List.mem_cons_of_mem _ hr)) c'

end Compilation

theorem Template.failsInFormulas_compile {engine : Pattern.Engine} (hbuilds : engine.Builds)
    {t : Template} (ht : t.isSound) (options : CompileOptions) (parts : List Part)
    (overrides : Overrides) : FailsInFormulas (t.compile engine options parts overrides) := by
  obtain ⟨hbody, hrules⟩ := (Bool.and_eq_true _ _).mp ht
  obtain ⟨m, hm, hknown⟩ := (Option.any_eq_true _ _).mp hbody
  have hall : ∀ r ∈ t.rules.zipIdx, r.1.isSound := by
    intro r hr
    exact List.all_eq_true.mp hrules r.1 (List.fst_mem_of_mem_zipIdx hr)
  rw [compile_eq hm]
  apply FailsInFormulas.bind (failsInFormulas_resolveMotion hknown _ _ _ _)
  intro body _
  apply FailsInFormulas.bind (Compilation.failsInFormulas_applyRules hbuilds hall _)
  intro c _
  exact failsInFormulas_ok _

theorem fails_resolveMotion {m : MotionSpec} (hm : m.isKnown = false) (options : CompileOptions)
    (vars : MotionVars) (context : String) (attachment : Attachment) :
    Fails (resolveMotion options m vars context attachment) := by
  have hp : Primitive.ofName? m.primitive = none := by
    simpa only [MotionSpec.isKnown, Option.isSome_eq_false_iff, Option.isNone_iff_eq_none] using hm
  refine ⟨.unknownPrimitive m.primitive, ?_⟩
  unfold resolveMotion
  rw [hp]

namespace Compilation

variable {engine : Pattern.Engine} {options : CompileOptions} {vars : MotionVars}
  {parts : List Part}

theorem fails_applyTo {r : Rule} (hr : r.motion.isKnown = false) (context : String) (p : Part)
    (targets : List Part) (c : Compilation) (index : Nat) :
    Fails (applyTo options r vars context c index (p :: targets)) := by
  rw [applyTo_cons]
  exact (fails_resolveMotion hr _ _ _ _).bind

theorem fails_applyRule_of_compile {r : Rule} {e : Pattern.Error}
    (h : Pattern.compile engine r.pattern = .error e) (c : Compilation) (i : Nat) :
    Fails (applyRule engine options vars parts c r i) := by
  refine ⟨.pattern e, ?_⟩
  rw [applyRule, h]
  rfl

theorem fails_applyRule_of_motion {r : Rule} (hr : r.motion.isKnown = false) {pattern : Pattern}
    (hpattern : Pattern.compile engine r.pattern = .ok pattern) {p : Part}
    (hp : pattern.matchesName p.name) (hmem : p ∈ parts) (c : Compilation) (i : Nat) :
    Fails (applyRule engine options vars parts c r i) := by
  have hne : Targets.matchExact pattern parts ≠ [] := by
    apply List.ne_nil_of_mem
    exact List.mem_filter.mpr ⟨hmem, hp⟩
  obtain ⟨q, qs, hq⟩ := List.exists_cons_of_ne_nil hne
  rw [applyRule_of_ok hpattern, Targets.parts_resolve_of_exact hne, hq]
  exact fails_applyTo hr _ q qs c 0

/-- A rule that fails in every state is reached, or an earlier one fails. -/
theorem fails_applyRules {rules : List (Rule × Nat)} {r : Rule} {i : Nat} (hmem : (r, i) ∈ rules)
    (h : ∀ c, Fails (applyRule engine options vars parts c r i)) (c : Compilation) :
    Fails (applyRules engine options vars parts c rules) := by
  induction rules generalizing c with
  | nil => cases hmem
  | cons rule rest ih =>
    rw [applyRules_cons]
    rcases List.mem_cons.mp hmem with rfl | hrest
    · exact (h c).bind
    · apply fails_bind
      intro c'
      exact ih hrest c'

end Compilation

/-- For every rule that is not sound there is a part, or none is needed, such that the rule fails
whatever the rules before it have done. -/
theorem Rule.exists_fails_of_not_isSound (engine : Pattern.Engine) {r : Rule}
    (hr : r.isSound = false) :
    ∃ parts : List Part, parts.length ≤ 1 ∧ ∀ options vars c i,
      Fails (Compilation.applyRule engine options vars (parts.filter Part.isEncodable) c r i) := by
  cases hpattern : Pattern.compile engine r.pattern with
  | error e =>
    refine ⟨[], Nat.zero_le 1, ?_⟩
    intro options vars c i
    exact Compilation.fails_applyRule_of_compile hpattern c i
  | ok pattern =>
    have hmotion : r.motion.isKnown = false := by
      have hvalid := (Pattern.compile_eq_ok_iff.mp hpattern).1
      simpa [isSound, hvalid, Except.toBool] using hr
    obtain ⟨name, hname⟩ := Pattern.exists_matchesName hpattern
    obtain ⟨p, hp, henc⟩ : ∃ p : Part, pattern.matchesName p.name ∧ p.isEncodable :=
      ⟨⟨1, name, none⟩, hname, rfl⟩
    have hmem : p ∈ [p].filter Part.isEncodable := by
      apply List.mem_filter.mpr
      exact ⟨List.mem_singleton_self p, henc⟩
    refine ⟨[p], Nat.le_refl 1, ?_⟩
    intro options vars c i
    exact Compilation.fails_applyRule_of_motion hmotion hpattern hp hmem c i

/-- A template that is not sound has a list of at most one part for which nothing makes it
compile. -/
theorem Template.exists_fails_of_not_isSound (engine : Pattern.Engine) {t : Template}
    (ht : t.isSound = false) :
    ∃ parts : List Part, parts.length ≤ 1 ∧ ∀ options overrides,
      Fails (t.compile engine options parts overrides) := by
  cases hm : t.wholeBody with
  | none =>
    refine ⟨[], Nat.zero_le 1, ?_⟩
    intro options overrides
    exact ⟨_, compile_of_no_body hm engine options [] overrides⟩
  | some m =>
    cases hknown : m.isKnown with
    | false =>
      refine ⟨[], Nat.zero_le 1, ?_⟩
      intro options overrides
      rw [compile_eq hm]
      exact (fails_resolveMotion hknown _ _ _ _).bind
    | true =>
      have hrules : t.rules.all Rule.isSound = false := by
        simpa only [isSound, hm, Option.any_some, hknown, Bool.true_and] using ht
      obtain ⟨r, hr, hnot⟩ := List.all_eq_false.mp hrules
      obtain ⟨parts, hlength, hfails⟩ :=
        Rule.exists_fails_of_not_isSound engine (Bool.eq_false_iff.mpr hnot)
      obtain ⟨i, hi, hget⟩ := List.getElem_of_mem hr
      have hmem : (r, i) ∈ t.rules.zipIdx := by
        apply List.mem_zipIdx_iff_getElem?.mpr
        rw [List.getElem?_eq_getElem hi, hget]
      refine ⟨parts, hlength, ?_⟩
      intro options overrides
      rw [compile_eq hm]
      apply fails_bind
      intro body
      exact (Compilation.fails_applyRules hmem (fun c => hfails options _ c i) _).bind

/-- The check of a template is sound and complete for its compilation. Where it finds no error and
the engine builds what it is given, the template compiles for all parts, or a formula in it fails;
an error besides that about the id comes with a list of at most one part for which the template does
not compile, whatever the engine. -/
theorem Template.check_decides_compile (engine : Pattern.Engine) (t : Template) :
    (engine.Builds → hasErrors t.check = false → ∀ options parts overrides,
      (∃ p, t.compile engine options parts overrides = .ok p) ∨
        ∃ context cause,
          t.compile engine options parts overrides = .error (.formula context cause)) ∧
    ∀ issue ∈ t.check, issue.isError →
      issue ≠ .error t.id [.key "template_id"] "template_id is required" →
      ∃ parts : List Part, parts.length ≤ 1 ∧ ∀ options overrides, ∃ e,
        t.compile engine options parts overrides = .error e := by
  constructor
  · intro hbuilds h options parts overrides
    exact (failsInFormulas_compile hbuilds (isSound_of_check h) options parts
      overrides).ok_or_formula
  · intro issue h he hid
    exact exists_fails_of_not_isSound engine (not_isSound_of_mem_check h he hid)

/-- A template without errors, and the same one with a rule that names no primitive. -/
theorem Template.check_decides_compile_sway :
    (∀ options parts overrides,
      (∃ p, (⟨"calm", [], some ⟨"sway", .empty, none, none, none⟩, [], none⟩ : Template).compile
        .unlimited options parts overrides = .ok p) ∨
      ∃ context cause,
        (⟨"calm", [], some ⟨"sway", .empty, none, none, none⟩, [], none⟩ : Template).compile
          .unlimited options parts overrides = .error (.formula context cause)) ∧
    ∃ parts : List Part, parts.length ≤ 1 ∧ ∀ options overrides, ∃ e,
      (⟨"calm", [], some ⟨"sway", .empty, none, none, none⟩,
        [⟨"*wing*", ⟨"hop", .empty, none, none, none⟩, .gradient⟩], none⟩ : Template).compile
        .unlimited options parts overrides = .error e := by
  constructor
  · apply (check_decides_compile .unlimited _).1 Pattern.builds_unlimited
    decide +kernel
  · apply (check_decides_compile .unlimited _).2 (.error "calm"
      [.key "part_rules", .index 0, .key "primitive"] "unknown primitive 'hop'")
    · decide +kernel
    · rfl
    · decide +kernel

end Motion
