import Motion.Compile.Basic
import Motion.Proofs.Outcome

/-! Compilation one rule at a time, and what a motion that resolves is made of. -/
namespace Motion

variable {options : CompileOptions} {m : MotionSpec} {vars : MotionVars} {context : String}
  {attachment : Attachment} {a : Assignment}

/-- A motion that resolves has a known primitive, and all of its values give numbers. -/
theorem exists_of_resolveMotion (h : resolveMotion options m vars context attachment = .ok a) :
    ∃ primitive values declared phase start,
      Primitive.ofName? m.primitive = some primitive ∧
      resolveParams vars.lookup context [] m.params.entries = .ok values ∧
      resolveField? vars.lookup context "duration" m.duration = .ok declared ∧
      resolveField? vars.lookup context "phase" m.phase = .ok phase ∧
      resolveField? vars.lookup context "start" m.start = .ok start ∧
      a = { Assignment.new primitive values with
        duration := Number.narrow (declared.elim
          (if primitive.isOneShot then options.oneShotDuration else 0.0) Number.positivePart)
        phase := Number.narrow (phase.getD 0.0)
        start := Number.narrow (start.getD 0.0)
        attachment } := by
  unfold resolveMotion at h
  cases hp : Primitive.ofName? m.primitive with
  | none =>
    rw [hp] at h
    cases h
  | some primitive =>
    rw [hp] at h
    obtain ⟨values, hvalues, h⟩ := bind_eq_ok_iff.mp h
    obtain ⟨declared, hduration, h⟩ := bind_eq_ok_iff.mp h
    obtain ⟨phase, hphase, h⟩ := bind_eq_ok_iff.mp h
    obtain ⟨start, hstart, h⟩ := bind_eq_ok_iff.mp h
    refine ⟨primitive, values, declared, phase, start, rfl, hvalues, hduration, hphase, hstart, ?_⟩
    cases declared <;> exact (Except.ok.inj h).symm

theorem resolveMotion_of_resolved {primitive : Primitive} {values : List Float}
    {declared phase start : Option Float} (hp : Primitive.ofName? m.primitive = some primitive)
    (hvalues : resolveParams vars.lookup context [] m.params.entries = .ok values)
    (hduration : resolveField? vars.lookup context "duration" m.duration = .ok declared)
    (hphase : resolveField? vars.lookup context "phase" m.phase = .ok phase)
    (hstart : resolveField? vars.lookup context "start" m.start = .ok start) :
    resolveMotion options m vars context attachment =
      .ok { Assignment.new primitive values with
        duration := Number.narrow (declared.elim
          (if primitive.isOneShot then options.oneShotDuration else 0.0) Number.positivePart)
        phase := Number.narrow (phase.getD 0.0)
        start := Number.narrow (start.getD 0.0)
        attachment } := by
  unfold resolveMotion
  rw [hp]
  simp only [hvalues, hduration, hphase, hstart, bind, Except.bind]
  cases declared <;> rfl

namespace Compilation

def applyRule (engine : Pattern.Engine) (options : CompileOptions) (vars : MotionVars)
    (parts : List Part) (c : Compilation) (r : Rule) (i : Nat) : Except CompileError Compilation := do
  let pattern ← (Pattern.compile engine r.pattern).mapError .pattern
  let found := (Targets.resolve pattern parts c.claimed).parts
  applyTo options r { vars with count := Float.ofNat found.length } s!"part_rules[{i}]" c 0 found

variable {engine : Pattern.Engine} {parts : List Part}

theorem applyRule_of_ok {r : Rule} {pattern : Pattern}
    (h : Pattern.compile engine r.pattern = .ok pattern) (c : Compilation) (i : Nat) :
    applyRule engine options vars parts c r i =
      applyTo options r
        { vars with
          count := Float.ofNat (Targets.resolve pattern parts c.claimed).parts.length }
        s!"part_rules[{i}]" c 0 (Targets.resolve pattern parts c.claimed).parts := by
  rw [applyRule, h]
  rfl

/-- Every target gets an index of its own, so that of the variables does not count. -/
theorem applyTo_index (r : Rule) (context : String) (x : Float) (c : Compilation) (index : Nat)
    (ps : List Part) :
    applyTo options r { vars with index := x } context c index ps =
      applyTo options r vars context c index ps := by
  cases ps with
  | nil => rfl
  | cons p ps => simp only [applyTo]

theorem applyTo_cons (r : Rule) (context : String) (c : Compilation) (index : Nat) (p : Part)
    (ps : List Part) :
    applyTo options r vars context c index (p :: ps) =
      resolveMotion options r.motion { vars with index := Float.ofNat index } context r.attachment
        >>= fun a => applyTo options r vars context (c.assign p.id a) (index + 1) ps := by
  simp only [applyTo, applyTo_index]

/-- Every rule gets a count of its own, so that of the variables does not count. -/
theorem applyRules_count (x : Float) (c : Compilation) (rules : List (Rule × Nat)) :
    applyRules engine options { vars with count := x } parts c rules =
      applyRules engine options vars parts c rules := by
  cases rules with
  | nil => rfl
  | cons r rest => simp only [applyRules]

theorem applyRules_cons (c : Compilation) (r : Rule) (i : Nat) (rest : List (Rule × Nat)) :
    applyRules engine options vars parts c ((r, i) :: rest) =
      applyRule engine options vars parts c r i >>= fun c =>
        applyRules engine options vars parts c rest := by
  simp only [applyRules, applyRule, applyRules_count, bind_assoc]

end Compilation

/-- The variables of the target at a position among so many. -/
def Globals.motionVars (g : Globals) (index count : Nat) : MotionVars :=
  ⟨g.speed, g.amplitudeScale, Float.ofNat index, Float.ofNat count⟩

theorem ofNat_zero : Float.ofNat 0 = 0.0 := by decide +kernel

namespace Template

variable {t : Template}

/-- The whole body is the first of all parts to its formulas. -/
theorem compile_eq (hm : t.wholeBody = some m) (engine : Pattern.Engine) (options : CompileOptions)
    (parts : List Part) (overrides : Overrides) :
    t.compile engine options parts overrides =
      resolveMotion options m ((Globals.resolve t overrides).motionVars 0 parts.length) "whole_body" .uniform
        >>= fun body =>
          Compilation.applyRules engine options ((Globals.resolve t overrides).motionVars 0 parts.length)
            (parts.filter Part.isEncodable)
            ⟨.new body (Number.narrow (Globals.resolve t overrides).speed)
              (Number.narrow (Globals.resolve t overrides).amplitudeScale), []⟩ t.rules.zipIdx
            >>= fun c => .ok c.program := by
  rw [compile, hm, Globals.motionVars, ofNat_zero]
  rfl

theorem compile_of_no_body (hm : t.wholeBody = none) (engine : Pattern.Engine)
    (options : CompileOptions) (parts : List Part) (overrides : Overrides) :
    t.compile engine options parts overrides = .error (.missingWholeBody t.id) := by
  rw [compile, hm]

end Template

end Motion
