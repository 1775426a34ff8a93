import Motion.Compile.Globals
import Motion.Compile.Targets
import Motion.Program.Basic

/-! Compiling a template for a list of parts: the whole body first and then the rules in order, up
to the first failure. -/
namespace Motion

structure CompileOptions where
  /-- The duration in seconds of a one-shot motion that declares none. -/
  oneShotDuration : Float

namespace CompileOptions

def standard : CompileOptions := ⟨1.0⟩

def shape : Decode.Shape := ⟨"ParserOpts", [.defaulted "one_shot_default_duration"]⟩

def setField (o : CompileOptions) (field : String) (v : Json.Value) :
    Except Decode.Error CompileOptions :=
  match field with
  | "one_shot_default_duration" => return { o with oneShotDuration := ← Decode.double v }
  | _ => .ok o

def decode : Decode.Decoder CompileOptions := shape.record setField standard

end CompileOptions

inductive CompileError where
  | missingWholeBody (templateId : String)
  | unknownPrimitive (name : String)
  | formula (context : String) (cause : Formula.Error)
  | pattern (cause : Pattern.Error)

namespace CompileError

def message : CompileError → String
  | missingWholeBody id => "validation error: template '" ++ id ++ "' has no whole_body"
  | unknownPrimitive name => "unknown primitive '" ++ name ++ "'"
  | formula context cause => "expression error in " ++ context ++ ": " ++ cause.report
  | pattern cause => "pattern error: " ++ cause.message

/-- What lies behind an error, as far as it has a report of its own. -/
def cause? : CompileError → Option String
  | formula _ cause => some cause.report
  | pattern cause => some cause.message
  | _ => none

end CompileError

def resolveParams (vars : Formula.Variables) (context : String) :
    List Float → List (String × Param.Value) → Except CompileError (List Float)
  | values, [] => .ok values
  | values, (key, v) :: rest =>
    let r := v.resolveInto vars values
    match r.failure? with
    | some e => .error (.formula (context ++ ".params." ++ key) e)
    | none => resolveParams vars context r.found rest

def resolveField? (vars : Formula.Variables) (context field : String) (value : Option Param.Value) :
    Except CompileError (Option Float) :=
  match value with
  | none => .ok none
  | some v =>
    match v.resolve vars with
    | .ok x => .ok (some x)
    | .error e => .error (.formula (context ++ "." ++ field) e)

/-- The motion of a spec for one target. -/
def resolveMotion (options : CompileOptions) (m : MotionSpec) (vars : MotionVars) (context : String)
    (attachment : Attachment) : Except CompileError Assignment := do
  let some primitive := Primitive.ofName? m.primitive | .error (.unknownPrimitive m.primitive)
  let values ← resolveParams vars.lookup context [] m.params.entries
  let declared ← resolveField? vars.lookup context "duration" m.duration
  -- a motion without a duration loops, so a one-shot one has to get one
  let duration := match declared with
    | some x => Number.positivePart x
    | none => if primitive.isOneShot then options.oneShotDuration else 0.0
  let phase ← resolveField? vars.lookup context "phase" m.phase
  let start ← resolveField? vars.lookup context "start" m.start
  return { Assignment.new primitive values with
    duration := Number.narrow duration
    phase := Number.narrow (phase.getD 0.0)
    start := Number.narrow (start.getD 0.0)
    attachment }

/-- A program in the making, and the ids that rules have given motions to. -/
structure Compilation where
  program : Program
  claimed : List Nat

namespace Compilation

def assign (c : Compilation) (id : Nat) (a : Assignment) : Compilation :=
  ⟨(c.program.setPart? id a).getD c.program, id :: c.claimed⟩

/-- Gives the targets of a rule their motions, from position `index` on. -/
def applyTo (options : CompileOptions) (r : Rule) (vars : MotionVars) (context : String) :
    Compilation → Nat → List Part → Except CompileError Compilation
  | c, _, [] => .ok c
  | c, index, p :: ps => do
    let vars := { vars with index := Float.ofNat index }
    let a ← resolveMotion options r.motion vars context r.attachment
    applyTo options r vars context (c.assign p.id a) (index + 1) ps

/-- Applies rules in order to the parts that can be encoded. -/
def applyRules (engine : Pattern.Engine) (options : CompileOptions) (vars : MotionVars)
    (parts : List Part) : Compilation → List (Rule × Nat) → Except CompileError Compilation
  | c, [] => .ok c
  | c, (r, i) :: rest => do
    let pattern ← (Pattern.compile engine r.pattern).mapError .pattern
    let found := (Targets.resolve pattern parts c.claimed).parts
    -- a motion sees how many targets its rule has found, not how many parts there are
    let vars := { vars with count := Float.ofNat found.length }
    let c ← applyTo options r vars s!"part_rules[{i}]" c 0 found
    applyRules engine options vars parts c rest

end Compilation

def Template.compile (engine : Pattern.Engine) (options : CompileOptions) (t : Template)
    (parts : List Part) (overrides : Overrides) : Except CompileError Program := do
  let g := Globals.resolve t overrides
  let some wholeBody := t.wholeBody | .error (.missingWholeBody t.id)
  -- parts whose ids cannot be encoded are passed over by the rules, but they count here
  let vars : MotionVars := ⟨g.speed, g.amplitudeScale, 0.0, Float.ofNat parts.length⟩
  let body ← resolveMotion options wholeBody vars "whole_body" .uniform
  let program := Program.new body (Number.narrow g.speed) (Number.narrow g.amplitudeScale)
  let c ← Compilation.applyRules engine options vars (parts.filter Part.isEncodable) ⟨program, []⟩
    t.rules.zipIdx
  return c.program

end Motion
