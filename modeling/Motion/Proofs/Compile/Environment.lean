import Motion.Proofs.Compile.Params
import Motion.Proofs.Number.Narrowing

/-! What the formulas of a motion see, and the motions that a spec resolves to among it. -/
namespace Motion
open Param (Value)

/-- What a formula can name for the target at a position, counted from zero, among so many. -/
def Globals.environment (g : Globals) (index count : Nat) : Formula.Variables := fun name =>
  if name = "speed" then some g.speed
  else if name = "amplitudeScale" then some g.amplitudeScale
  else if name = "index" then some (Float.ofNat index)
  else if name = "count" then some (Float.ofNat count)
  else none

namespace MotionVars

variable (v : MotionVars)

@[simp] theorem lookup_speed : v.lookup "speed" = some v.speed := rfl

@[simp] theorem lookup_amplitudeScale : v.lookup "amplitudeScale" = some v.amplitudeScale := rfl

@[simp] theorem lookup_index : v.lookup "index" = some v.index := rfl

@[simp] theorem lookup_count : v.lookup "count" = some v.count := rfl

/-- A formula can name nothing else. -/
theorem lookup_eq_none {name : String}
    (h : name ∉ ["speed", "amplitudeScale", "index", "count"]) : v.lookup name = none := by
  simp only [List.mem_cons, List.not_mem_nil, or_false, not_or] at h
  obtain ⟨hspeed, hscale, hindex, hcount⟩ := h
  unfold lookup
  split
  · exact absurd rfl hspeed
  · exact absurd rfl hscale
  · exact absurd rfl hindex
  · exact absurd rfl hcount
  · rfl

end MotionVars

/-- The variables of a target are the environment of its formulas. -/
theorem Globals.lookup_motionVars (g : Globals) (index count : Nat) :
    (g.motionVars index count).lookup = g.environment index count := by
  funext name
  unfold environment
  by_cases hspeed : name = "speed"
  · rw [if_pos hspeed, hspeed, MotionVars.lookup_speed, motionVars]
  by_cases hscale : name = "amplitudeScale"
  · rw [if_neg hspeed, if_pos hscale, hscale, MotionVars.lookup_amplitudeScale, motionVars]
  by_cases hindex : name = "index"
  · rw [if_neg hspeed, if_neg hscale, if_pos hindex, hindex, MotionVars.lookup_index, motionVars]
  by_cases hcount : name = "count"
  · rw [if_neg hspeed, if_neg hscale, if_neg hindex, if_pos hcount, hcount, MotionVars.lookup_count,
      motionVars]
  rw [if_neg hspeed, if_neg hscale, if_neg hindex, if_neg hcount]
  apply MotionVars.lookup_eq_none
  simp [hspeed, hscale, hindex, hcount]

/-- What a field gives that may be left out and then is zero. -/
def Param.FieldGives (vars : Formula.Variables) (value : Option Value) (x : Float) : Prop :=
  value.elim (x = 0.0) fun v => v.Gives vars x

theorem resolveField?_eq_ok_iff {vars : Formula.Variables} {context field : String}
    {value : Option Value} {o : Option Float} :
    resolveField? vars context field value = .ok o ↔
      value = none ∧ o = none ∨ ∃ v x, value = some v ∧ v.Gives vars x ∧ o = some x := by
  unfold resolveField? Value.Gives
  cases value with
  | none => simp [eq_comm]
  | some v => cases hx : v.resolve vars <;> simp [hx, eq_comm]

theorem fieldGives_iff {vars : Formula.Variables} {value : Option Value} {x : Float}
    (context field : String) :
    Param.FieldGives vars value x ↔
      ∃ o, resolveField? vars context field value = .ok o ∧ o.getD 0.0 = x := by
  simp only [resolveField?_eq_ok_iff, Param.FieldGives]
  cases value with
  | none => simp [eq_comm]
  | some v => simp

namespace MotionSpec

/-- The motion ends after the time that the options give to one-shot motions. -/
def TakesDefault (m : MotionSpec) : Prop :=
  m.duration = none ∧ ∃ primitive, Primitive.ofName? m.primitive = some primitive ∧ primitive.isOneShot

/-- The durations that a motion can be compiled to. -/
inductive Lasts (options : CompileOptions) (vars : Formula.Variables) (m : MotionSpec) :
    Float32 → Prop
  | declared {v : Param.Value} {x : Float} (hv : m.duration = some v) (hx : v.resolve vars = .ok x) :
    Lasts options vars m (Number.narrow (Number.positivePart x))
  | default (h : m.TakesDefault) : Lasts options vars m (Number.narrow options.oneShotDuration)
  | looping (hnone : m.duration = none) (h : ¬m.TakesDefault) : Lasts options vars m 0.0

/-- The motion that a spec gives to a target whose formulas see an environment. -/
structure Yields (options : CompileOptions) (vars : Formula.Variables) (m : MotionSpec)
    (attachment : Attachment) (a : Assignment) : Prop where
  primitive : ∃ p, Primitive.ofName? m.primitive = some p ∧ a.primitive = p.id
  /-- The numbers of all leaves, the first of them as parameters. -/
  params : ∃ xs, List.Forall₂ (Value.Gives vars) m.params.leaves xs ∧
    ∀ (j : Nat) (hj : j < paramCount), a.params[j] = (xs[j]?).elim 0.0 Number.narrow
  duration : m.Lasts options vars a.duration
  phase : ∃ x, Param.FieldGives vars m.phase x ∧ a.phase = Number.narrow x
  start : ∃ x, Param.FieldGives vars m.start x ∧ a.start = Number.narrow x
  attachment : a.attachment = attachment
  active : a.active = true

variable {options : CompileOptions} {m : MotionSpec} {vars : MotionVars} {context : String}
  {attachment : Attachment} {a : Assignment} {primitive : Primitive}

theorem takesDefault_iff (hp : Primitive.ofName? m.primitive = some primitive) :
    m.TakesDefault ↔ m.duration = none ∧ primitive.isOneShot = true := by
  unfold TakesDefault
  simp [hp]

/-- The duration that is resolved is the one that the spec has. -/
theorem lasts_iff {d : Float32} (context : String)
    (hp : Primitive.ofName? m.primitive = some primitive) :
    m.Lasts options vars.lookup d ↔
      ∃ declared, resolveField? vars.lookup context "duration" m.duration = .ok declared ∧
        d = Number.narrow (declared.elim
          (if primitive.isOneShot then options.oneShotDuration else 0.0) Number.positivePart) := by
  simp only [resolveField?_eq_ok_iff]
  constructor
  · intro h
    cases h with
    | declared hv hx => exact ⟨_, .inr ⟨_, _, hv, hx, rfl⟩, rfl⟩
    | default h =>
      obtain ⟨hnone, hshot⟩ := (takesDefault_iff hp).mp h
      refine ⟨none, .inl ⟨hnone, rfl⟩, ?_⟩
      rw [Option.elim_none, if_pos hshot]
    | looping hnone h =>
      have hshot : ¬primitive.isOneShot = true :=
        fun hshot => h ((takesDefault_iff hp).mpr ⟨hnone, hshot⟩)
      refine ⟨none, .inl ⟨hnone, rfl⟩, ?_⟩
      rw [Option.elim_none, if_neg hshot, Number.narrow_zero]
  · rintro ⟨declared, ⟨hnone, rfl⟩ | ⟨v, x, hv, hx, rfl⟩, rfl⟩
    · rw [Option.elim_none]
      by_cases hshot : primitive.isOneShot = true
      · rw [if_pos hshot]
        exact .default ((takesDefault_iff hp).mpr ⟨hnone, hshot⟩)
      · rw [if_neg hshot, Number.narrow_zero]
        exact .looping hnone fun h => hshot ((takesDefault_iff hp).mp h).2
    · exact .declared hv hx

theorem yields_of_resolveMotion (h : resolveMotion options m vars context attachment = .ok a) :
    m.Yields options vars.lookup attachment a := by
  obtain ⟨primitive, values, declared, phase, start, hp, hvalues, hduration, hphase, hstart, rfl⟩ :=
    exists_of_resolveMotion h
  obtain ⟨xs, hxs, hfound⟩ := Value.resolveLeaves_eq_none_iff.mp (resolveParams_eq_ok_iff.mp hvalues)
  rw [List.nil_append] at hfound
  subst hfound
  exact {
    primitive := ⟨primitive, hp, rfl⟩
    params := ⟨values, hxs, getElem_packParams values⟩
    duration := (lasts_iff context hp).mpr ⟨declared, hduration, rfl⟩
    phase := ⟨_, (fieldGives_iff context "phase").mpr ⟨phase, hphase, rfl⟩, rfl⟩
    start := ⟨_, (fieldGives_iff context "start").mpr ⟨start, hstart, rfl⟩, rfl⟩
    attachment := rfl
    active := rfl }

theorem resolveMotion_of_yields (h : m.Yields options vars.lookup attachment a)
    (context : String) : resolveMotion options m vars context attachment = .ok a := by
  obtain ⟨primitive, hp, hid⟩ := h.primitive
  obtain ⟨xs, hxs, hparams⟩ := h.params
  obtain ⟨declared, hdeclared, hduration⟩ := (lasts_iff context hp).mp h.duration
  obtain ⟨x, hx, hphase⟩ := h.phase
  obtain ⟨phase, hphaseValue, rfl⟩ := (fieldGives_iff context "phase").mp hx
  obtain ⟨y, hy, hstart⟩ := h.start
  obtain ⟨start, hstartValue, rfl⟩ := (fieldGives_iff context "start").mp hy
  have hvalues : resolveParams vars.lookup context [] m.params.entries = .ok xs :=
    resolveParams_eq_ok_iff.mpr (Value.resolveLeaves_eq_none_iff.mpr ⟨xs, hxs, rfl⟩)
  have hpacked : a.params = Assignment.packParams xs := by
    ext j hj
    rw [hparams j hj, getElem_packParams xs j hj]
  rw [resolveMotion_of_resolved hp hvalues hdeclared hphaseValue hstartValue]
  obtain ⟨id, params, _, _, _, active, _⟩ := a
  cases hid
  cases hpacked
  cases hduration
  cases hphase
  cases hstart
  cases h.attachment
  cases h.active
  rfl

/-- A motion resolves to what its spec yields. -/
theorem resolveMotion_eq_ok_iff :
    resolveMotion options m vars context attachment = .ok a ↔
      m.Yields options vars.lookup attachment a :=
  ⟨yields_of_resolveMotion, fun h => resolveMotion_of_yields h context⟩

end MotionSpec

end Motion
