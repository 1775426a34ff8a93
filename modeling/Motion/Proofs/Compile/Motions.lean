import Motion.Proofs.Compile.Steps
import Motion.Proofs.Program.Fingerprint

namespace Motion

/-- A motion has been resolved from some spec. -/
def Resolved (options : CompileOptions) (a : Assignment) : Prop :=
  ∃ m vars context attachment, resolveMotion options m vars context attachment = .ok a

/-- What a program holds, in its slots and for the whole body. -/
def Program.Holds (P : Assignment → Prop) (p : Program) : Prop :=
  P p.wholeBody ∧ ∀ s a, p.part? s = some a → P a

variable {options : CompileOptions} {P : Assignment → Prop}

theorem holds_new {body : Assignment} (h : P body) (speed amplitudeScale : Float32) :
    (Program.new body speed amplitudeScale).Holds P := by
  refine ⟨h, ?_⟩
  intro s a hs
  rw [Program.part?, Program.new, Vector.getElem?_replicate] at hs
  split at hs <;> cases hs

theorem Program.Holds.setPart? {p p' : Program} {slot : Nat} {a : Assignment} (h : p.Holds P)
    (ha : P a) (hset : p.setPart? slot a = some p') : p'.Holds P := by
  unfold Program.setPart? at hset
  split at hset
  · cases hset
    refine ⟨h.1, ?_⟩
    intro s b hb
    rw [Program.part?, Vector.getElem?_set] at hb
    split at hb
    · cases hb
      exact ha
    · exact h.2 s b hb
  · cases hset

/-- A property of programs that setting a part to a resolved motion does not take away. -/
def KeptBySetting (options : CompileOptions) (Q : Program → Prop) : Prop :=
  ∀ p slot a p', Resolved options a → Q p → p.setPart? slot a = some p' → Q p'

namespace Compilation

variable {engine : Pattern.Engine} {vars : MotionVars} {parts : List Part} {c c' : Compilation}
  {Q : Program → Prop}

theorem kept_assign {a : Assignment} (hQ : KeptBySetting options Q) (h : Q c.program)
    (ha : Resolved options a) (id : Nat) : Q (c.assign id a).program := by
  unfold assign
  cases hset : c.program.setPart? id a with
  | none =>
    exact h
  | some p => exact hQ _ _ _ _ ha h hset

theorem kept_applyTo {r : Rule} {context : String} {targets : List Part} {index : Nat}
    (hQ : KeptBySetting options Q) (h : Q c.program)
    (hrun : applyTo options r vars context c index targets = .ok c') : Q c'.program := by
  induction targets generalizing c index with
  | nil =>
    cases hrun
    exact h
  | cons p targets ih =>
    rw [applyTo_cons] at hrun
    obtain ⟨a, ha, hrun⟩ := bind_eq_ok_iff.mp hrun
    exact ih (kept_assign hQ h ⟨_, _, _, _, ha⟩ p.id) hrun

theorem kept_applyRule {r : Rule} {i : Nat} (hQ : KeptBySetting options Q) (h : Q c.program)
    (hrun : applyRule engine options vars parts c r i = .ok c') : Q c'.program := by
  obtain ⟨pattern, _, hrun⟩ := bind_eq_ok_iff.mp hrun
  exact kept_applyTo hQ h hrun

theorem kept_applyRules {rules : List (Rule × Nat)} (hQ : KeptBySetting options Q)
    (h : Q c.program) (hrun : applyRules engine options vars parts c rules = .ok c') : Q c'.program := by
  induction rules generalizing c with
  | nil =>
    cases hrun
    exact h
  | cons rule rest ih =>
    obtain ⟨r, i⟩ := rule
    rw [applyRules_cons] at hrun
    obtain ⟨c₁, hstep, hrun⟩ := bind_eq_ok_iff.mp hrun
    exact ih (kept_applyRule hQ h hstep) hrun

end Compilation

namespace Template

variable {t : Template} {engine : Pattern.Engine} {parts : List Part} {overrides : Overrides}
  {p : Program}

/-- A compiled program has what new programs have and setting parts keeps. -/
theorem kept_of_compile {Q : Program → Prop} (hQ : KeptBySetting options Q)
    (hnew : ∀ body speed scale, Resolved options body → Q (.new body speed scale))
    (h : t.compile engine options parts overrides = .ok p) : Q p := by
  cases hm : t.wholeBody with
  | none =>
    rw [compile_of_no_body hm] at h
    cases h
  | some m =>
    rw [compile_eq hm] at h
    obtain ⟨body, hbody, h⟩ := bind_eq_ok_iff.mp h
    obtain ⟨c, hrun, h⟩ := bind_eq_ok_iff.mp h
    cases h
    exact Compilation.kept_applyRules hQ (hnew body _ _ ⟨_, _, _, _, hbody⟩) hrun

/-- What holds of every resolved motion holds of all motions of a compiled program. -/
theorem forall_of_compile (hP : ∀ a, Resolved options a → P a)
    (h : t.compile engine options parts overrides = .ok p) : p.Holds P := by
  apply kept_of_compile _ _ h
  · intro p slot a p' ha hp hset
    exact hp.setPart? (hP a ha) hset
  · intro body speed scale hbody
    exact holds_new (hP body hbody) speed scale

theorem active_of_resolved {a : Assignment} (h : Resolved options a) : a.active := by
  obtain ⟨m, vars, context, attachment, h⟩ := h
  obtain ⟨_, _, _, _, _, -, -, -, -, -, rfl⟩ := exists_of_resolveMotion h
  rfl

theorem allActive_of_compile (h : t.compile engine options parts overrides = .ok p) : p.AllActive := by
  have hall := forall_of_compile (P := fun a => a.active) (fun _ => active_of_resolved) h
  exact ⟨hall.1, fun slot a _ _ => hall.2 slot a⟩

/-- Compiled programs have the same fingerprint wherever an executor gets to see the same. -/
theorem fingerprint_eq_of_compile {t' : Template} {engine' : Pattern.Engine}
    {options' : CompileOptions} {parts' : List Part} {overrides' : Overrides} {p' : Program}
    (h : t.compile engine options parts overrides = .ok p)
    (h' : t'.compile engine' options' parts' overrides' = .ok p')
    (hspeed : p.speed.toBits = p'.speed.toBits)
    (hscale : p.amplitudeScale.toBits = p'.amplitudeScale.toBits) (hencode : p.encode = p'.encode) : Fingerprint.of p = Fingerprint.of p' :=
  Program.fingerprint_eq_of_allActive hspeed hscale hencode (allActive_of_compile h)
    (allActive_of_compile h')

end Template

end Motion
