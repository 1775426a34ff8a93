import Motion.Proofs.Compile.Motions
import Motion.Proofs.Compile.Slots
import Motion.Proofs.Number.Narrowing

/-! How long the motions of a compiled program last. Only the default of one-shot motions can be
negative. -/
namespace Motion

/-- A duration in seconds, where zero stands for a motion that loops. -/
def IsDuration (x : Float32) : Prop := x.isNaN = false ∧ 0.0 ≤ x

theorem isDuration_iff {x : Float32} : IsDuration x ↔ 0.0 ≤ x := by
  constructor
  · intro h
    exact h.2
  · intro h
    exact ⟨(Number.single_le_iff_value.mp h).2.1, h⟩

theorem isDuration_zero : IsDuration 0.0 := by
  unfold IsDuration
  decide

theorem isDuration_narrow {x : Float} (h : 0.0 ≤ x) : IsDuration (Number.narrow x) :=
  isDuration_iff.mpr (Number.narrow_nonneg h)

namespace MotionSpec

variable {options : CompileOptions} {vars : Formula.Variables} {m : MotionSpec} {d : Float32}

theorem Lasts.of_takesDefault (h : m.Lasts options vars d) (hm : m.TakesDefault) :
    d = Number.narrow options.oneShotDuration := by
  cases h with
  | declared hv _ =>
    rw [hm.1] at hv
    cases hv
  | default _ => rfl
  | looping _ hnot => exact absurd hm hnot

/-- Nothing but a negative default makes a duration negative. -/
theorem Lasts.isDuration_iff (h : m.Lasts options vars d) :
    IsDuration d ↔ (m.TakesDefault → 0.0 ≤ Number.narrow options.oneShotDuration) := by
  constructor
  · intro hd hm
    rw [h.of_takesDefault hm] at hd
    exact hd.2
  · intro hdefault
    cases h with
    | declared hv hx => exact isDuration_narrow (Number.positivePart_nonneg _)
    | default hm => exact Motion.isDuration_iff.mpr (hdefault hm)
    | looping hnone hnot => exact isDuration_zero

end MotionSpec

namespace Template

/-- The motions that a template gives, to the whole body and by its rules. -/
def motions (t : Template) : List MotionSpec := t.wholeBody.toList ++ t.rules.map (·.motion)

/-- A rule gives a slot its duration: the one that its motion lasts at the position of its last
target with the id of the slot. -/
def LastsAt (t : Template) (options : CompileOptions) (parts : List Part) (overrides : Overrides)
    (s : Nat) (d : Float32) : Prop :=
  ∃ i r k, t.rules[i]? = some r ∧
    IsGreatest {k | ∃ q, (Targets.ofRule (parts.filter Part.isEncodable) t.rules i)[k]? = some q ∧
      q.id = s} k ∧
    r.motion.Lasts options ((Globals.resolve t overrides).environment k
      (Targets.ofRule (parts.filter Part.isEncodable) t.rules i).length) d

/-- In a compiled program every motion lasts as long as its spec says, or the default says for it.
All durations are numbers that are not negative where the default is one, or where no motion takes
it. -/
theorem durations_of_compile {t : Template} {engine : Pattern.Engine} {options : CompileOptions}
    {parts : List Part} {overrides : Overrides} {p : Program}
    (h : t.compile engine options parts overrides = .ok p) :
    (∃ m, t.wholeBody = some m ∧
      m.Lasts options ((Globals.resolve t overrides).environment 0 parts.length)
        p.wholeBody.duration) ∧
    (∀ s a, p.part? s = some a → t.LastsAt options parts overrides s a.duration) ∧
    ((0.0 ≤ options.oneShotDuration ∨ ∀ m ∈ t.motions, ¬m.TakesDefault) →
      p.Holds fun a => IsDuration a.duration) := by
  cases hm : t.wholeBody with
  | none =>
    rw [compile_of_no_body hm] at h
    cases h
  | some m =>
    obtain ⟨claimed, hbody, happlied⟩ := Slots.applied_of_compile hm h
    have hparts : ∀ s a, p.part? s = some a → t.LastsAt options parts overrides s a.duration := by
      intro s a hs
      obtain ⟨i, r, k, a', hr, hlast, hyields, hslot⟩ := Slots.exists_holds_of_part? happlied hs
      obtain rfl : a' = a := Option.some.inj (hslot.symm.trans hs)
      exact ⟨i, r, k, hr, hlast, hyields.duration⟩
    refine ⟨⟨m, rfl, hbody.duration⟩, hparts, ?_⟩
    intro hdefault
    have hall : ∀ m' ∈ t.motions, m'.TakesDefault →
        0.0 ≤ Number.narrow options.oneShotDuration := by
      intro m' hm' htakes
      rcases hdefault with hnonneg | hnone
      · exact Number.narrow_nonneg hnonneg
      · exact absurd htakes (hnone m' hm')
    constructor
    · apply hbody.duration.isDuration_iff.mpr
      apply hall
      rw [motions, hm]
      exact List.mem_cons_self
    · intro s a hs
      obtain ⟨i, r, k, hr, -, hlasts⟩ := hparts s a hs
      apply hlasts.isDuration_iff.mpr
      apply hall
      exact List.mem_append_right _ (List.mem_map_of_mem (List.mem_of_getElem? hr))

/-- A template whose whole body declares a negative duration and whose rule declares none. -/
def shatter : Template :=
  ⟨"shatter", [], some ⟨"burst", .empty, some (.text "\x7b\x7bspeed - 3\x7d\x7d"), none, none⟩,
    [⟨"shard", ⟨"scatter", .empty, none, none, none⟩, .gradient⟩], none⟩

theorem durations_of_compile_shatter :
    ∃ p, shatter.compile .unlimited .standard [⟨4, "shard", none⟩] .none = .ok p ∧
      (p.part? 4).isSome ∧ p.Holds fun a => IsDuration a.duration := by
  have hok : ((shatter.compile .unlimited .standard [⟨4, "shard", none⟩] .none).toOption.any
      fun p => (p.part? 4).isSome) := by decide +kernel
  cases h : shatter.compile .unlimited .standard [⟨4, "shard", none⟩] .none with
  | error e =>
    rw [h] at hok
    cases hok
  | ok p =>
    rw [h] at hok
    exact ⟨p, rfl, hok, (durations_of_compile h).2.2 (.inl (by decide))⟩

/-- A template with a one-shot motion that declares no duration. -/
def boom : Template := ⟨"boom", [], some ⟨"burst", .empty, none, none, none⟩, [], none⟩

/-- A negative default is the duration of a one-shot motion as it stands. -/
theorem exists_compile_negative_duration :
    ∃ p, boom.compile .unlimited ⟨-1.0⟩ [] .none = .ok p ∧ p.wholeBody.duration = -1.0 ∧
      ¬IsDuration p.wholeBody.duration := by
  have hok : (boom.compile .unlimited ⟨-1.0⟩ [] .none).toBool := by decide +kernel
  cases h : boom.compile .unlimited ⟨-1.0⟩ [] .none with
  | error e =>
    rw [h] at hok
    cases hok
  | ok p =>
    obtain ⟨_, hbody, -⟩ := Slots.applied_of_compile rfl h
    have hdefault : MotionSpec.TakesDefault ⟨"burst", .empty, none, none, none⟩ :=
      ⟨rfl, .burst, by decide +kernel, rfl⟩
    have hduration := hbody.duration.of_takesDefault hdefault
    have hnegative : Number.narrow (-1.0) = -1.0 := rfl
    rw [hnegative] at hduration
    refine ⟨p, rfl, hduration, ?_⟩
    rw [hduration]
    unfold IsDuration
    decide

end Template

end Motion
