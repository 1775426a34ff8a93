import Motion.Proofs.Encoder.ClockTime
import Motion.Proofs.Number.Narrowing

/-! What an encoder says about the progress of a fade, which can be one before the fade lands. -/
namespace Motion
open Number

namespace Fade

variable {f : Fade} {t : Float}

/-- A fade that goes on has a share that is a number. -/
theorem isNaN_share (hl : f.lands t = false) : (f.share t).isNaN = false := by
  apply Bool.eq_false_iff.mpr
  intro hnan
  have hland := (lands_iff (takesTime_of_not_lands hl)).mpr (Or.inr hnan)
  rw [hl] at hland
  cases hland

/-- A fade whose share has reached one lands, with or without a duration that it is measured by. -/
theorem lands_of_one_le_share (h : 1.0 ≤ f.share t) : f.lands t = true := by
  by_cases hf : f.TakesTime
  · exact (lands_iff hf).mpr (Or.inl h)
  · exact lands_of_not_takesTime hf t

theorem progress_between (hl : f.lands t = false) : 0.0 ≤ f.progress t ∧ f.progress t ≤ 1.0 := by
  have hnan := isNaN_share hl
  rw [progress_of_takesTime (takesTime_of_not_lands hl), le_iff_valueOf, le_iff_valueOf,
    isNaN_clampUnit, valueOf_clampUnit hnan, valueOf_zero, valueOf_one]
  have hhigh : max 0 (min 1 (valueOf (f.share t))) ≤ 1 := max_le zero_le_one (min_le_left _ _)
  exact ⟨⟨rfl, hnan, le_max_left _ _⟩, hnan, rfl, hhigh⟩

/-- The unit interval cuts off nothing near to its end. -/
theorem progress_lt_almostOne_iff (hl : f.lands t = false) :
    f.progress t < almostOne ↔ f.share t < almostOne := by
  have hnan := isNaN_share hl
  have hclamp : (clampUnit (f.share t)).isNaN = false := by rw [isNaN_clampUnit, hnan]
  rw [progress_of_takesTime (takesTime_of_not_lands hl), lt_iff_valueOf hclamp rfl,
    lt_iff_valueOf hnan rfl, valueOf_clampUnit hnan, valueOf_almostOne, max_lt_iff, min_lt_iff]
  norm_num

end Fade

/-- The time of the last tick since a fade began, after an action. -/
def Action.lastTick (now : Float) (last : Option Float) : Action → Option Float
  | .tick => some now
  | .crossfadeTo .. => none
  | _ => last

namespace Encoder

/-- A fade reports what it was told by the last tick, and zero if there has been none. -/
structure Reports (last : Option Float) (e : Encoder) : Prop where
  zero : ∀ f, e.fade = some f → last = none → e.progress = 0.0
  share : ∀ f t, e.fade = some f → last = some t →
    f.lands t = false ∧ e.progress = narrow (f.progress t)

variable {last : Option Float} {e : Encoder}

theorem reports_of_fade_eq_none (h : e.fade = none) (last : Option Float) : e.Reports last where
  zero f hf := by
    rw [h] at hf
    cases hf
  share f t hf := by
    rw [h] at hf
    cases hf

theorem reports_crossfadeTo (e : Encoder) (p : Program) (now duration : Float) :
    (e.crossfadeTo p now duration).Reports none where
  zero _ _ _ := rfl
  share _ _ _ ht := by cases ht

theorem reports_tick (e : Encoder) (now : Float) : (e.tick now).Reports (some now) := by
  by_cases hnone : (e.tick now).fade = none
  · exact reports_of_fade_eq_none hnone _
  · obtain ⟨f, -, hl, hfade, hprogress⟩ := tick_of_fade_ne_none hnone
    constructor
    · intro _ _ hlast
      cases hlast
    · intro f' t hf' ht
      obtain rfl : f = f' := Option.some.inj (hfade.symm.trans hf')
      obtain rfl : now = t := Option.some.inj ht
      exact ⟨hl, hprogress⟩

/-- The share at the last tick bounds the progress of a fade, and tells if it is less than one. -/
theorem progress_of_reports (h : e.Reports last) {f : Fade} (hf : e.fade = some f) :
    0.0 ≤ e.progress ∧ e.progress ≤ 1.0 ∧
      (e.progress < 1.0 ↔ ∀ t, last = some t → f.share t < almostOne) := by
  cases last with
  | none =>
    rw [h.zero f hf rfl]
    have hless : (0.0 : Float32) < 1.0 := by decide
    have hnone : ∀ t, none = some t → f.share t < almostOne := by
      intro t ht
      cases ht
    exact ⟨by decide, by decide, iff_of_true hless hnone⟩
  | some t =>
    obtain ⟨hl, hprogress⟩ := h.share f t hf rfl
    obtain ⟨hlow, hhigh⟩ := Fade.progress_between hl
    rw [hprogress]
    refine ⟨narrow_nonneg hlow, narrow_le_one hhigh, ?_⟩
    rw [narrow_lt_one_iff hlow hhigh, Fade.progress_lt_almostOne_iff hl]
    simp only [Option.some.injEq, forall_eq']

end Encoder

namespace Session

/-- The time of the last tick since the fade in progress began, after some actions. -/
def lastTick (last : Option Float) (c : Clock) : List Action → Option Float
  | [] => last
  | a :: rest => lastTick (a.lastTick c.now last) (c.step a) rest

variable {last : Option Float}

theorem reports_step {s : Session} (h : s.encoder.Reports last) (a : Action) :
    (s.step a).encoder.Reports (a.lastTick s.clock.now last) := by
  cases a with
  | setProgram p => exact Encoder.reports_of_fade_eq_none rfl _
  | crossfadeTo p duration => exact Encoder.reports_crossfadeTo s.encoder p s.clock.now duration
  | tick => exact Encoder.reports_tick s.encoder s.clock.now
  | clear => exact Encoder.reports_of_fade_eq_none rfl _
  | dispose => exact Encoder.reports_of_fade_eq_none rfl _
  | attributes count partIds weights => exact ⟨h.zero, h.share⟩
  | advance ms => exact h
  | setClock ms => exact h

theorem reports_run {s : Session} (h : s.encoder.Reports last) (actions : List Action) :
    (s.run actions).encoder.Reports (lastTick last s.clock actions) := by
  induction actions generalizing s last with
  | nil => exact h
  | cons a rest ih =>
    have hstep := ih (reports_step h a)
    rw [clock_step] at hstep
    exact hstep

/-- Whatever a host does with a fresh encoder, the progress is zero unless it is fading, and from
zero to one while it is. It is less than one as long as the share of the time that had passed at the
last tick is below the number that narrowing takes to one. The tick at which the share itself has
reached one lands the fade and resets the progress. -/
theorem progress_of_run (start : Float) (actions : List Action) :
    let e := ((Session.start start).run actions).encoder
    (e.state ≠ .blending → e.progress = 0.0) ∧
    (e.state = .blending → ∃ f, e.fade = some f ∧ 0.0 ≤ e.progress ∧ e.progress ≤ 1.0 ∧
      (e.progress < 1.0 ↔
        ∀ t, lastTick none ⟨start⟩ actions = some t → f.share t < almostOne)) ∧
    ∀ f now, e.fade = some f → 1.0 ≤ f.share now →
      (e.tick now).state = .active ∧ (e.tick now).progress = 0.0 := by
  intro e
  have hnew : (Session.start start).encoder.Follows .idle [] := Encoder.follows_new
  have hconsistent := Encoder.consistent_of_follows (follows_run_append hnew actions)
  have hfresh : (Session.start start).encoder.Reports none :=
    Encoder.reports_of_fade_eq_none rfl none
  have hreports := reports_run hfresh actions
  refine ⟨?_, ?_, ?_⟩
  · intro hstate
    exact (hconsistent.tick_of_not_blending hstate).1
  · intro hstate
    obtain ⟨f, hf⟩ := Option.isSome_iff_exists.mp (hconsistent.fade_iff.mpr hstate)
    exact ⟨f, hf, Encoder.progress_of_reports hreports hf⟩
  · intro f now hf hshare
    rw [Encoder.tick_of_lands hf (Fade.lands_of_one_le_share hshare)]
    exact ⟨rfl, rfl⟩

/-- A fade over one second, just before its end and at its end. -/
theorem progress_of_run_second :
    let fading : List Action :=
      [.crossfadeTo (.new (.new .sway []) 1.0 1.0) 1000.0, .setClock 999.9999, .tick]
    let landed := fading ++ [.setClock 1000.0, .tick]
    let e := ((Session.start 0.0).run fading).encoder
    let e' := ((Session.start 0.0).run landed).encoder
    (e.state = .blending ∧ 0.0 ≤ e.progress ∧ e.progress < 1.0 ∧ (e.tick 1000.0).progress = 0.0) ∧
      e'.state ≠ .blending ∧ e'.progress = 0.0 := by
  intro fading landed e e'
  have hblending : e.state = .blending := rfl
  have hactive : e'.state = .active := rfl
  have hlanded : e'.state ≠ .blending := by
    rw [hactive]
    decide
  obtain ⟨f, hf, hlow, -, hless⟩ := (progress_of_run 0.0 fading).2.1 hblending
  have hfade : f = ⟨0.0, 1000.0⟩ := (Option.some.inj hf).symm
  have hshare : 1.0 ≤ Fade.share ⟨0.0, 1000.0⟩ 1000.0 := by decide
  have hland := ((progress_of_run 0.0 fading).2.2 ⟨0.0, 1000.0⟩ 1000.0 rfl hshare).2
  refine ⟨⟨hblending, hlow, hless.mpr ?_, hland⟩, hlanded, (progress_of_run 0.0 landed).1 hlanded⟩
  intro t ht
  obtain rfl : 999.9999 = t := Option.some.inj ht
  rw [hfade]
  decide

/-- A millisecond over but for a hundred-millionth: the fade goes on and reports all of it. -/
theorem exists_blending_progress_one :
    ∃ actions, ((Session.start 0.0).run actions).encoder.state = .blending ∧
      ((Session.start 0.0).run actions).encoder.progress = 1.0 ∧
      ¬((Session.start 0.0).run actions).encoder.progress < 1.0 := by
  refine ⟨[.crossfadeTo (.new (.new .sway []) 1.0 1.0) 1.0, .setClock 0.99999999, .tick], rfl, rfl, ?_⟩
  have hone : ¬(1.0 : Float32) < 1.0 := by decide
  exact hone

end Session

end Motion
