import Motion.Proofs.Encoder.Playback
import Motion.Proofs.Number.Monotone

/-! Fades by the time of the clock. An earlier tick leaves no trace, since a fade that would land at
a time also lands at every later one. -/
namespace Motion
open Number

namespace Fade

variable {f : Fade} {t t₁ t₂ : Float}

/-- Whether a fade has a duration that it can be measured by. -/
def TakesTime (f : Fade) : Prop := f.duration.isFinite = true ∧ 0.0 < f.duration

/-- How much of the duration has passed at a time. -/
def share (f : Fade) (now : Float) : Float := (now - f.start) / f.duration

theorem lands_iff (hf : f.TakesTime) :
    f.lands t = true ↔ 1.0 ≤ f.share t ∨ (f.share t).isNaN = true := by
  unfold lands share
  rw [hf.1, decide_eq_true hf.2, Bool.or_eq_true, Bool.or_eq_true, decide_eq_true_iff]
  simp only [Bool.and_self, Bool.not_true, Bool.false_eq_true, false_or]
  exact or_comm

theorem lands_of_not_takesTime (hf : ¬f.TakesTime) (t : Float) : f.lands t = true := by
  have hduration : (f.duration.isFinite && decide (0.0 < f.duration)) = false := by
    rw [Bool.eq_false_iff, ne_eq, Bool.and_eq_true, decide_eq_true_iff]
    exact hf
  rw [lands, hduration]
  rfl

theorem progress_of_takesTime (hf : f.TakesTime) (t : Float) :
    f.progress t = clampUnit (f.share t) := by
  rw [progress, hf.1, decide_eq_true hf.2]
  rfl

/-- A fade that does not land later has a share that has grown meanwhile. -/
theorem share_le_share (ht : t₁ ≤ t₂) (hf : f.TakesTime) (hl : f.lands t₂ = false) :
    f.share t₁ ≤ f.share t₂ := by
  have hpending : ¬(1.0 ≤ f.share t₂ ∨ (f.share t₂).isNaN = true) := by
    rw [← lands_iff hf, hl]
    exact Bool.false_ne_true
  rcases share_cases (s := f.start) ht hf.1 hf.2 with hnan | hone | hle
  · exact absurd (Or.inr hnan) hpending
  · exact absurd (Or.inl hone) hpending
  · exact hle

/-- A fade that lands at a time lands at every later one. -/
theorem lands_of_le (ht : t₁ ≤ t₂) (hl : f.lands t₁ = true) : f.lands t₂ = true := by
  by_contra hpending
  rw [Bool.not_eq_true] at hpending
  have hf : f.TakesTime := by
    by_contra hduration
    rw [lands_of_not_takesTime hduration] at hpending
    cases hpending
  have hle := share_le_share ht hf hpending
  rcases (lands_iff hf).mp hl with hone | hnan
  · have hlater : f.lands t₂ = true := (lands_iff hf).mpr (Or.inl (Number.le_trans hone hle))
    rw [hpending] at hlater
    cases hlater
  · rw [(le_iff_valueOf.mp hle).1] at hnan
    cases hnan

theorem takesTime_of_not_lands (hl : f.lands t = false) : f.TakesTime := by
  by_contra hduration
  rw [lands_of_not_takesTime hduration] at hl
  cases hl

/-- Until it lands, a fade never reports less than it has reported before. -/
theorem narrow_progress_le (ht : t₁ ≤ t₂) (hl : f.lands t₂ = false) :
    narrow (f.progress t₁) ≤ narrow (f.progress t₂) := by
  have hf := takesTime_of_not_lands hl
  rw [progress_of_takesTime hf, progress_of_takesTime hf]
  exact narrow_le_narrow (clampUnit_le_clampUnit (share_le_share ht hf hl))

end Fade

namespace Encoder

variable {e : Encoder} {f : Fade} {t t₁ t₂ : Float}

/-- The encoder with its fade landed: what was faded to is what it shows. -/
def land (e : Encoder) : Encoder :=
  { e with
    primary := e.secondary, state := .active, progress := 0.0, fade := none
    visible := e.pending, pending := none }

/-- What ticks at some times answer. -/
def reports (e : Encoder) : List Float → List Float32
  | [] => []
  | t :: ts => (e.tick t).progress :: (e.tick t).reports ts

theorem tick_of_fade_eq_none (h : e.fade = none) (t : Float) : e.tick t = e := by
  rw [tick, h]

theorem tick_of_lands (h : e.fade = some f) (hl : f.lands t = true) : e.tick t = e.land := by
  rw [← Fade.isOver_progress] at hl
  simp only [tick, h, hl, if_true]
  rfl

theorem tick_of_not_lands (h : e.fade = some f) (hl : f.lands t = false) :
    e.tick t = { e with progress := narrow (f.progress t) } := by
  rw [← Fade.isOver_progress] at hl
  simp only [tick, h, hl, Bool.false_eq_true, if_false]

theorem tick_eq_land_iff (h : e.fade = some f) : e.tick t = e.land ↔ f.lands t = true := by
  refine ⟨fun heq => ?_, tick_of_lands h⟩
  by_contra hl
  have hfade := congrArg fade heq
  rw [tick_of_not_lands h (Bool.eq_false_iff.mpr hl)] at hfade
  rw [show e.fade = none from hfade] at h
  cases h

/-- A landed fade stays landed. -/
theorem foldl_tick_of_fade_eq_none (h : e.fade = none) (ts : List Float) : ts.foldl tick e = e := by
  induction ts with
  | nil => rfl
  | cons t ts ih => rw [List.foldl_cons, tick_of_fade_eq_none h, ih]

/-- An earlier tick leaves no trace. -/
theorem tick_tick (e : Encoder) (ht : t₁ ≤ t₂) : (e.tick t₁).tick t₂ = e.tick t₂ := by
  cases hfade : e.fade with
  | none => rw [tick_of_fade_eq_none hfade]
  | some f =>
    cases hl : f.lands t₁ with
    | true =>
      have hland : e.land.fade = none := rfl
      rw [tick_of_lands hfade hl, tick_of_lands hfade (Fade.lands_of_le ht hl),
        tick_of_fade_eq_none hland]
    | false =>
      rw [tick_of_not_lands hfade hl]
      simp only [tick, hfade]

/-- Of ticks at times that never decrease only the last one counts. -/
theorem foldl_tick_eq_tick_last (e : Encoder) (ts : List Float) {t : Float}
    (h : (ts ++ [t]).IsChain (· ≤ ·)) : (ts ++ [t]).foldl tick e = e.tick t := by
  induction ts with
  | nil => rfl
  | cons t₀ ts ih =>
    cases ts with
    | nil =>
      obtain ⟨ht, -⟩ := List.isChain_cons_cons.mp h
      exact e.tick_tick ht
    | cons t₁ ts =>
      obtain ⟨ht, hrest⟩ := List.isChain_cons_cons.mp h
      calc (t₀ :: t₁ :: ts ++ [t]).foldl tick e
          = (ts ++ [t]).foldl tick ((e.tick t₀).tick t₁) := rfl
        _ = (ts ++ [t]).foldl tick (e.tick t₁) := by rw [e.tick_tick ht]
        _ = e.tick t := ih hrest

/-- As long as a fade goes on after some ticks, it has gone on after each of them. -/
theorem fade_tick_of_foldl (ts : List Float) (h : (ts.foldl tick (e.tick t)).fade = some f) :
    (e.tick t).fade ≠ none := by
  intro hnone
  rw [foldl_tick_of_fade_eq_none hnone, hnone] at h
  cases h

/-- A fade that goes on after a tick has reported its progress at that time. -/
theorem tick_of_fade_ne_none (h : (e.tick t).fade ≠ none) :
    ∃ f, e.fade = some f ∧ f.lands t = false ∧ (e.tick t).fade = some f ∧
      (e.tick t).progress = narrow (f.progress t) := by
  obtain ⟨f, hfade⟩ : ∃ f, e.fade = some f := by
    apply Option.ne_none_iff_exists'.mp
    intro hnone
    rw [tick_of_fade_eq_none hnone] at h
    exact h hnone
  have hl : f.lands t = false := by
    apply Bool.eq_false_iff.mpr
    intro hland
    rw [tick_of_lands hfade hland] at h
    exact h rfl
  rw [tick_of_not_lands hfade hl]
  exact ⟨f, hfade, hl, hfade, rfl⟩

/-- What the ticks of a fade answer never decreases while it goes on. -/
theorem isChain_reports (e : Encoder) {ts : List Float} (h : ts.IsChain (· ≤ ·))
    (hfade : (ts.foldl tick e).fade = some f) : (e.reports ts).IsChain (· ≤ ·) := by
  induction ts generalizing e with
  | nil => exact List.IsChain.nil
  | cons t₁ ts ih =>
    have hrest := ih (e.tick t₁) h.tail hfade
    cases ts with
    | nil => exact List.IsChain.singleton _
    | cons t₂ ts =>
      obtain ⟨ht, -⟩ := List.isChain_cons_cons.mp h
      obtain ⟨f₁, -, -, hf₁, hreport₁⟩ :=
        tick_of_fade_ne_none (fade_tick_of_foldl (t₂ :: ts) hfade)
      obtain ⟨f₂, hf₂, hl, -, hreport₂⟩ := tick_of_fade_ne_none (fade_tick_of_foldl ts hfade)
      have hsame : f₁ = f₂ := Option.some.inj (hf₁.symm.trans hf₂)
      apply List.isChain_cons_cons.mpr
      refine ⟨?_, hrest⟩
      rw [hreport₁, hreport₂, hsame]
      exact Fade.narrow_progress_le ht hl

/-- How the fade of an encoder goes by the time of the ticks. -/
structure FadesByTime (e : Encoder) : Prop where
  /-- An earlier tick leaves no trace, neither in the encoder nor in the answer, which is the
  progress. -/
  tick_tick : ∀ t₁ t₂, t₁ ≤ t₂ → (e.tick t₁).tick t₂ = e.tick t₂
  /-- Of ticks at times that never decrease only the last one counts. -/
  foldl_tick : ∀ (ts : List Float) (t : Float), (ts ++ [t]).IsChain (· ≤ ·) →
    (ts ++ [t]).foldl tick e = e.tick t
  /-- A fade with a duration that can be measured lands once its share is 1 or no number. -/
  lands_iff : ∀ f t, e.fade = some f → f.duration.isFinite = true → 0.0 < f.duration →
    (e.tick t = e.land ↔
      1.0 ≤ (t - f.start) / f.duration ∨ ((t - f.start) / f.duration).isNaN = true)
  /-- Any other fade lands at its first tick. -/
  lands_at_once : ∀ f t, e.fade = some f → ¬(f.duration.isFinite = true ∧ 0.0 < f.duration) →
    e.tick t = e.land
  /-- A tick that does not land a fade only reports how much of it is over. -/
  goes_on : ∀ f t, e.fade = some f → e.tick t ≠ e.land →
    e.tick t = { e with progress := narrow (clampUnit ((t - f.start) / f.duration)) }
  /-- As long as a fade goes on, ticks never answer less than they did before. -/
  reports_grow : ∀ (f : Fade) (ts : List Float), ts.IsChain (· ≤ ·) →
    (ts.foldl tick e).fade = some f → (e.reports ts).IsChain (· ≤ ·)
  /-- A landed fade stays landed. -/
  land_stays : ∀ ts : List Float, ts.foldl tick e.land = e.land
  /-- Without a fade a tick does nothing. -/
  rests : e.fade = none → ∀ t, e.tick t = e

theorem fadesByTime (e : Encoder) : e.FadesByTime where
  tick_tick t₁ t₂ ht := e.tick_tick ht
  foldl_tick ts t h := e.foldl_tick_eq_tick_last ts h
  lands_iff f t hfade hfin hpos := by
    rw [tick_eq_land_iff hfade]
    exact Fade.lands_iff ⟨hfin, hpos⟩
  lands_at_once f t hfade hduration := tick_of_lands hfade (Fade.lands_of_not_takesTime hduration t)
  goes_on f t hfade hne := by
    have hl : f.lands t = false := by
      apply Bool.eq_false_iff.mpr
      intro hland
      exact hne (tick_of_lands hfade hland)
    rw [tick_of_not_lands hfade hl, Fade.progress_of_takesTime (Fade.takesTime_of_not_lands hl)]
    rfl
  reports_grow f ts h hfade := e.isChain_reports h hfade
  land_stays ts := foldl_tick_of_fade_eq_none rfl ts
  rests hfade t := tick_of_fade_eq_none hfade t

end Encoder

namespace Session

/-- A fade keeps its start and its duration until it lands or something else is shown. -/
theorem fade_run_of_crossfade (s : Session) {f : Fade} {after : List Action}
    (hafter : ∀ a ∈ after, Action.settlesBuffers a = false)
    (hs : s.encoder.fade = none ∨ s.encoder.fade = some f) :
    (s.run after).encoder.fade = none ∨ (s.run after).encoder.fade = some f := by
  induction after generalizing s with
  | nil => exact hs
  | cons a after ih =>
    obtain ⟨ha, hrest⟩ := List.forall_mem_cons.mp hafter
    apply ih _ hrest
    cases a with
    | tick =>
      change (s.encoder.tick s.clock.now).fade = none ∨ (s.encoder.tick s.clock.now).fade = some f
      by_cases hnone : (s.encoder.tick s.clock.now).fade = none
      · exact Or.inl hnone
      · obtain ⟨f', hf', -, hkeep, -⟩ := Encoder.tick_of_fade_ne_none hnone
        rw [hkeep, ← hf']
        exact hs
    | attributes count partIds weights => exact hs
    | advance ms => exact hs
    | setClock ms => exact hs
    | _ => cases ha

/-- A fade depends on what the clock says and not on how often it is asked: whatever a host has done
before, of ticks at later and later times only the last one counts. Until it lands, a fade is
measured from the time and by the duration that it was started with. -/
theorem fade_by_clock (start : Float) (history : List Action) :
    let s := (Session.start start).run history
    s.encoder.FadesByTime ∧
      (∀ t₁ t₂, t₁ ≤ t₂ →
        s.run [.setClock t₁, .tick, .setClock t₂, .tick] = s.run [.setClock t₂, .tick]) ∧
      (∀ p duration after, (∀ a ∈ after, Action.settlesBuffers a = false) →
        ∀ f ∈ (s.run (.crossfadeTo p duration :: after)).encoder.fade,
          f = ⟨s.clock.now, duration⟩) := by
  intro s
  refine ⟨s.encoder.fadesByTime, ?_, ?_⟩
  · intro t₁ t₂ ht
    have htick := s.encoder.tick_tick ht
    change (⟨(s.encoder.tick t₁).tick t₂, ⟨t₂⟩⟩ : Session) = ⟨s.encoder.tick t₂, ⟨t₂⟩⟩
    rw [htick]
  · intro p duration after hafter f hf
    have hstart : (s.step (.crossfadeTo p duration)).encoder.fade = some ⟨s.clock.now, duration⟩ := rfl
    change f ∈ ((s.step (.crossfadeTo p duration)).run after).encoder.fade at hf
    rcases fade_run_of_crossfade _ hafter (Or.inr hstart) with hnone | hsome
    · rw [hnone] at hf
      cases hf
    · rw [hsome] at hf
      exact (Option.some.inj hf).symm

/-- Half of a fade over 100 ms is over after 50 ms, with or without a tick on the way. -/
theorem fade_by_clock_halfway :
    let s := (Session.start 0.0).run [.crossfadeTo (.new (.new .sway []) 1.0 1.0) 100.0]
    s.encoder.fade = some ⟨0.0, 100.0⟩ ∧ (25.0 : Float) ≤ 50.0 ∧
      (s.encoder.tick 25.0).tick 50.0 = s.encoder.tick 50.0 ∧
      (s.encoder.tick 50.0).progress = 0.5 := by
  have hfade := (fade_by_clock 0.0 [.crossfadeTo (.new (.new .sway []) 1.0 1.0) 100.0]).1
  have htimes : (25.0 : Float) ≤ 50.0 := by decide
  exact ⟨rfl, htimes, hfade.tick_tick 25.0 50.0 htimes, rfl⟩

end Session

end Motion
