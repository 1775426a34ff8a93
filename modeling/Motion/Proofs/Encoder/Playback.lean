import Motion.Encoder
import Motion.Proofs.Number.Order
import Motion.Proofs.Program.Buffer

/-! What an encoder shows, told by the programs that it was given. -/
namespace Motion

/-- A fade lands once its share of the time is 1 or no number. One whose duration is not positive
and finite lands at once. -/
def Fade.lands (f : Fade) (now : Float) : Bool :=
  !(f.duration.isFinite && 0.0 < f.duration) || ((now - f.start) / f.duration).isNaN ||
    1.0 ≤ (now - f.start) / f.duration

theorem Fade.isOver_progress (f : Fade) (now : Float) :
    Fade.isOver (f.progress now) = f.lands now := by
  unfold Fade.progress Fade.lands Fade.isOver
  by_cases h : (f.duration.isFinite && 0.0 < f.duration) = true
  · simp only [h, if_true, Number.isNaN_clampUnit, Number.one_le_clampUnit_iff, Bool.not_true,
      Bool.false_or]
  · have hone : (1.0 : Float) ≤ 1.0 := by decide
    simp [h, hone]

theorem Shown.of_eq (p : Program) : of p = ⟨Fingerprint.of p, ⟨p.speed, p.amplitudeScale⟩⟩ := rfl

/-- The clock after an action; most leave it alone. -/
def Clock.step (c : Clock) : Action → Clock
  | .advance ms => if 0.0 < ms then ⟨c.now + ms⟩ else c
  | .setClock ms => ⟨ms⟩
  | _ => c

inductive Playback where
  | idle
  | active (visible : Program)
  | blending (visible : Option Program) (target : Program) (fade : Fade)

namespace Playback

def state : Playback → EncoderState
  | idle => .idle
  | active _ => .active
  | blending .. => .blending

def visible? : Playback → Option Program
  | idle => none
  | active p => some p
  | blending p _ _ => p

def target? : Playback → Option Program
  | blending _ p _ => some p
  | _ => none

def fade? : Playback → Option Fade
  | blending _ _ f => some f
  | _ => none

/-- What an action at a time makes of a playback. -/
def step (m : Playback) (now : Float) : Action → Playback
  | .setProgram p => active p
  | .crossfadeTo p duration => blending m.visible? p ⟨now, duration⟩
  | .tick =>
    match m with
    | blending _ p f => if f.lands now then active p else m
    | _ => m
  | .clear => idle
  | .dispose => idle
  | .attributes .. => m
  | .advance _ => m
  | .setClock _ => m

def run (m : Playback) (c : Clock) : List Action → Playback
  | [] => m
  | a :: rest => run (m.step c.now a) (c.step a) rest

end Playback

namespace Action

/-- Whether an action makes the buffers of programs or gives them up. -/
def settlesBuffers : Action → Bool
  | setProgram _ => true
  | crossfadeTo .. => true
  | clear => true
  | dispose => true
  | _ => false

/-- Whether an action makes the buffer of attributes or gives it up. -/
def settlesAttributes : Action → Bool
  | attributes .. => true
  | dispose => true
  | _ => false

def latest? (kind : Action → Bool) (history : List Action) : Option Action :=
  (history.filter kind).getLast?

theorem latest?_append (kind : Action → Bool) (history : List Action) (a : Action) :
    latest? kind (history ++ [a]) = if kind a then some a else latest? kind history := by
  unfold latest?
  rw [List.filter_append]
  by_cases h : kind a
  · simp [h]
  · simp [h]

/-- Whether the latest action that settled the buffers gave them up. -/
def isDisposed (history : List Action) : Bool :=
  match latest? settlesBuffers history with
  | some dispose => true
  | _ => false

/-- The attributes that were encoded last and not given up since: for each unit its part, or 0, its
weight, or 1, and two zeros. -/
def attributesOf (history : List Action) : Buffer :=
  match latest? settlesAttributes history with
  | some (attributes count partIds weights) => (List.range count.toNat).flatMap fun i =>
    [Float32.ofNat (partIds.getD i 0).toNat, weights.getD i 1.0, 0.0, 0.0]
  | _ => []

theorem isDisposed_append (history : List Action) (a : Action) :
    isDisposed (history ++ [a]) =
      match a with
      | setProgram _ | crossfadeTo .. | clear => false
      | dispose => true
      | _ => isDisposed history := by
  unfold isDisposed
  rw [latest?_append]
  cases a <;> rfl

theorem attributesOf_append (history : List Action) (a : Action) :
    attributesOf (history ++ [a]) =
      match a with
      | attributes count partIds weights => (List.range count.toNat).flatMap fun i =>
        [Float32.ofNat (partIds.getD i 0).toNat, weights.getD i 1.0, 0.0, 0.0]
      | dispose => []
      | _ => attributesOf history := by
  unfold attributesOf
  rw [latest?_append]
  cases a <;> rfl

end Action

namespace Encoder
open Motion.Action

theorem unitAttributes_eq_flatMap (partIds : List UInt32) (weights : List Float32) (count : Nat) :
    unitAttributes partIds weights count = (List.range count).flatMap fun i =>
      [Float32.ofNat (partIds.getD i 0).toNat, weights.getD i 1.0, 0.0, 0.0] := by
  induction count generalizing partIds weights with
  | zero => rfl
  | succ count ih =>
    rw [unitAttributes, ih, List.range_succ_eq_map, List.flatMap_cons, List.flatMap_map]
    cases partIds <;> cases weights <;> rfl

/-- An encoder with a history shows what a playback says. -/
structure Follows (m : Playback) (history : List Action) (e : Encoder) : Prop where
  state : e.state = m.state
  fade : e.fade = m.fade?
  visible : e.visible = m.visible?.map fun p => ⟨Fingerprint.of p, ⟨p.speed, p.amplitudeScale⟩⟩
  pending : e.pending = m.target?.map fun p => ⟨Fingerprint.of p, ⟨p.speed, p.amplitudeScale⟩⟩
  primary :
    e.primary = m.visible?.elim (if isDisposed history then [] else Buffer.blank) Program.encode
  secondary : ∀ p ∈ m.target?, e.secondary = p.encode
  progress : m.state ≠ .blending → e.progress = 0.0
  disposed : isDisposed history → m.state = .idle
  attributes : e.attributes = attributesOf history

variable {m : Playback} {history : List Action} {e : Encoder}

theorem follows_new : new.Follows .idle [] := by
  constructor
  all_goals simp [new, Playback.state, Playback.fade?, Playback.visible?, Playback.target?,
    Buffer.reset_eq_blank, isDisposed, attributesOf, latest?]

/-- An action that settles nothing is not seen in a history. -/
theorem follows_append (h : e.Follows m history) (a : Action)
    (hd : isDisposed (history ++ [a]) = isDisposed history)
    (ha : attributesOf (history ++ [a]) = attributesOf history) :
    e.Follows m (history ++ [a]) :=
  { h with
    primary := by rw [hd]; exact h.primary
    disposed := by rw [hd]; exact h.disposed
    attributes := by rw [ha]; exact h.attributes }

theorem follows_setProgram (h : e.Follows m history) (p : Program) :
    (e.setProgram p).Follows (.active p) (history ++ [.setProgram p]) where
  state := rfl
  fade := rfl
  visible := congrArg some (Shown.of_eq p)
  pending := rfl
  primary := by
    rw [Playback.visible?, Option.elim_some, setProgram, p.encodeInto_eq_encode]
  secondary := by simp [Playback.target?]
  progress _ := rfl
  disposed := by simp [isDisposed_append]
  attributes := by rw [attributesOf_append]; exact h.attributes

theorem eq_idle_of_isDisposed (h : e.Follows m history) (hd : isDisposed history) : m = .idle := by
  have hidle := h.disposed hd
  cases m with
  | idle => rfl
  | active p => cases hidle
  | blending v p f => cases hidle

theorem length_primary (h : e.Follows m history) (hd : isDisposed history = false) :
    e.primary.length = Buffer.fullLength := by
  rw [h.primary, hd]
  cases m.visible? with
  | none => rw [Option.elim_none, if_neg Bool.false_ne_true, Buffer.length_blank]
  | some p => rw [Option.elim_some, p.length_encode]

/-- A fade starts from the program that is visible, or from nothing; a buffer that has been given up
is made anew. -/
theorem follows_crossfadeTo (h : e.Follows m history) (p : Program) (now duration : Float) :
    (e.crossfadeTo p now duration).Follows (.blending m.visible? p ⟨now, duration⟩)
      (history ++ [.crossfadeTo p duration]) where
  state := rfl
  fade := rfl
  visible := h.visible
  pending := congrArg some (Shown.of_eq p)
  primary := by
    rw [isDisposed_append]
    change (if e.primary.length = Buffer.fullLength then e.primary else Buffer.reset e.primary) =
      m.visible?.elim Buffer.blank Program.encode
    cases hd : isDisposed history with
    | false => rw [if_pos (length_primary h hd), h.primary, hd]; rfl
    | true =>
      have hidle : m.visible? = none := by rw [eq_idle_of_isDisposed h hd]; rfl
      have hempty : e.primary = [] := by rw [h.primary, hidle, hd]; rfl
      rw [hempty, hidle, if_neg Buffer.length_nil_ne, Buffer.reset_eq_blank]
      rfl
  secondary := by
    intro q hq
    obtain rfl : p = q := by simpa [Playback.target?] using hq
    exact p.encodeInto_eq_encode e.secondary
  progress _ := rfl
  disposed := by simp [isDisposed_append]
  attributes := by rw [attributesOf_append]; exact h.attributes

theorem isDisposed_of_blending (h : e.Follows m history) (hb : m.state = .blending) :
    isDisposed history = false := by
  cases hd : isDisposed history with
  | false => rfl
  | true =>
    rw [h.disposed hd] at hb
    cases hb

/-- Both buffers have the full length during a fade, so that the one can take the place of the
other. -/
theorem length_of_blending (h : e.Follows m history) (hb : m.state = .blending) :
    e.primary.length = Buffer.fullLength ∧ e.secondary.length = Buffer.fullLength := by
  refine ⟨length_primary h (isDisposed_of_blending h hb), ?_⟩
  cases m with
  | idle => cases hb
  | active p => cases hb
  | blending v p f => rw [h.secondary p rfl, p.length_encode]

theorem tick_of_not_blending (h : e.Follows m history) (hb : m.state ≠ .blending) (now : Float) :
    e.tick now = e := by
  have hf : e.fade = none := by
    rw [h.fade]
    cases m with
    | idle => rfl
    | active p => rfl
    | blending v p f => exact absurd rfl hb
  rw [tick, hf]

theorem follows_tick (h : e.Follows m history) (now : Float) :
    (e.tick now).Follows (m.step now .tick) (history ++ [.tick]) := by
  have hd : isDisposed (history ++ [.tick]) = isDisposed history := isDisposed_append history .tick
  have ha : attributesOf (history ++ [.tick]) = attributesOf history :=
    attributesOf_append history .tick
  have hsame : e.Follows m (history ++ [.tick]) := follows_append h .tick hd ha
  have hkeep (hb : m.state ≠ .blending) : (e.tick now).Follows m (history ++ [.tick]) := by
    rw [tick_of_not_blending h hb]
    exact hsame
  cases m with
  | idle => exact hkeep (by decide)
  | active p => exact hkeep (by simp [Playback.state])
  | blending v p f =>
    have hlive : isDisposed (history ++ [.tick]) = false := isDisposed_of_blending hsame rfl
    have hfade : e.fade = some f := h.fade
    simp only [tick, hfade, Fade.isOver_progress, Playback.step]
    by_cases hl : f.lands now
    · simp only [hl, if_true]
      exact {
        state := rfl
        fade := rfl
        visible := h.pending
        pending := rfl
        primary := by
          rw [h.secondary p rfl, Playback.visible?, Option.elim_some]
        secondary := by simp [Playback.target?]
        progress := fun _ => rfl
        disposed := by simp [hlive]
        attributes := hsame.attributes }
    · simp only [hl, if_false, Bool.false_eq_true]
      exact { hsame with
        fade := rfl
        progress := fun hb => absurd rfl hb }

theorem follows_clear (h : e.Follows m history) : e.clear.Follows .idle (history ++ [.clear]) where
  state := rfl
  fade := rfl
  visible := rfl
  pending := rfl
  primary := by
    rw [isDisposed_append, clear, Buffer.reset_eq_blank]
    rfl
  secondary := by simp [Playback.target?]
  progress _ := rfl
  disposed := by simp [isDisposed_append]
  attributes := by rw [attributesOf_append]; exact h.attributes

theorem follows_dispose (e : Encoder) (history : List Action) :
    e.dispose.Follows .idle (history ++ [.dispose]) where
  state := rfl
  fade := rfl
  visible := rfl
  pending := rfl
  primary := by rw [isDisposed_append]; rfl
  secondary := by simp [Playback.target?]
  progress _ := rfl
  disposed _ := rfl
  attributes := by rw [attributesOf_append]; rfl

/-- Attributes share nothing with what is shown. -/
theorem follows_encodeAttributes (h : e.Follows m history) (count : UnitCount) (partIds : List UInt32)
    (weights : List Float32) :
    (e.encodeAttributes count partIds weights).Follows m
      (history ++ [.attributes count partIds weights]) :=
  { h with
    primary := by rw [isDisposed_append]; exact h.primary
    disposed := by rw [isDisposed_append]; exact h.disposed
    attributes := by
      rw [attributesOf_append]
      exact unitAttributes_eq_flatMap partIds weights count.toNat }

end Encoder

namespace Session

theorem clock_step (s : Session) (a : Action) : (s.step a).clock = s.clock.step a := by
  cases a <;> rfl

variable {m : Playback} {history : List Action}

theorem follows_step {s : Session} (h : s.encoder.Follows m history) (a : Action) :
    (s.step a).encoder.Follows (m.step s.clock.now a) (history ++ [a]) := by
  cases a with
  | setProgram p => exact Encoder.follows_setProgram h p
  | crossfadeTo p duration => exact Encoder.follows_crossfadeTo h p s.clock.now duration
  | tick => exact Encoder.follows_tick h s.clock.now
  | clear => exact Encoder.follows_clear h
  | dispose => exact Encoder.follows_dispose s.encoder history
  | attributes count partIds weights =>
    exact Encoder.follows_encodeAttributes h count partIds weights
  | advance ms =>
    exact Encoder.follows_append h _ (Action.isDisposed_append history _)
      (Action.attributesOf_append history _)
  | setClock ms =>
    exact Encoder.follows_append h _ (Action.isDisposed_append history _)
      (Action.attributesOf_append history _)

theorem follows_run_append {s : Session} (h : s.encoder.Follows m history) (actions : List Action) :
    (s.run actions).encoder.Follows (m.run s.clock actions) (history ++ actions) := by
  -- the history grows at its end while the run goes on, so it has to vary
  induction actions generalizing s m history with
  | nil =>
    rw [List.append_nil]
    exact h
  | cons a rest ih =>
    have hstep := ih (follows_step h a)
    rw [clock_step, List.append_assoc] at hstep
    exact hstep

end Session

/-- What an encoder tells of the programs that a playback holds. -/
structure Encoder.Tells (m : Playback) (e : Encoder) : Prop where
  fingerprint : e.fingerprint = m.visible?.map Fingerprint.of
  globals : e.globals = m.visible?.map fun p => ⟨p.speed, p.amplitudeScale⟩
  pendingGlobals : e.pendingGlobals = m.target?.map fun p => ⟨p.speed, p.amplitudeScale⟩

/-- What holds between the parts of an encoder with a history, whatever it shows. -/
structure Encoder.Consistent (history : List Action) (e : Encoder) : Prop where
  fade_iff : e.fade.isSome ↔ e.state = .blending
  pending_iff : e.pending.isSome ↔ e.state = .blending
  visible_of_active : e.state = .active → e.visible.isSome
  visible_of_idle : e.state = .idle → e.visible = none
  /-- The primary buffer is empty just after the buffers have been given up. -/
  primary_eq_nil_iff : e.primary = [] ↔ Action.isDisposed history
  /-- During a fade the one buffer can take the place of the other. -/
  length_of_blending : e.state = .blending → e.primary.length = 528 ∧ e.secondary.length = 528
  /-- Outside a fade a tick does nothing and answers zero. -/
  tick_of_not_blending : e.state ≠ .blending →
    e.progress = 0.0 ∧ ∀ now, e.tick now = e ∧ (e.tick now).progress = 0.0
  /-- Encoding attributes touches nothing else. -/
  encodeAttributes_eq : ∀ count partIds weights,
    e.encodeAttributes count partIds weights =
      { e with attributes := (e.encodeAttributes count partIds weights).attributes }

namespace Encoder

variable {m : Playback} {history : List Action} {e : Encoder}

theorem tells_of_follows (h : e.Follows m history) : e.Tells m where
  fingerprint := by
    rw [fingerprint, h.visible, Option.map_map]
    rfl
  globals := by
    rw [globals, h.visible, Option.map_map]
    rfl
  pendingGlobals := by
    rw [pendingGlobals, h.pending, Option.map_map]
    rfl

theorem consistent_of_follows (h : e.Follows m history) : e.Consistent history := by
  have hs := h.state
  have hf := h.fade
  have hv := h.visible
  have hp := h.pending
  refine ⟨?_, ?_, ?_, ?_, ?_, ?_, ?_, ?_⟩
  · rw [hf, hs]
    cases m <;> simp [Playback.fade?, Playback.state]
  · rw [hp, hs]
    cases m <;> simp [Playback.target?, Playback.state]
  · rw [hv, hs]
    cases m <;> simp [Playback.visible?, Playback.state]
  · rw [hv, hs]
    cases m <;> simp [Playback.visible?, Playback.state]
  · constructor
    · intro hnil
      cases hd : Action.isDisposed history with
      | true => rfl
      | false =>
        have hlen := length_primary h hd
        rw [hnil] at hlen
        cases Buffer.length_nil_ne hlen
    · intro hd
      rw [h.primary, eq_idle_of_isDisposed h hd, hd]
      rfl
  · intro hb
    exact length_of_blending h (hs.symm.trans hb)
  · intro hb
    have hb' : m.state ≠ .blending := fun hm => hb (hs.trans hm)
    refine ⟨h.progress hb', fun now => ?_⟩
    rw [tick_of_not_blending h hb']
    exact ⟨rfl, h.progress hb'⟩
  · intro count partIds weights
    rfl

end Encoder

/-- Whatever a host does with a fresh encoder, it follows the playback of the same actions. -/
theorem Session.run_follows_playback (start : Float) (actions : List Action) :
    ((Session.start start).run actions).encoder.Follows
        (Playback.idle.run ⟨start⟩ actions) actions ∧
      ((Session.start start).run actions).encoder.Tells (Playback.idle.run ⟨start⟩ actions) ∧
      ((Session.start start).run actions).encoder.Consistent actions := by
  have hnew : (Session.start start).encoder.Follows .idle [] := Encoder.follows_new
  have h := follows_run_append hnew actions
  exact ⟨h, Encoder.tells_of_follows h, Encoder.consistent_of_follows h⟩

end Motion
