import Motion.Program.Buffer
import Motion.Program.Fingerprint

/-! An encoder with a primary and a secondary buffer that fades from one program to the next. It has
no clock; the steps that need the time are given it. -/
namespace Motion

inductive EncoderState where
  /-- Showing nothing. -/
  | idle
  /-- Showing the program in the primary buffer. -/
  | active
  /-- Fading from the primary buffer to the secondary one. -/
  | blending
  deriving DecidableEq, Repr

def EncoderState.name : EncoderState → String
  | idle => "idle"
  | active => "active"
  | blending => "blending"

structure EncodedGlobals where
  speed : Float32
  amplitudeScale : Float32

/-- What an encoder remembers of a program besides its buffer. -/
structure Shown where
  fingerprint : Fingerprint
  globals : EncodedGlobals

def Shown.of (p : Program) : Shown := ⟨.of p, ⟨p.speed, p.amplitudeScale⟩⟩

/-- When a fade began and how long it takes, in milliseconds. -/
structure Fade where
  start : Float
  duration : Float

namespace Fade

/-- How much of a fade is over at a time. -/
def progress (f : Fade) (now : Float) : Float :=
  if f.duration.isFinite && 0.0 < f.duration then
    Number.clampUnit ((now - f.start) / f.duration)
  -- a fade that would take no time or for ever is over at once
  else 1.0

/-- Whether a fade with this progress is over. One that has lost its number is. -/
def isOver (progress : Float) : Bool := progress.isNaN || 1.0 ≤ progress

end Fade

/-- No buffer takes more bytes. -/
def Buffer.maxBytes : Nat := 0x7fffffffffffffff

/-- How many units a buffer of attributes can be made for, with 16 bytes for each of them. -/
structure UnitCount where
  toNat : Nat
  fits : 16 * toNat ≤ Buffer.maxBytes

def UnitCount.ofNat? (n : Nat) : Option UnitCount :=
  if h : 16 * n ≤ Buffer.maxBytes then some ⟨n, h⟩ else none

structure Encoder where
  primary : Buffer
  secondary : Buffer
  attributes : Buffer
  state : EncoderState
  /-- How much of the fade was over at the last tick. -/
  progress : Float32
  fade : Option Fade
  /-- The program in the primary buffer. -/
  visible : Option Shown
  /-- The program that is faded to. -/
  pending : Option Shown

namespace Encoder

def new : Encoder :=
  { primary := .reset [], secondary := .reset [], attributes := [], state := .idle
    progress := 0.0, fade := none, visible := none, pending := none }

/-- Shows a program at once; a fade in progress is given up. -/
def setProgram (e : Encoder) (p : Program) : Encoder :=
  { e with
    primary := p.encodeInto e.primary, secondary := Buffer.reset e.secondary
    state := .active, progress := 0.0, fade := none, visible := some (.of p), pending := none }

/-- Starts a fade from the primary buffer, whatever it is doing. -/
def crossfadeTo (e : Encoder) (p : Program) (now duration : Float) : Encoder :=
  { e with
    -- the buffer that shows stays, unless `dispose` has given it up
    primary :=
      if e.primary.length = Buffer.fullLength then e.primary else Buffer.reset e.primary
    secondary := p.encodeInto e.secondary
    state := .blending, progress := 0.0, fade := some ⟨now, duration⟩, pending := some (.of p) }

/-- Brings a fade up to a time. The answer of a tick is the progress afterwards. -/
def tick (e : Encoder) (now : Float) : Encoder :=
  match e.fade with
  | none => e
  | some fade =>
    let progress := fade.progress now
    if Fade.isOver progress then
      -- the fade lands: the buffer of the new program takes the place of the old one
      { e with
        primary := e.secondary, state := .active, progress := 0.0, fade := none
        visible := e.pending, pending := none }
    else { e with progress := Number.narrow progress }

def clear (e : Encoder) : Encoder :=
  { e with
    primary := Buffer.reset e.primary, secondary := Buffer.reset e.secondary
    state := .idle, progress := 0.0, fade := none, visible := none, pending := none }

/-- Gives up every buffer and shows nothing. -/
def dispose (e : Encoder) : Encoder :=
  { e with
    primary := [], secondary := [], attributes := []
    state := .idle, progress := 0.0, fade := none, visible := none, pending := none }

/-- The attributes of so many units: part, weight and two zeros each. -/
def unitAttributes (partIds : List UInt32) (weights : List Float32) : Nat → Buffer
  | 0 => []
  | count + 1 =>
    -- lists that are too short go on with part 0 and weight 1
    [Float32.ofNat (partIds.headD 0).toNat, weights.headD 1.0, 0.0, 0.0]
      ++ unitAttributes partIds.tail weights.tail count

def encodeAttributes (e : Encoder) (count : UnitCount) (partIds : List UInt32)
    (weights : List Float32) : Encoder :=
  { e with attributes := unitAttributes partIds weights count.toNat }

def fingerprint (e : Encoder) : Option Fingerprint := e.visible.map (·.fingerprint)

def globals (e : Encoder) : Option EncodedGlobals := e.visible.map (·.globals)

def pendingGlobals (e : Encoder) : Option EncodedGlobals := e.pending.map (·.globals)

end Encoder

/-- A clock that is moved by hand, in milliseconds. -/
structure Clock where
  now : Float

namespace Clock

/-- Moves on by a positive time; any other one is ignored. -/
def advance (c : Clock) (ms : Float) : Clock := if 0.0 < ms then ⟨c.now + ms⟩ else c

def set (_ : Clock) (ms : Float) : Clock := ⟨ms⟩

end Clock

/-- One step of what a host does with an encoder and a clock. -/
inductive Action where
  | setProgram (p : Program)
  | crossfadeTo (p : Program) (duration : Float)
  | tick
  | clear
  | dispose
  | attributes (count : UnitCount) (partIds : List UInt32) (weights : List Float32)
  | advance (ms : Float)
  | setClock (ms : Float)

structure Session where
  encoder : Encoder
  clock : Clock

namespace Session

def start (now : Float) : Session := ⟨.new, ⟨now⟩⟩

def step (s : Session) : Action → Session
  | .setProgram p => { s with encoder := s.encoder.setProgram p }
  | .crossfadeTo p duration => { s with encoder := s.encoder.crossfadeTo p s.clock.now duration }
  | .tick => { s with encoder := s.encoder.tick s.clock.now }
  | .clear => { s with encoder := s.encoder.clear }
  | .dispose => { s with encoder := s.encoder.dispose }
  | .attributes count partIds weights =>
    { s with encoder := s.encoder.encodeAttributes count partIds weights }
  | .advance ms => { s with clock := s.clock.advance ms }
  | .setClock ms => { s with clock := s.clock.set ms }

def run (s : Session) (actions : List Action) : Session := actions.foldl step s

end Session

end Motion
