import Motion.Text.Blank

/-! The closed set of motion primitives. The position in `all` is the id by which an executor knows
the primitive. -/
namespace Motion

inductive Primitive where
  | oscillate
  | rotate
  | spiral
  | wave
  | orbit
  | pulse
  | sway
  | jitter
  | bob
  | flutter
  | burst
  | scatter
  | collapse
  | reform
  | dissolve
  deriving DecidableEq, Repr

namespace Primitive

def all : List Primitive :=
  [oscillate, rotate, spiral, wave, orbit, pulse, sway, jitter, bob, flutter, burst, scatter,
    collapse, reform, dissolve]

def id : Primitive → UInt8
  | oscillate => 0
  | rotate => 1
  | spiral => 2
  | wave => 3
  | orbit => 4
  | pulse => 5
  | sway => 6
  | jitter => 7
  | bob => 8
  | flutter => 9
  | burst => 10
  | scatter => 11
  | collapse => 12
  | reform => 13
  | dissolve => 14

def ofId? (n : UInt8) : Option Primitive := all[n.toNat]?

def name : Primitive → String
  | oscillate => "oscillate"
  | rotate => "rotate"
  | spiral => "spiral"
  | wave => "wave"
  | orbit => "orbit"
  | pulse => "pulse"
  | sway => "sway"
  | jitter => "jitter"
  | bob => "bob"
  | flutter => "flutter"
  | burst => "burst"
  | scatter => "scatter"
  | collapse => "collapse"
  | reform => "reform"
  | dissolve => "dissolve"

/-- The primitive of a name; blanks around it and ASCII case do not count. -/
def ofName? (s : String) : Option Primitive :=
  all.find? fun p => p.name.toList == Text.asciiLower (Text.trim s.toList)

/-- Whether the primitive runs for a bounded time and then holds its last state. -/
def isOneShot : Primitive → Bool
  | burst | scatter | collapse | reform | dissolve => true
  | _ => false

end Primitive

end Motion
