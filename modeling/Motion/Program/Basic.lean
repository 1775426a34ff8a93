import Motion.Part.Basic
import Motion.Primitive
import Motion.Template.Basic

/-! Compiled motion programs: a motion for the whole body, which slot 0 stands for, and a table of
the part slots. -/
namespace Motion

def paramCount : Nat := 12

/-- A resolved motion of the whole body or of one part. -/
structure Assignment where
  /-- The id of the primitive; decoded programs may hold ids of no primitive. -/
  primitive : UInt8
  params : Vector Float32 paramCount
  phase : Float32
  start : Float32
  duration : Float32
  /-- An inactive entry is encoded like an empty slot. -/
  active : Bool
  attachment : Attachment

namespace Assignment

/-- Values in order as parameters: what is missing is zero, what is too much is left out. -/
def packParams (values : List Float) : Vector Float32 paramCount :=
  Vector.ofFn fun i => (values[i.val]?).elim 0.0 Number.narrow

/-- An active motion that starts at once and loops. -/
def new (primitive : Primitive) (values : List Float) : Assignment :=
  { primitive := primitive.id, params := packParams values, phase := 0.0, start := 0.0
    duration := 0.0, active := true, attachment := .gradient }

def primitive? (a : Assignment) : Option Primitive := Primitive.ofId? a.primitive

def isLooping (a : Assignment) : Bool := a.duration == 0.0

end Assignment

def tableSize : Nat := slotCount + 1

structure Program where
  wholeBody : Assignment
  slots : Vector (Option Assignment) tableSize
  speed : Float32
  amplitudeScale : Float32

namespace Program

def new (wholeBody : Assignment) (speed amplitudeScale : Float32) : Program :=
  ⟨wholeBody, Vector.replicate tableSize none, speed, amplitudeScale⟩

/-- Gives a part slot a motion, unless there is no such slot. -/
def setPart? (p : Program) (slot : Nat) (a : Assignment) : Option Program :=
  -- the entry of slot 0 stays empty: the whole body has a place of its own
  if h : 1 ≤ slot ∧ slot < tableSize then
    some { p with slots := p.slots.set slot (some a) h.2 }
  else none

def part? (p : Program) (slot : Nat) : Option Assignment := (p.slots[slot]?).join

def parts (p : Program) : List (Nat × Assignment) :=
  p.slots.toList.zipIdx.filterMap fun (entry, slot) => entry.map fun a => (slot, a)

def partCount (p : Program) : Nat := p.slots.toList.countP Option.isSome

end Program

end Motion
