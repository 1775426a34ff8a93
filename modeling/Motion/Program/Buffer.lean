import Motion.Program.Basic

/-! The buffer that an executor reads: 33 rows of 16 numbers, row 0 for the whole body and one row
for each part slot. -/
namespace Motion

/-- Numbers as an executor sees them. -/
abbrev Buffer := List Float32

namespace Buffer

def rowLength : Nat := 16

def fullLength : Nat := tableSize * rowLength

def inactiveRow : List Float32 := -1.0 :: List.replicate (rowLength - 1) 0.0

def activeRow (a : Assignment) : List Float32 :=
  [Float32.ofNat a.primitive.toNat, a.phase, a.start, a.duration] ++ a.params.toList

def row (entry : Option Assignment) : List Float32 :=
  match entry with
  | some a => if a.active then activeRow a else inactiveRow
  | none => inactiveRow

/-- Writes rows over a buffer from its front; what lies behind the last one stays. -/
def overwrite : List (List Float32) → Buffer → Buffer
  | [], buffer => buffer
  | r :: rs, buffer =>
    -- only whole rows are written
    if rowLength ≤ buffer.length then r ++ overwrite rs (buffer.drop rowLength) else buffer

def fillInactive (buffer : Buffer) : Buffer :=
  overwrite (List.replicate (buffer.length / rowLength) inactiveRow) buffer

/-- The buffer cut or filled up with zeros to a length. -/
def resize (n : Nat) (buffer : Buffer) : Buffer :=
  buffer.take n ++ List.replicate (n - buffer.length) 0.0

/-- A buffer of the right length without motions, whatever was there before. -/
def reset (buffer : Buffer) : Buffer := fillInactive (resize fullLength buffer)

end Buffer

namespace Program

def rows (p : Program) : List (List Float32) :=
  Buffer.row p.wholeBody :: (List.range slotCount).map fun i => Buffer.row (p.part? (i + 1))

/-- Encodes a program over a buffer, which is resized first. -/
def encodeInto (p : Program) (buffer : Buffer) : Buffer :=
  Buffer.overwrite p.rows (Buffer.resize Buffer.fullLength buffer)

def encode (p : Program) : Buffer := p.encodeInto []

end Program

end Motion
