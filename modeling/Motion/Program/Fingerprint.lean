import Motion.Decode
import Motion.Hash.Xxh3
import Motion.Program.Basic

/-! A stable identity of a program: the hash of its multipliers, whole body and part slots. -/
namespace Motion

/-- The bytes of a number, least significant first. -/
def singleBytes (x : Float32) : List UInt8 :=
  let w := x.toBits
  [w.toUInt8, (w >>> 8).toUInt8, (w >>> 16).toUInt8, (w >>> 24).toUInt8]

def boolByte (b : Bool) : UInt8 := if b then 1 else 0

def Assignment.stream (a : Assignment) : List UInt8 :=
  [a.primitive, boolByte a.active] ++ singleBytes a.phase ++ singleBytes a.start
    ++ singleBytes a.duration ++ a.params.toList.flatMap singleBytes

def entryStream (entry : Option Assignment) : List UInt8 :=
  match entry with
  | none => [0]
  | some a => 1 :: a.stream

def Program.stream (p : Program) : List UInt8 :=
  singleBytes p.speed ++ singleBytes p.amplitudeScale ++ entryStream (some p.wholeBody)
    ++ (List.range slotCount).flatMap fun i => entryStream (p.part? (i + 1))

structure Fingerprint where
  high : Nat
  low : Nat
  deriving DecidableEq, Repr

namespace Fingerprint

def seed : UInt64 := 0x6B1E4D0F93A2C571

def ofDigest (d : Hash.Digest) : Fingerprint := ⟨d.high.toNat, d.low.toNat⟩

-- A program has at least 103 bytes, so the rules for short inputs are not needed.
def of (p : Program) : Fingerprint := ofDigest (Hash.digest seed p.stream.toArray)

/-- Sixteen hexadecimal digits of a 64-bit number. -/
def hex16 (n : Nat) : List Char :=
  let digits := Nat.toDigits 16 n
  List.replicate (16 - digits.length) '0' ++ digits

def render (f : Fingerprint) : String := String.ofList (hex16 f.high ++ hex16 f.low)

def toJson (f : Fingerprint) : Json.Value :=
  .object [("hi", .ofNat f.high), ("lo", .ofNat f.low)]

def shape : Decode.Shape := ⟨"ProgramFingerprint", [.needed "hi", .needed "lo"]⟩

def setField (f : Fingerprint) (field : String) (v : Json.Value) :
    Except Decode.Error Fingerprint :=
  match field with
  | "hi" => return { f with high := ← Decode.natural 64 v }
  | "lo" => return { f with low := ← Decode.natural 64 v }
  | _ => .ok f

def decode : Decode.Decoder Fingerprint := shape.record setField ⟨0, 0⟩

end Fingerprint

end Motion
