/-! XXH3 with 128 bits and a seed. Inputs of up to 16 bytes have rules of their own, which are not
here. -/
namespace Motion.Hash

structure Digest where
  high : UInt64
  low : UInt64
  deriving DecidableEq, Repr

def prime32A : UInt64 := 0x9E3779B1
def prime32B : UInt64 := 0x85EBCA77
def prime32C : UInt64 := 0xC2B2AE3D
def primeA : UInt64 := 0x9E3779B185EBCA87
def primeB : UInt64 := 0xC2B2AE3D27D4EB4F
def primeC : UInt64 := 0x165667B19E3779F9
def primeD : UInt64 := 0x85EBCA77C2B2AE63
def primeE : UInt64 := 0x27D4EB2F165667C5
def primeMix : UInt64 := 0x165667919E3779F9

def secret : Array UInt8 := #[
  0xB8, 0xFE, 0x6C, 0x39, 0x23, 0xA4, 0x4B, 0xBE, 0x7C, 0x01, 0x81, 0x2C, 0xF7, 0x21, 0xAD, 0x1C,
  0xDE, 0xD4, 0x6D, 0xE9, 0x83, 0x90, 0x97, 0xDB, 0x72, 0x40, 0xA4, 0xA4, 0xB7, 0xB3, 0x67, 0x1F,
  0xCB, 0x79, 0xE6, 0x4E, 0xCC, 0xC0, 0xE5, 0x78, 0x82, 0x5A, 0xD0, 0x7D, 0xCC, 0xFF, 0x72, 0x21,
  0xB8, 0x08, 0x46, 0x74, 0xF7, 0x43, 0x24, 0x8E, 0xE0, 0x35, 0x90, 0xE6, 0x81, 0x3A, 0x26, 0x4C,
  0x3C, 0x28, 0x52, 0xBB, 0x91, 0xC3, 0x00, 0xCB, 0x88, 0xD0, 0x65, 0x8B, 0x1B, 0x53, 0x2E, 0xA3,
  0x71, 0x64, 0x48, 0x97, 0xA2, 0x0D, 0xF9, 0x4E, 0x38, 0x19, 0xEF, 0x46, 0xA9, 0xDE, 0xAC, 0xD8,
  0xA8, 0xFA, 0x76, 0x3F, 0xE3, 0x9C, 0x34, 0x3F, 0xF9, 0xDC, 0xBB, 0xC7, 0xC7, 0x0B, 0x4F, 0x1D,
  0x8A, 0x51, 0xE0, 0x4B, 0xCD, 0xB4, 0x59, 0x31, 0xC8, 0x9F, 0x7E, 0xC9, 0xD9, 0x78, 0x73, 0x64,
  0xEA, 0xC5, 0xAC, 0x83, 0x34, 0xD3, 0xEB, 0xC3, 0xC5, 0x81, 0xA0, 0xFF, 0xFA, 0x13, 0x63, 0xEB,
  0x17, 0x0D, 0xDD, 0x51, 0xB7, 0xF0, 0xDA, 0x49, 0xD3, 0x16, 0x55, 0x26, 0x29, 0xD4, 0x68, 0x9E,
  0x2B, 0x16, 0xBE, 0x58, 0x7D, 0x47, 0xA1, 0xFC, 0x8F, 0xF8, 0xB8, 0xD1, 0x7A, 0xD0, 0x31, 0xCE,
  0x45, 0xCB, 0x3A, 0x8F, 0x95, 0x16, 0x04, 0x28, 0xAF, 0xD7, 0xFB, 0xCA, 0xBB, 0x4B, 0x40, 0x7E]

/-- The eight bytes from a place on, as one word. -/
def readWord (bytes : Array UInt8) (i : Nat) : UInt64 :=
  (List.range 8).foldr (fun k acc => (acc <<< 8) ||| (bytes.getD (i + k) 0).toUInt64) 0

def wordBytes (w : UInt64) : List UInt8 :=
  (List.range 8).map fun k => (w >>> (8 * k).toUInt64).toUInt8

/-- The full product of two words, its halves combined by exclusive or. -/
def foldProduct (a b : UInt64) : UInt64 :=
  let p := a.toNat * b.toNat
  UInt64.ofNat p ^^^ UInt64.ofNat (p >>> 64)

/-- Spreads every bit of a word over all of it. -/
def avalanche (h : UInt64) : UInt64 :=
  let h := (h ^^^ (h >>> 37)) * primeMix
  h ^^^ (h >>> 32)

structure Halves where
  low : UInt64
  high : UInt64

/-- Sixteen bytes of input from `i` on, mixed with the secret from `s` on. -/
def mix16 (input : Array UInt8) (seed : UInt64) (i s : Nat) : UInt64 :=
  foldProduct (readWord input i ^^^ (readWord secret s + seed))
    (readWord input (i + 8) ^^^ (readWord secret (s + 8) - seed))

/-- Takes up sixteen bytes from `i` on and sixteen from `j` on. -/
def mix32 (input : Array UInt8) (seed : UInt64) (i j s : Nat) (acc : Halves) : Halves :=
  let sum := fun (k : Nat) => readWord input k + readWord input (k + 8)
  { low := (acc.low + mix16 input seed i s) ^^^ sum j
    high := (acc.high + mix16 input seed j (s + 16)) ^^^ sum i }

def finish (seed length : UInt64) (acc : Halves) : Digest :=
  { low := avalanche (acc.low + acc.high)
    high := 0 - avalanche (acc.low * primeA + acc.high * primeD + (length - seed) * primeB) }

def hashShort (seed : UInt64) (input : Array UInt8) : Digest :=
  let n := input.size
  let length := n.toUInt64
  let rounds := (n - 1) / 32
  -- sixteen bytes from either end, from the middle outwards
  let acc := (List.range (rounds + 1)).reverse.foldl
    (fun acc k => mix32 input seed (16 * k) (n - 16 * (k + 1)) (32 * k) acc)
    ⟨length * primeA, 0⟩
  finish seed length acc

def hashMiddle (seed : UInt64) (input : Array UInt8) : Digest :=
  let n := input.size
  let length := n.toUInt64
  let step := fun (s k : Nat) (acc : Halves) => mix32 input seed (32 * k) (32 * k + 16) s acc
  let acc := (List.range 4).foldl (fun acc k => step (32 * k) k acc) ⟨length * primeA, 0⟩
  let acc := Halves.mk (avalanche acc.low) (avalanche acc.high)
  -- from the fifth step on the secret is displaced
  let acc := (List.range (n / 32 - 4)).foldl (fun acc k => step (3 + 32 * k) (k + 4) acc) acc
  -- and the last 32 bytes are taken up once more
  finish seed length (mix32 input (0 - seed) (n - 16) (n - 32) 103 acc)

/-- The secret of a seed: its words in turn raised and lowered by it. -/
def seededSecret (seed : UInt64) : Array UInt8 :=
  ((List.range 24).flatMap fun k =>
    wordBytes (if k % 2 = 0 then readWord secret (8 * k) + seed
      else readWord secret (8 * k) - seed)).toArray

def initialLanes : Array UInt64 := #[
  prime32C, primeA, primeB, primeC, primeD, prime32B, primeE, prime32A]

def takeStripe (key input : Array UInt8) (i s : Nat) (lanes : Array UInt64) : Array UInt64 :=
  (Array.range 8).map fun k =>
    -- a lane gets the product of the halves of its keyed word, and its neighbour the word itself
    let keyed : UInt64 := readWord input (i + 8 * k) ^^^ readWord key (s + 8 * k)
    let neighbour := if k % 2 = 0 then k + 1 else k - 1
    lanes.getD k 0 + readWord input (i + 8 * neighbour)
      + (keyed &&& (0xFFFFFFFF : UInt64)) * (keyed >>> 32)

/-- Stirs the lanes at the end of a block. -/
def scramble (key : Array UInt8) (lanes : Array UInt64) : Array UInt64 :=
  lanes.mapIdx fun k a => ((a ^^^ (a >>> (47 : UInt64))) ^^^ readWord key (128 + 8 * k)) * prime32A

/-- Takes up so many stripes from `i` on, each with the secret eight bytes further on. -/
def takeStripes (key input : Array UInt8) (i count : Nat) (lanes : Array UInt64) : Array UInt64 :=
  (List.range count).foldl (fun lanes k => takeStripe key input (i + 64 * k) (8 * k) lanes) lanes

def mergeLanes (key : Array UInt8) (s : Nat) (start : UInt64) (lanes : Array UInt64) : UInt64 :=
  avalanche ((List.range 4).foldl (fun acc k =>
    acc + foldProduct (lanes.getD (2 * k) 0 ^^^ readWord key (s + 16 * k))
      (lanes.getD (2 * k + 1) 0 ^^^ readWord key (s + 16 * k + 8))) start)

def hashLong (seed : UInt64) (input : Array UInt8) : Digest :=
  let n := input.size
  let length := n.toUInt64
  let key := seededSecret seed
  let blocks := (n - 1) / 1024
  let lanes := (List.range blocks).foldl
    (fun lanes b => scramble key (takeStripes key input (1024 * b) 16 lanes)) initialLanes
  -- the last block is shorter, and the last 64 bytes are taken up once more
  let lanes := takeStripes key input (1024 * blocks) ((n - 1 - 1024 * blocks) / 64) lanes
  let lanes := takeStripe key input (n - 64) 121 lanes
  { low := mergeLanes key 11 (length * primeA) lanes
    high := mergeLanes key 117 (~~~(length * primeB)) lanes }

def digest (seed : UInt64) (input : Array UInt8) : Digest :=
  if input.size ≤ 128 then hashShort seed input
  else if input.size ≤ 240 then hashMiddle seed input
  else hashLong seed input

end Motion.Hash
