/-!
# Bit streams

`Bits` reads bytes bit by bit, the lowest bit of a byte first.
-/

namespace ReleaseUpgrade

/-- bytes and how many of their bits have been read -/
structure Bits where
  bytes : ByteArray
  position : Nat := 0

namespace Bits

/-- the bits that have not been read -/
def remaining (b : Bits) : Nat := b.bytes.size * 8 - b.position

/-- the next bit -/
def bit? (b : Bits) : Option (Nat × Bits) :=
  let i := b.position / 8
  if h : i < b.bytes.size then
    some (b.bytes[i].toNat / Nat.pow 2 (b.position % 8) % 2, { b with position := b.position + 1 })
  else none

/-- a number of `n` bits, the lowest first -/
def number? : Nat → Bits → Option (Nat × Bits)
  | 0, b => some (0, b)
  | n + 1, b => do
    let (low, b) ← b.bit?
    let (high, b) ← number? n b
    some (low + 2 * high, b)

/-- the stream from the next full byte on -/
def align (b : Bits) : Bits := { b with position := (b.position + 7) / 8 * 8 }

/-- the next byte of an aligned stream -/
def byte? (b : Bits) : Option (UInt8 × Bits) :=
  let i := b.position / 8
  if h : i < b.bytes.size then some (b.bytes[i], { b with position := b.position + 8 }) else none

/-- `n` bytes of an aligned stream, put behind `out` -/
def take? : Nat → ByteArray → Bits → Option (ByteArray × Bits)
  | 0, out, b => some (out, b)
  | n + 1, out, b => do
    let (x, b) ← b.byte?
    take? n (out.push x) b

/-- an aligned stream after the next zero byte -/
def afterZero? : Nat → Bits → Option Bits
  | 0, _ => none
  | fuel + 1, b => do
    let (x, b) ← b.byte?
    if x = 0 then some b else afterZero? fuel b

end Bits

end ReleaseUpgrade
