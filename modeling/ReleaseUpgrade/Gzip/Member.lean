import ReleaseUpgrade.Gzip.Inflate

/-!
# Compressed files

`Gzip.decompress?` reads the first member of a gzip file: a header with optional parts, the
compressed data, then a checksum and the length of what was compressed.  What follows the member is
not looked at.
-/

namespace ReleaseUpgrade.Gzip

/-- one bit of the checksum: division by the polynomial, lowest bit first -/
def checksumBit (c : UInt32) : UInt32 :=
  if c &&& 1 = 1 then (c >>> 1) ^^^ 0xEDB88320 else c >>> 1

/-- one byte of the checksum -/
def checksumByte (c : UInt32) (b : UInt8) : UInt32 :=
  checksumBit <| checksumBit <| checksumBit <| checksumBit <| checksumBit <| checksumBit <|
    checksumBit <| checksumBit <| c ^^^ b.toUInt32

/-- the cyclic redundancy check of 32 bits -/
def checksum (bytes : ByteArray) : UInt32 :=
  bytes.foldl checksumByte 0xFFFFFFFF ^^^ 0xFFFFFFFF

/-- the first three bytes of a member -/
def magic : List UInt8 := [0x1F, 0x8B, 0x08]

/-- the part of the header that a flag announces -/
def skipIf? (flags bit : Nat) (skip : Bits → Option Bits) (b : Bits) : Option Bits :=
  if flags / Nat.pow 2 bit % 2 = 1 then skip b else some b

/-- a text that ends with a zero byte -/
def skipText? (b : Bits) : Option Bits := b.afterZero? (min b.remaining 65536)

/-- a field with its length in front -/
def skipExtra? (b : Bits) : Option Bits := do
  let (n, b) ← b.number? 16
  let (_, b) ← b.take? n ByteArray.empty
  some b

/-- the low half of the checksum of the header so far -/
def skipHeaderCheck? (b : Bits) : Option Bits := do
  let expected := (checksum (b.bytes.extract 0 (b.position / 8))).toNat % 65536
  let (stored, b) ← b.number? 16
  if stored = expected then some b else none

/-- the stream after the header -/
def afterHeader? (b : Bits) : Option Bits := do
  let (head, b) ← b.take? 10 ByteArray.empty
  let flags := (head[3]?.getD 0).toNat
  if head.data.toList.take 3 = magic && flags < 32 then
    let b ← skipIf? flags 2 skipExtra? b
    let b ← skipIf? flags 3 skipText? b
    let b ← skipIf? flags 4 skipText? b
    skipIf? flags 1 skipHeaderCheck? b
  else none

/-- the content of the first member -/
def decompress? (bytes : List UInt8) : Option (List UInt8) := do
  let b ← afterHeader? { bytes := ⟨bytes.toArray⟩ }
  let (out, b) ← Inflate.inflate? b
  let (sum, b) ← b.align.number? 32
  let (size, _) ← b.number? 32
  if sum = (checksum out).toNat && size = out.size % Nat.pow 2 32 then some out.data.toList
  else none

/-- the bytes start like a gzip file -/
def isMember (bytes : List UInt8) : Bool := bytes.take 3 = magic

end ReleaseUpgrade.Gzip
