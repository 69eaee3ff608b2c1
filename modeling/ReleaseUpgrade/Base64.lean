/-!
# Base64

Bytes as text in the alphabet `A-Z a-z 0-9 + /`, four characters for three bytes, with padding.

* `Base64.encode`       the text of bytes;
* `Base64.decode?`      the bytes of characters: padding must be there and bits that are left over
                        must be zero, so each sequence of bytes has one text;
* `Base64.decodeText?`  the bytes of a text.
-/

namespace ReleaseUpgrade.Base64

/-- the character of six bits -/
def digit (n : Nat) : UInt8 :=
  if n < 26 then UInt8.ofNat (n + 65)
  else if n < 52 then UInt8.ofNat (n + 71)
  else if n < 62 then UInt8.ofNat (n - 4)
  else if n = 62 then 43
  else 47

/-- the six bits of a character -/
def digit? (b : UInt8) : Option Nat :=
  if 65 ≤ b && b ≤ 90 then some (b.toNat - 65)
  else if 97 ≤ b && b ≤ 122 then some (b.toNat - 71)
  else if 48 ≤ b && b ≤ 57 then some (b.toNat + 4)
  else if b = 43 then some 62
  else if b = 47 then some 63
  else none

/-- the padding character `=` -/
def pad : UInt8 := 61

/-- the characters of bytes, as ASCII -/
def encodeBytes : List UInt8 → List UInt8
  | [] => []
  | [a] =>
    let n := a.toNat * 16
    [digit (n / 64), digit (n % 64), pad, pad]
  | [a, b] =>
    let n := (a.toNat * 256 + b.toNat) * 4
    [digit (n / 4096), digit (n / 64 % 64), digit (n % 64), pad]
  | a :: b :: c :: rest =>
    let n := (a.toNat * 256 + b.toNat) * 256 + c.toNat
    digit (n / 262144) :: digit (n / 4096 % 64) :: digit (n / 64 % 64) :: digit (n % 64) ::
      encodeBytes rest

/-- the bytes of characters in groups of four -/
def decode? : List UInt8 → Option (List UInt8)
  | [] => some []
  | [a, b, c, d] =>
    if d = pad then
      if c = pad then do
        let n := (← digit? a) * 64 + (← digit? b)
        if n % 16 = 0 then some [UInt8.ofNat (n / 16)] else none
      else do
        let n := ((← digit? a) * 64 + (← digit? b)) * 64 + (← digit? c)
        if n % 4 = 0 then some [UInt8.ofNat (n / 1024), UInt8.ofNat (n / 4 % 256)] else none
    else full? a b c d []
  | a :: b :: c :: d :: rest =>
    match decode? rest with
    | some bytes => full? a b c d bytes
    | none => none
  | _ => none
where
  /-- a group of four characters without padding, in front of `bytes` -/
  full? (a b c d : UInt8) (bytes : List UInt8) : Option (List UInt8) := do
    let n := (((← digit? a) * 64 + (← digit? b)) * 64 + (← digit? c)) * 64 + (← digit? d)
    some (UInt8.ofNat (n / 65536) :: UInt8.ofNat (n / 256 % 256) :: UInt8.ofNat (n % 256) :: bytes)

/-- the text of bytes -/
def encode (bytes : List UInt8) : String :=
  String.ofList ((encodeBytes bytes).map fun b => Char.ofNat b.toNat)

/-- the bytes of a text -/
def decodeText? (s : String) : Option (List UInt8) := decode? s.toUTF8.toList

end ReleaseUpgrade.Base64
