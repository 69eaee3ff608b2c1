import ReleaseUpgrade.Text.Digits

/-!
# Targets of requests

A `Target` is the path and the query of a request as they are sent.  The path stands as it is, the
query is encoded.

* `Target.ofParts?`   the target of a path and parameters, if it can be sent at all;
* `Target.path`       the path: it ends before a question mark or a number sign;
* `Target.query`      the parameters, decoded.
-/

namespace ReleaseUpgrade

/-- path and query of a request as they are sent, in UTF-8 -/
structure Target where
  bytes : List UInt8
  deriving DecidableEq, Repr

namespace Target

/-- the byte of an ASCII character -/
def byte (c : Char) : UInt8 := UInt8.ofNat c.toNat

/-- the byte stands for itself in a query -/
def isPlain (b : UInt8) : Bool :=
  (byte 'a' ≤ b && b ≤ byte 'z') || (byte 'A' ≤ b && b ≤ byte 'Z') ||
    (byte '0' ≤ b && b ≤ byte '9') || b = byte '-' || b = byte '.' || b = byte '_' || b = byte '*'

/-- the hexadecimal digit of a number below sixteen -/
def hexDigit (n : Nat) : UInt8 := if n < 10 then UInt8.ofNat (48 + n) else UInt8.ofNat (55 + n)

/-- the number that a hexadecimal digit stands for -/
def hexValue? (b : UInt8) : Option Nat := Text.digit? 16 (Char.ofNat b.toNat)

/-- a byte in a query -/
def encodeByte (b : UInt8) : List UInt8 :=
  if isPlain b then [b]
  else if b = byte ' ' then [byte '+']
  else [byte '%', hexDigit (b.toNat / 16), hexDigit (b.toNat % 16)]

/-- a text in a query -/
def encode (s : String) : List UInt8 := s.toUTF8.toList.flatMap encodeByte

/-- the bytes that a part of a query stands for -/
def decodeBytes : List UInt8 → List UInt8
  | [] => []
  | b :: bs =>
    if b = byte '+' then byte ' ' :: decodeBytes bs
    else if b = byte '%' then
      match bs with
      | h :: l :: rest =>
        match hexValue? h, hexValue? l with
        | some h, some l => UInt8.ofNat (16 * h + l) :: decodeBytes rest
        | _, _ => b :: decodeBytes (h :: l :: rest)
      | rest => b :: decodeBytes rest
    else b :: decodeBytes bs

/-- the text of bytes; a byte that is no part of a character becomes a replacement character -/
def text (bytes : List UInt8) : String :=
  match String.fromUTF8? ⟨bytes.toArray⟩ with
  | some s => s
  | none => String.ofList (bytes.map fun b => if b < 128 then Char.ofNat b.toNat else '\uFFFD')

/-- the byte may stand in a path -/
def fitsPath (b : UInt8) : Bool :=
  33 ≤ b && b ≠ byte '<' && b ≠ byte '>' && b ≠ 96

/-- the byte may stand in a query -/
def fitsQuery (b : UInt8) : Bool := 33 ≤ b && b ≠ 34 && b ≠ byte '<' && b ≠ byte '>'

/-- what stands before the first byte of `marks`, and the rest with that byte -/
def cut (marks : List Char) (bytes : List UInt8) : List UInt8 × List UInt8 :=
  let stops (b : UInt8) : Bool := marks.any fun c => b = byte c
  (bytes.takeWhile fun b => !stops b, bytes.dropWhile fun b => !stops b)

/-- the target without what follows a number sign -/
def sent (t : Target) : List UInt8 := (cut ['#'] t.bytes).1

/-- the bytes of the path -/
def pathBytes (t : Target) : List UInt8 := (cut ['?'] t.sent).1

/-- the bytes of the query -/
def queryBytes (t : Target) : List UInt8 := (cut ['?'] t.sent).2.tail

/-- the length from which on a target is too long -/
def lengthLimit : Nat := 65535

/-- the target can be sent -/
def isValid (t : Target) : Bool :=
  t.pathBytes.all fitsPath && t.queryBytes.all fitsQuery && t.bytes.length < lengthLimit

/-- the target of a path and parameters, if it can be sent -/
def ofParts? (path : String) (parameters : List (String × String)) : Option Target :=
  let query := parameters.flatMap fun (k, v) => [byte '&'] ++ encode k ++ [byte '='] ++ encode v
  let t : Target := ⟨path.toUTF8.toList ++ [byte '?'] ++ query⟩
  if t.isValid then some t else none

def path (t : Target) : String := text t.pathBytes

/-- the parts between ampersands -/
def parts : List UInt8 → List (List UInt8)
  | [] => [[]]
  | b :: bs =>
    if b = byte '&' then [] :: parts bs
    else
      match parts bs with
      | part :: rest => (b :: part) :: rest
      | [] => [[b]]

/-- the parameter that a part of a query stands for -/
def parameter (part : List UInt8) : String × String :=
  let (name, value) := cut ['='] part
  (text (decodeBytes name), text (decodeBytes value.tail))

def query (t : Target) : List (String × String) :=
  ((parts t.queryBytes).filter fun part => !part.isEmpty).map parameter

end Target

end ReleaseUpgrade
