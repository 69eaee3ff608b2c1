import ReleaseUpgrade.Json.Number
import ReleaseUpgrade.Text.Digits

/-!
# The tokens of JSON text

`Json.Token.ofBytes?` cuts UTF-8 bytes into tokens.  Text between quotes is checked only for its
shape; whether it is text at all (paired surrogates, valid UTF-8) is kept in the token, since text
that is skipped need not be.  The same holds for numbers beyond the doubles.
-/

namespace ReleaseUpgrade.Json

/-- a token of JSON text -/
inductive Token where
  | leftBracket
  | rightBracket
  | leftBrace
  | rightBrace
  | comma
  | colon
  /-- a quoted text, `none` if its content is no text -/
  | text (content : Option String)
  /-- a number, a truth value or `null` -/
  | leaf (value : Json)

namespace Token

/-- the value of a hexadecimal digit -/
def hexDigit? (b : UInt8) : Option Nat := Text.digit? 16 (Char.ofNat b.toNat)

/-- four hexadecimal digits and what follows them -/
def hexFour? : List UInt8 → Option (Nat × List UInt8)
  | a :: b :: c :: d :: rest => do
    let a ← hexDigit? a
    let b ← hexDigit? b
    let c ← hexDigit? c
    let d ← hexDigit? d
    some (((a * 16 + b) * 16 + c) * 16 + d, rest)
  | _ => none

/-- the UTF-8 bytes of a code point, last byte first -/
def utf8Reversed (n : Nat) : List UInt8 :=
  (String.singleton (Char.ofNat n)).toUTF8.toList.reverse

/-- the byte that a one-letter escape stands for -/
def simpleEscape? (b : UInt8) : Option UInt8 :=
  match b with
  | 34 => some 34
  | 92 => some 92
  | 47 => some 47
  | 98 => some 8
  | 102 => some 12
  | 110 => some 10
  | 114 => some 13
  | 116 => some 9
  | _ => none

/-- the code point of an escape that starts with the unit `n`, and what follows; `none` for a
surrogate without its partner -/
def codePoint (n : Nat) (rest : List UInt8) : Option Nat × List UInt8 :=
  if 0xDC00 ≤ n && n ≤ 0xDFFF then (none, rest)
  else if 0xD800 ≤ n && n ≤ 0xDBFF then
    match rest with
    | 92 :: 117 :: after =>
      match hexFour? after with
      | some (low, rest') =>
        if 0xDC00 ≤ low && low ≤ 0xDFFF then
          (some (0x10000 + (n - 0xD800) * 0x400 + (low - 0xDC00)), rest')
        else (none, rest)
      | none => (none, rest)
    | _ => (none, rest)
  else (some n, rest)

/-- text up to its closing quote: its bytes in reverse are added to `bytes`, and `sound` tells
whether every escape so far was a code point -/
def quoted? : Nat → List UInt8 → Bool → List UInt8 → Option (Option String × List UInt8)
  | 0, _, _, _ => none
  | _ + 1, _, _, [] => none
  | fuel + 1, bytes, sound, b :: rest =>
    if b = 34 then
      some (if sound then String.fromUTF8? ⟨bytes.reverse.toArray⟩ else none, rest)
    else if b = 92 then
      match rest with
      | 117 :: after =>
        match hexFour? after with
        | none => none
        | some (n, after) =>
          match codePoint n after with
          | (some c, after) => quoted? fuel (utf8Reversed c ++ bytes) sound after
          | (none, after) => quoted? fuel bytes false after
      | e :: after =>
        match simpleEscape? e with
        | some c => quoted? fuel (c :: bytes) sound after
        | none => none
      | [] => none
    else if b < 32 then none
    else quoted? fuel (b :: bytes) sound rest

def isDigit (b : UInt8) : Bool := 48 ≤ b && b ≤ 57

/-- the digits in front, and what follows them -/
def digits (bs : List UInt8) : List Nat × List UInt8 :=
  ((bs.takeWhile isDigit).map fun b => b.toNat - 48, bs.dropWhile isDigit)

/-- at least one digit -/
def someDigits? (bs : List UInt8) : Option (List Nat × List UInt8) :=
  match digits bs with
  | ([], _) => none
  | found => some found

/-- the digits before the point: one zero alone, or digits that start with another -/
def whole? (bs : List UInt8) : Option (List Nat × List UInt8) :=
  match someDigits? bs with
  | some (0 :: _ :: _, _) => none
  | found => found

/-- a point and digits, or nothing -/
def fraction? : List UInt8 → Option (Option (List Nat) × List UInt8)
  | 46 :: rest => (someDigits? rest).map fun (ds, rest) => (some ds, rest)
  | rest => some (none, rest)

/-- an exponent, or nothing -/
def exponent? : List UInt8 → Option (Option Int × List UInt8)
  | e :: rest =>
    if e = 101 || e = 69 then
      let (negative, rest) : Bool × List UInt8 :=
        match rest with
        | 43 :: rest => (false, rest)
        | 45 :: rest => (true, rest)
        | rest => (false, rest)
      (someDigits? rest).map fun (ds, rest) =>
        let n : Int := (ds.foldl (fun n d => n * 10 + d) 0 : Nat)
        (some (if negative then -n else n), rest)
    else some (none, e :: rest)
  | [] => some (none, [])

/-- a number after its sign -/
def number? (negative : Bool) (bs : List UInt8) : Option (Token × List UInt8) := do
  let (whole, bs) ← whole? bs
  let (fraction, bs) ← fraction? bs
  let (exponent, bs) ← exponent? bs
  let text : NumberText := ⟨negative, whole, fraction, exponent⟩
  some (.leaf ((text.value?).elim .unreadable .num), bs)

def isBlank (b : UInt8) : Bool := b = 32 || b = 10 || b = 9 || b = 13

/-- the token that starts with the byte `b`, which is no blank -/
def next? (b : UInt8) (rest : List UInt8) : Option (Token × List UInt8) :=
  match b with
  | 91 => some (.leftBracket, rest)
  | 93 => some (.rightBracket, rest)
  | 123 => some (.leftBrace, rest)
  | 125 => some (.rightBrace, rest)
  | 44 => some (.comma, rest)
  | 58 => some (.colon, rest)
  | 34 => (quoted? (rest.length + 1) [] true rest).map fun (s, rest) => (.text s, rest)
  | 45 => number? true rest
  | 110 =>
    match rest with
    | 117 :: 108 :: 108 :: rest => some (.leaf .null, rest)
    | _ => none
  | 116 =>
    match rest with
    | 114 :: 117 :: 101 :: rest => some (.leaf (.bool true), rest)
    | _ => none
  | 102 =>
    match rest with
    | 97 :: 108 :: 115 :: 101 :: rest => some (.leaf (.bool false), rest)
    | _ => none
  | _ => if isDigit b then number? false (b :: rest) else none

/-- the tokens in front of `tokens`, which is in reverse -/
def scan? : Nat → List Token → List UInt8 → Option (List Token)
  | _, tokens, [] => some tokens.reverse
  | 0, _, _ :: _ => none
  | fuel + 1, tokens, b :: rest =>
    if isBlank b then scan? fuel tokens rest
    else
      match next? b rest with
      | some (t, rest) => scan? fuel (t :: tokens) rest
      | none => none

/-- the tokens of a whole text; every token takes at least one byte -/
def ofBytes? (bytes : List UInt8) : Option (List Token) := scan? bytes.length [] bytes

end Token

end ReleaseUpgrade.Json
