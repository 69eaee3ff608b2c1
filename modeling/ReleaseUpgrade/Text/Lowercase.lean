import ReleaseUpgrade.Text.LetterCase

/-!
# Lower case

`Text.lowercase` is the lower-case form of a text in any script.  A capital sigma at the end of a
word becomes a final sigma: the nearest character before it that is not passed over has case, and
the nearest one after it has none.
-/

namespace ReleaseUpgrade.Text

/-- the code point is in one of the ranges -/
def inRanges (ranges : List (Nat × Nat)) (n : Nat) : Bool :=
  ranges.any fun r => r.1 ≤ n && n ≤ r.2

/-- the character is upper case, lower case or title case -/
def hasCase (c : Char) : Bool := inRanges LetterCase.cased c.toNat

/-- the character is passed over when the end of a word is looked for -/
def isCaseIgnorable (c : Char) : Bool := inRanges LetterCase.ignorable c.toNat

/-- the first character that is not passed over has case -/
def meetsCase (cs : List Char) : Bool :=
  match cs.dropWhile isCaseIgnorable with
  | c :: _ => hasCase c
  | [] => false

/-- the lower-case form of a character on its own -/
def lowerChar (c : Char) : List Char :=
  if c.toNat < 128 then [c.toLower]
  else if c.toNat = 0x130 then ['i', Char.ofNat 0x307]
  else
    match LetterCase.lowerings.find? fun l =>
      l.first ≤ c.toNat && c.toNat ≤ l.last && (c.toNat - l.first) % l.step = 0 with
    | some l => [Char.ofNat ((c.toNat : Int) + l.shift).toNat]
    | none => [c]

/-- the lower-case form of `rest`, with `before` in front of it in reverse -/
def lowerChars : List Char → List Char → List Char
  | _, [] => []
  | before, c :: rest =>
    (if c = 'Σ' then
      if meetsCase before && !meetsCase rest then ['ς'] else ['σ']
    else lowerChar c) ++ lowerChars (c :: before) rest

/-- the text in lower case -/
def lowercase (s : String) : String := String.ofList (lowerChars [] s.toList)

end ReleaseUpgrade.Text
