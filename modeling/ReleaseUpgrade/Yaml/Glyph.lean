/-!
# The characters of a YAML text

`Glyph` is a character together with its place.  `Glyph.ofText?` gives the characters of a text:
every line break is one character, and after the last character stands an end mark, so that the
place where the text ends is known too.

* `isBreak`, `isBlank`, `endsWord`   the classes that separate words and lines;
* `isMarker`                         three hyphens or points that start or end a document.
-/

namespace ReleaseUpgrade.Yaml

/-- a character and its place -/
structure Glyph where
  char : Char
  /-- how many characters of the text stand before it -/
  index : Nat
  line : Nat
  column : Nat

/-- a text from some place on -/
abbrev Glyphs := List Glyph

/-- stands after the last character; no text holds it -/
def endMark : Char := '\x00'

/-- a YAML text may hold the character -/
def isAllowed (c : Char) : Bool :=
  let n := c.toNat
  n = 9 || n = 10 || n = 13 || (0x20 ≤ n && n ≤ 0x7E) || n = 0x85 || (0xA0 ≤ n && n ≤ 0xD7FF) ||
    (0xE000 ≤ n && n ≤ 0xFFFD) || 0x10000 ≤ n

/-- a line break, in the form that it has in `Glyphs` -/
def isBreak (c : Char) : Bool := c = '\n' || c = '\u2028' || c = '\u2029'

/-- a space or a tab -/
def isBlank (c : Char) : Bool := c = ' ' || c = '\t'

/-- a space, a tab, a line break or the end of the text -/
def endsWord (c : Char) : Bool := isBlank c || isBreak c || c = endMark

/-- a line break or the end of the text -/
def endsLine (c : Char) : Bool := isBreak c || c = endMark

/-- a letter or a digit of ASCII, a hyphen or a low line -/
def isWordChar (c : Char) : Bool := c.isAlphanum || c = '_' || c = '-'

namespace Glyph

/-- the characters from the given place on; a carriage return with or without a line feed and the
next-line character are line feeds -/
def place (index line column : Nat) : List Char → Glyphs
  | [] => [⟨endMark, index, line, column⟩]
  | '\r' :: '\n' :: cs => ⟨'\n', index, line, column⟩ :: place (index + 2) (line + 1) 0 cs
  | c :: cs =>
    if c = '\r' || c = '\x85' then ⟨'\n', index, line, column⟩ :: place (index + 1) (line + 1) 0 cs
    else if isBreak c then ⟨c, index, line, column⟩ :: place (index + 1) (line + 1) 0 cs
    else ⟨c, index, line, column⟩ :: place (index + 1) line (column + 1) cs

/-- the characters of a text -/
def ofText? (s : String) : Option Glyphs :=
  let cs := s.toList
  if cs.all isAllowed then some (place 0 0 0 cs) else none

end Glyph

/-- the character `n` places further -/
def charAt (n : Nat) (gs : Glyphs) : Char := (gs[n]?.map (·.char)).getD endMark

/-- the next character -/
def next (gs : Glyphs) : Char := charAt 0 gs

/-- the column of the next character -/
def column (gs : Glyphs) : Nat := (gs.head?.map (·.column)).getD 0

/-- three times `c` at the start of a line, and nothing more in that word -/
def isMarkerOf (c : Char) (gs : Glyphs) : Bool :=
  column gs = 0 && next gs = c && charAt 1 gs = c && charAt 2 gs = c && endsWord (charAt 3 gs)

/-- a marker that starts or ends a document -/
def isMarker (gs : Glyphs) : Bool := isMarkerOf '-' gs || isMarkerOf '.' gs

/-- the characters of some glyphs -/
def chars (gs : Glyphs) : List Char := gs.map (·.char)

/-- without the blanks in front -/
def skipBlanks (gs : Glyphs) : Glyphs := gs.dropWhile fun g => isBlank g.char

/-- without a comment in front, up to the end of its line -/
def skipComment (gs : Glyphs) : Glyphs :=
  if next gs = '#' then gs.dropWhile fun g => !endsLine g.char else gs

/-- the rest of a line may hold blanks and a comment; what follows the line break -/
def finishLine? (gs : Glyphs) : Option Glyphs :=
  match skipComment (skipBlanks gs) with
  | g :: rest => if isBreak g.char then some rest else if g.char = endMark then some (g :: rest)
      else none
  | [] => some []

end ReleaseUpgrade.Yaml
