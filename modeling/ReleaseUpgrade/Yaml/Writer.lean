import ReleaseUpgrade.Decimal.Layout
import ReleaseUpgrade.Text.Digits
import ReleaseUpgrade.Yaml.Core
import ReleaseUpgrade.Yaml.Glyph

/-!
# Writing YAML

`Yaml.render` writes a JSON document as YAML: collections as blocks with an indentation of two,
lists not indented under their key, empty collections as a pair of brackets.

A text of several lines is written as it is in a literal block.  Other texts are plain if they read
back as the same text; else they stand between apostrophes, and between quotation marks if only
escapes can express them.  A key that has several lines or is long has a sign of its own.
-/

namespace ReleaseUpgrade.Yaml

/-- how a text is written -/
inductive Style where
  | plain
  | single
  | double
  | literal
  deriving DecidableEq, Repr

/-- what matters of a text for how it can be written -/
structure Traits where
  /-- marks of YAML stand where they would be read as such -/
  marks : Bool
  /-- the text has line breaks -/
  multiline : Bool
  /-- it starts or ends with a space or a line break -/
  ragged : Bool
  spaceAtEnd : Bool
  spaceAfterBreak : Bool
  spaceBeforeBreak : Bool
  /-- it has characters that cannot be written as they are -/
  special : Bool

namespace Traits

/-- the character can be written as it is -/
def isPrintable (c : Char) : Bool :=
  let n := c.toNat
  n = 10 || (0x20 ≤ n && n ≤ 0x7E) || (0xA0 ≤ n && n ≤ 0xD7FF) ||
    (0xE000 ≤ n && n ≤ 0xFFFD && n != 0xFEFF) || 0x10000 ≤ n

/-- a character that breaks a line, also where none is printed -/
def breaks (c : Char) : Bool := isBreak c || c = '\r' || c = '\x85'

def endsPart (c : Char) : Bool := isBlank c || breaks c || c = endMark

/-- the first character, with `ends` if nothing or a blank follows, is a mark -/
def isFirstMark (c : Char) (ends : Bool) : Bool :=
  "#,[]{}&*!|>'\"%@`".toList.contains c || ((c = '?' || c = ':' || c = '-') && ends)

/-- a later character is a mark -/
def isLaterMark (before c : Char) (ends : Bool) : Bool :=
  (c = ':' && ends) || (c = '#' && endsPart before)

/-- a blank or the end follows -/
def endsBefore : List Char → Bool
  | c :: _ => endsPart c
  | [] => true

/-- a mark among the characters after `before` -/
def hasLaterMark : Char → List Char → Bool
  | _, [] => false
  | before, c :: rest => isLaterMark before c (endsBefore rest) || hasLaterMark c rest

def hasMark : List Char → Bool
  | [] => false
  | c :: rest => isFirstMark c (endsBefore rest) || hasLaterMark c rest

/-- two characters with these properties stand next to each other -/
def hasPair (p q : Char → Bool) : List Char → Bool
  | a :: b :: rest => (p a && q b) || hasPair p q (b :: rest)
  | _ => false

/-- the text starts like a marker of a document -/
def startsLikeMarker : List Char → Bool
  | '-' :: '-' :: '-' :: _ => true
  | '.' :: '.' :: '.' :: _ => true
  | _ => false

def isSpace (c : Char) : Bool := c = ' '

def ofChars (cs : List Char) : Traits where
  marks := startsLikeMarker cs || hasMark cs
  multiline := cs.any breaks
  ragged := (cs.head?.any fun c => isSpace c || breaks c) ||
    cs.getLast?.any fun c => isSpace c || breaks c
  spaceAtEnd := cs.getLast?.any isSpace
  spaceAfterBreak := hasPair breaks isSpace cs
  spaceBeforeBreak := hasPair isSpace breaks cs
  special := cs.any fun c => !isPrintable c

/-- the text can be written without quotes -/
def allowsPlain (t : Traits) : Bool :=
  !(t.ragged || t.spaceAfterBreak || t.spaceBeforeBreak || t.special || t.multiline || t.marks)

/-- the text can stand between apostrophes -/
def allowsSingle (t : Traits) : Bool :=
  !(t.spaceAfterBreak || t.spaceBeforeBreak || t.special)

/-- the text can stand in a literal block -/
def allowsLiteral (t : Traits) : Bool := !(t.spaceAtEnd || t.spaceBeforeBreak || t.special)

end Traits

namespace Style

/-- how a text is best written: over several lines if it has a line feed, in quotes if it would not
be read as a text without them -/
def preferred (s : String) : Style :=
  if s.toList.contains '\n' then .literal
  else if Core.isPlainText s then .plain
  else .single

/-- how a text is written; `inLine` if it is a key that is followed by its colon -/
def choose (s : String) (inLine : Bool) : Style :=
  let t := Traits.ofChars s.toList
  match preferred s with
  | .literal => if t.allowsLiteral && !inLine then .literal else .double
  | .plain =>
    if t.allowsPlain then .plain else if t.allowsSingle then .single else .double
  | _ => if t.allowsSingle then .single else .double

end Style

/-- the key is followed by its colon: it has one line and is not long -/
def isShortKey (s : String) : Bool :=
  !(Traits.ofChars s.toList).multiline && s.utf8ByteSize ≤ 128

namespace Render

/-- blanks in front of a line -/
def pad (indent : Nat) : String := "".pushn ' ' indent

/-- the characters of a text over several lines, each line indented -/
def lines (indent : Nat) : Bool → List Char → List Char
  | _, [] => []
  | atStart, c :: rest =>
    if isBreak c then c :: lines indent true rest
    else (if atStart then List.replicate indent ' ' else []) ++ c :: lines indent false rest

/-- between apostrophes; after a line break the line is indented -/
def single (indent : Nat) (s : String) : String :=
  let doubled := s.toList.flatMap fun c => if c = '\'' then ['\'', '\''] else [c]
  let atEnd := match s.toList.getLast? with
    | some c => if isBreak c then pad indent else ""
    | none => ""
  "'" ++ String.ofList (lines indent false doubled) ++ atEnd ++ "'"

/-- upper-case hexadecimal digits, at least `width` of them -/
def hex (width n : Nat) : List Char := (Text.hex width n).map Char.toUpper

/-- the letter of a short escape -/
def escapeLetter? (c : Char) : Option Char :=
  match c with
  | '\x00' => some '0'
  | '\x07' => some 'a'
  | '\x08' => some 'b'
  | '\t' => some 't'
  | '\n' => some 'n'
  | '\x0B' => some 'v'
  | '\x0C' => some 'f'
  | '\r' => some 'r'
  | '\x1B' => some 'e'
  | '"' => some '"'
  | '\\' => some '\\'
  | '\x85' => some 'N'
  | '\xA0' => some '_'
  | '\u2028' => some 'L'
  | '\u2029' => some 'P'
  | _ => none

/-- a character between quotation marks -/
def doubleChar (c : Char) : List Char :=
  if Traits.isPrintable c && !Traits.breaks c && c != '"' && c != '\\' then [c]
  else
    '\\' :: match escapeLetter? c with
      | some e => [e]
      | none =>
        let n := c.toNat
        if n ≤ 0xFF then 'x' :: hex 2 n
        else if n ≤ 0xFFFF then 'u' :: hex 4 n
        else 'U' :: hex 8 n

/-- between quotation marks -/
def double (s : String) : String := "\"" ++ String.ofList (s.toList.flatMap doubleChar) ++ "\""

/-- the digit that states the indentation, if the text starts with a blank -/
def indentSign (cs : List Char) : String :=
  match cs with
  | c :: _ => if c = ' ' || isBreak c then "2" else ""
  | [] => ""

/-- the sign for the line breaks at the end of a text -/
def chompSign (cs : List Char) : String :=
  match cs.reverse with
  | a :: rest =>
    if !isBreak a then "-"
    else
      match rest with
      | b :: _ => if isBreak b then "+" else ""
      | [] => "+"
  | [] => "-"

/-- a literal block, without the end of its last line -/
def literal (indent : Nat) (s : String) : String :=
  let cs := s.toList
  "|" ++ indentSign cs ++ chompSign cs ++ "\n" ++ String.ofList (lines indent true cs)

/-- a text, and whether its last line has ended; further lines are indented -/
def text (indent : Nat) (inLine : Bool) (s : String) : String × Bool :=
  match Style.choose s inLine with
  | .plain => (s, false)
  | .single => (single indent s, false)
  | .double => (double s, false)
  | .literal => (literal indent s, s.toList.getLast?.any isBreak)

/-- a text with the end of its last line -/
def ended (t : String × Bool) : String := if t.2 then t.1 else t.1 ++ "\n"

/-- a key up to and with the sign in front of its value -/
def key (indent : Nat) (k : String) : String :=
  if isShortKey k then (text (indent + 2) true k).1 ++ ":"
  else "? " ++ ended (text (indent + 2) false k) ++ pad indent ++ ":"

/-- a value that is no collection -/
def leaf (indent : Nat) : Json → String
  | .bool b => if b then "true\n" else "false\n"
  | .num (.int n) => toString n ++ "\n"
  | .num (.float x) => Layout.document.render x ++ "\n"
  | .str s => ended (text indent false s)
  | _ => "null\n"

/-- what stands between the sign of a value and the value, and the indentation of the value: a
collection after a short key starts on a new line, and a list is not indented there -/
def valueStart (indent : Nat) (short : Bool) : Json → String × Nat
  | .arr (_ :: _) => if short then ("\n" ++ pad indent, indent) else (" ", indent + 2)
  | .obj (_ :: _) => if short then ("\n" ++ pad (indent + 2), indent + 2) else (" ", indent + 2)
  | _ => (" ", indent + 2)

mutual

/-- `acc` with a value after it; its lines but the first have the indentation `indent` -/
def append (indent : Nat) (acc : String) : Json → String
  | .arr [] => acc ++ "[]\n"
  | .obj [] => acc ++ "\x7b\x7d\n"
  | .arr (j :: items) => appendItems indent (append (indent + 2) (acc ++ "- ") j) items
  | .obj ((k, j) :: fields) =>
    let start := valueStart indent (isShortKey k) j
    appendFields indent (append start.2 (acc ++ key indent k ++ start.1) j) fields
  | j => acc ++ leaf indent j

def appendItems (indent : Nat) (acc : String) : List Json → String
  | [] => acc
  | j :: rest =>
    appendItems indent (append (indent + 2) (acc ++ pad indent ++ "- ") j) rest

def appendFields (indent : Nat) (acc : String) : List (String × Json) → String
  | [] => acc
  | (k, j) :: rest =>
    let start := valueStart indent (isShortKey k) j
    appendFields indent (append start.2 (acc ++ pad indent ++ key indent k ++ start.1) j) rest

end

end Render

/-- the YAML text of a document -/
def render (j : Json) : String := Render.append 0 "" j

end ReleaseUpgrade.Yaml
