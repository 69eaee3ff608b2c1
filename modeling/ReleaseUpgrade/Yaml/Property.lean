import ReleaseUpgrade.Text.Digits
import ReleaseUpgrade.Yaml.Glyph
import ReleaseUpgrade.Yaml.Token

/-!
# Tags, anchors and directives in YAML text

* `Property.name?`       the name of an anchor or of an alias;
* `Property.tag?`        a tag, as a handle and what follows it;
* `Property.directive?`  a line that states the version of YAML or declares a handle.
-/

namespace ReleaseUpgrade.Yaml.Property

/-- the word characters in front, and what follows them -/
def word (gs : Glyphs) : String × Glyphs :=
  (String.ofList (chars (gs.takeWhile fun g => isWordChar g.char)),
    gs.dropWhile fun g => isWordChar g.char)

/-- a name may end before the character -/
def endsName (c : Char) : Bool :=
  endsWord c || c = '?' || c = ':' || c = ',' || c = ']' || c = '}' || c = '%' || c = '@' || c = '`'

/-- the name after the sign of an anchor or an alias -/
def name? (gs : Glyphs) : Option (String × Glyphs) :=
  let (name, rest) := word gs
  if name = "" || !endsName (next rest) then none else some (name, rest)

/-! ## tags -/

/-- the length of a sequence of UTF-8 by its first byte -/
def sequenceLength? (b : Nat) : Option Nat :=
  if b < 0x80 then some 1
  else if b / 0x20 = 6 then some 2
  else if b / 0x10 = 14 then some 3
  else if b / 8 = 30 then some 4
  else none

/-- the byte that an escape stands for -/
def escapedByte? (gs : Glyphs) : Option Nat := do
  if next gs = '%' then
    let high ← Text.digit? 16 (charAt 1 gs)
    let low ← Text.digit? 16 (charAt 2 gs)
    some (high * 16 + low)
  else none

/-- `n` bytes that continue a sequence of UTF-8 -/
def continuation? : Nat → Glyphs → Option (List UInt8)
  | 0, _ => some []
  | n + 1, gs => do
    let b ← escapedByte? gs
    if b / 0x40 = 2 then
      let more ← continuation? n (gs.drop 3)
      some (UInt8.ofNat b :: more)
    else none

/-- the character of the escapes in front, and how many glyphs they have -/
def escapedChar? (gs : Glyphs) : Option (List Char × Nat) := do
  let first ← escapedByte? gs
  let length ← sequenceLength? first
  let more ← continuation? (length - 1) (gs.drop 3)
  let text := (String.fromUTF8? ⟨(UInt8.ofNat first :: more).toArray⟩).getD "\ufffd"
  some (text.toList, 3 * length)

/-- the character may stand in a tag; `wide` if the marks of flow collections may, too -/
def isTagChar (wide : Bool) (c : Char) : Bool :=
  isWordChar c || ";/?:@&=+$.%!~*'()".toList.contains c || (wide && (c = ',' || c = '[' || c = ']'))

/-- the characters of a tag in front, after `skip` further glyphs, and what follows them -/
def tagChars? (wide : Bool) : Nat → List Char → Glyphs → Option (String × Glyphs)
  | _, text, [] => some (String.ofList text.reverse, [])
  | skip + 1, text, _ :: rest => tagChars? wide skip text rest
  | 0, text, g :: rest =>
    if !isTagChar wide g.char then some (String.ofList text.reverse, g :: rest)
    else if g.char = '%' then
      match escapedChar? (g :: rest) with
      | some (cs, n) => tagChars? wide (n - 1) (cs.reverse ++ text) rest
      | none => none
    else tagChars? wide 0 (g.char :: text) rest

/-- characters of a tag, at least one -/
def someTagChars? (wide : Bool) (gs : Glyphs) : Option (String × Glyphs) := do
  let (text, rest) ← tagChars? wide 0 [] gs
  if text = "" then none else some (text, rest)

/-- a handle: an exclamation mark, a word, and perhaps another mark; the parts are the word, whether
the second mark is there, and what follows -/
def handle? (gs : Glyphs) : Option (String × Bool × Glyphs) :=
  if next gs = '!' then
    let (name, rest) := word (gs.drop 1)
    if next rest = '!' then some (name, true, rest.drop 1) else some (name, false, rest)
  else none

/-- a tag between angle brackets, after its first bracket -/
def verbatim? (gs : Glyphs) : Option (Token × Glyphs) := do
  let (text, rest) ← someTagChars? true gs
  if next rest = '>' then some (.tag "" text, rest.drop 1) else none

/-- a tag with a handle, a tag of its own after one mark, or the mark alone -/
def shorthand? (gs : Glyphs) : Option (Token × Glyphs) := do
  let (name, closed, rest) ← handle? gs
  if closed then
    let (text, rest) ← someTagChars? false rest
    some (.tag ("!" ++ name ++ "!") text, rest)
  else
    let (text, rest) ← tagChars? false 0 [] rest
    some (if name ++ text = "" then .tag "" "!" else .tag "!" (name ++ text), rest)

/-- a tag; `flow` if a comma may follow it -/
def tag? (flow : Bool) (gs : Glyphs) : Option (Token × Glyphs) := do
  let (token, rest) ← if charAt 1 gs = '<' then verbatim? (gs.drop 2) else shorthand? gs
  if endsWord (next rest) || (flow && next rest = ',') then some (token, rest) else none

/-! ## directives -/

/-- a number of one to nine digits -/
def number? (gs : Glyphs) : Option (Nat × Glyphs) :=
  let digits := chars (gs.takeWhile fun g => g.char.isDigit)
  if digits.isEmpty || 9 < digits.length then none
  else some (Nat.ofDigitChars 10 digits 0, gs.drop digits.length)

/-- the version of YAML -/
def version? (gs : Glyphs) : Option (Token × Glyphs) := do
  let (major, rest) ← number? gs
  if next rest = '.' then
    let (minor, rest) ← number? (rest.drop 1)
    some (.version major minor, rest)
  else none

/-- a handle and what it stands for -/
def declaration? (gs : Glyphs) : Option (Token × Glyphs) := do
  let (name, closed, rest) ← handle? gs
  let handle := "!" ++ name ++ (if closed then "!" else "")
  if (closed || name = "") && isBlank (next rest) then
    let (front, rest) ← someTagChars? true (skipBlanks rest)
    if endsWord (next rest) then some (.tagHandle handle front, rest) else none
  else none

/-- a directive after its sign, to the end of its line -/
def directive? (gs : Glyphs) : Option (Token × Glyphs) := do
  let (name, rest) := word gs
  if endsWord (next rest) then
    let (token, rest) ←
      if name = "YAML" then version? (skipBlanks rest)
      else if name = "TAG" then declaration? (skipBlanks rest)
      else none
    some (token, ← finishLine? rest)
  else none

end ReleaseUpgrade.Yaml.Property
