import ReleaseUpgrade.Decimal.Layout
import ReleaseUpgrade.Json.Basic
import ReleaseUpgrade.Text.Digits

/-!
# Writing JSON

`Json.render` writes a document without blanks, fields in their order.  Control characters, quotes
and backslashes are escaped, other characters written as they are; `Json.renderAscii` escapes
everything outside ASCII too.  A number that is not finite has no JSON text and is written `null`.
-/

namespace ReleaseUpgrade.Json

/-- a UTF-16 unit as an escape -/
def unitEscape (unit : Nat) : String := "\\u" ++ String.ofList (Text.hex 4 unit)

/-- the escape of a character that must not stand in quotes as it is -/
def escape? (c : Char) : Option String :=
  match c with
  | '"' => some "\\\""
  | '\\' => some "\\\\"
  | '\n' => some "\\n"
  | '\r' => some "\\r"
  | '\t' => some "\\t"
  | c =>
    if c.toNat = 8 then some "\\b"
    else if c.toNat = 12 then some "\\f"
    else if c.toNat < 32 then some (unitEscape c.toNat)
    else none

/-- a character between quotes -/
def character (c : Char) : String := (escape? c).getD (String.singleton c)

/-- a character between quotes, in ASCII: one escape for each of its UTF-16 units -/
def characterAscii (c : Char) : String :=
  match escape? c with
  | some s => s
  | none =>
    if c.toNat < 127 then String.singleton c
    else if c.toNat < 0x10000 then unitEscape c.toNat
    else
      let n := c.toNat - 0x10000
      unitEscape (0xD800 + n / 0x400) ++ unitEscape (0xDC00 + n % 0x400)

/-- text in quotes -/
def quote (char : Char → String) (s : String) : String :=
  s.foldl (fun acc c => acc ++ char c) "\"" ++ "\""

/-- the text of a number -/
def number : Number → String
  | .int n => toString n
  | .float x => if x.isFinite then Layout.document.render x else "null"

mutual

/-- `acc` with the text of a document after it -/
def append (char : Char → String) (acc : String) : Json → String
  | .null => acc ++ "null"
  | .bool b => acc ++ (if b then "true" else "false")
  | .num n => acc ++ number n
  | .str s => acc ++ quote char s
  | .arr items => appendItems char (acc ++ "[") items true ++ "]"
  | .obj fields => appendFields char (acc ++ "\x7b") fields true ++ "\x7d"
  | .unreadable => acc ++ "null"

def appendItems (char : Char → String) (acc : String) : List Json → Bool → String
  | [], _ => acc
  | j :: rest, first =>
    appendItems char (append char (if first then acc else acc ++ ",") j) rest false

def appendFields (char : Char → String) (acc : String) : List (String × Json) → Bool → String
  | [], _ => acc
  | (k, j) :: rest, first =>
    let acc := (if first then acc else acc ++ ",") ++ quote char k ++ ":"
    appendFields char (append char acc j) rest false

end

/-- the text of a document -/
def render (j : Json) : String := append character "" j

/-- the text of a document in ASCII -/
def renderAscii (j : Json) : String := append characterAscii "" j

end ReleaseUpgrade.Json
