/-!
# Blank characters

`Text.isBlank` is the property White_Space of Unicode.

* `Text.compact`     a text without its blank characters;
* `Text.isAllBlank`  a text of nothing else.
-/

namespace ReleaseUpgrade.Text

/-- the characters with the property White_Space -/
def isBlank (c : Char) : Bool :=
  let n := c.toNat
  (9 ≤ n && n ≤ 13) || n = 0x20 || n = 0x85 || n = 0xA0 || n = 0x1680 ||
    (0x2000 ≤ n && n ≤ 0x200A) || n = 0x2028 || n = 0x2029 || n = 0x202F || n = 0x205F ||
    n = 0x3000

/-- the text without its blank characters -/
def compact (s : String) : String := String.ofList (s.toList.filter fun c => !isBlank c)

/-- the text has only blank characters -/
def isAllBlank (s : String) : Bool := s.toList.all isBlank

end ReleaseUpgrade.Text
