/-!
# Digits

* `Text.digit?`    the value of a digit in a base up to sixteen;
* `Text.number?`   the number that digits stand for;
* `Text.hex`       the hexadecimal digits of a number.
-/

namespace ReleaseUpgrade.Text

/-- the value of a digit in a base up to sixteen; a letter may be of either case -/
def digit? (base : Nat) (c : Char) : Option Nat :=
  let value :=
    if c.isDigit then c.toNat - 48
    else if 'a' ≤ c && c ≤ 'f' then c.toNat - 87
    else if 'A' ≤ c && c ≤ 'F' then c.toNat - 55
    else base
  if value < base then some value else none

/-- the number that digits stand for, at least one of them -/
def number? (base : Nat) (cs : List Char) : Option Nat :=
  if cs.isEmpty then none
  else cs.foldlM (fun n c => (digit? base c).map fun d => n * base + d) 0

/-- the hexadecimal digits of a number in lower case, at least `width` of them -/
def hex (width n : Nat) : List Char :=
  let digits := Nat.toDigits 16 n
  List.replicate (width - digits.length) '0' ++ digits

end ReleaseUpgrade.Text
