import ReleaseUpgrade.Time.Calendar

/-!
# Instants

`Instant` is a point in time in UTC, to the nanosecond.  A second that is inserted at the end of a
minute shares its number with the second before it and has a fraction of a thousand million or more.

* `Instant.text`          with a fraction of 0, 3, 6 or 9 digits, whatever is needed;
* `Instant.textToSecond`  without fraction.
-/

namespace ReleaseUpgrade

/-- a point in time: seconds since 1970 and nanoseconds in that second -/
structure Instant where
  seconds : Int
  nanos : Nat := 0
  deriving DecidableEq, Repr

namespace Instant

/-- the digits of `n` in a field of at least `width` places -/
def padded (width n : Nat) : String :=
  let digits := toString n
  "".pushn '0' (width - digits.length) ++ digits

/-- a year: four digits, with a sign where four are not enough -/
def yearText (y : Int) : String :=
  if 0 ≤ y && y ≤ 9999 then padded 4 y.toNat
  else (if y < 0 then "-" else "+") ++ padded 4 y.natAbs

/-- the shortest of 0, 3, 6 and 9 digits that hold the fraction -/
def fractionText (nanos : Nat) : String :=
  if nanos = 0 then ""
  else if nanos % 1000000 = 0 then "." ++ padded 3 (nanos / 1000000)
  else if nanos % 1000 = 0 then "." ++ padded 6 (nanos / 1000)
  else "." ++ padded 9 nanos

/-- date and time up to the second `second` of the minute -/
def upToSecond (t : Instant) (second : Nat) : String :=
  let d := Calendar.ofDayNumber (t.seconds / 86400)
  let s := (t.seconds % 86400).toNat
  yearText d.year ++ "-" ++ padded 2 d.month ++ "-" ++ padded 2 d.day ++ "T" ++
    padded 2 (s / 3600) ++ ":" ++ padded 2 (s / 60 % 60) ++ ":" ++ padded 2 second

/-- the second of the minute, 60 for an inserted one -/
def secondOfMinute (t : Instant) : Nat :=
  (t.seconds % 60).toNat + (if t.nanos < 1000000000 then 0 else 1)

/-- the text with as many digits of the fraction as are needed -/
def text (t : Instant) : String :=
  t.upToSecond t.secondOfMinute ++ fractionText (t.nanos % 1000000000) ++ "Z"

/-- the text to the second -/
def textToSecond (t : Instant) : String := t.upToSecond (t.seconds % 60).toNat ++ "Z"

end Instant

end ReleaseUpgrade
