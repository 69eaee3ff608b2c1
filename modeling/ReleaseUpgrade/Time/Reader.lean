import ReleaseUpgrade.Time.Instant
import ReleaseUpgrade.Text.Blank

/-!
# Reading instants

Two readers of date and time with an offset from UTC.

* `Instant.ofCondition?`  the time of a condition: blanks may stand between the parts, numbers may
                          be short, the year may have a sign and any number of digits, and a second
                          may be 60;
* `Instant.ofMetadata?`   the times of object metadata: full numbers, the separators of the date or
                          of the time may be left out, minutes and seconds may be missing.
-/

namespace ReleaseUpgrade.Instant

/-- a date and time at an offset in seconds -/
structure Local where
  date : Date
  hour : Nat
  minute : Nat
  second : Nat
  nanos : Nat
  offset : Int

/-- the instant of a local time -/
def ofLocal (l : Local) : Instant :=
  let day := Calendar.dayNumber l.date
  let extra := if l.second = 60 then 1 else 0
  ⟨day * 86400 + l.hour * 3600 + l.minute * 60 + (l.second - extra : Nat) - l.offset,
    l.nanos + extra * 1000000000⟩

/-- the digits in front, at most `limit` of them, and what follows -/
def digitsUpTo (limit : Nat) (cs : List Char) : List Nat × List Char :=
  let ds := (cs.take limit).takeWhile Char.isDigit
  (ds.map fun c => c.toNat - 48, cs.drop ds.length)

def ofDigits (ds : List Nat) : Nat := ds.foldl (fun n d => n * 10 + d) 0

/-- a number of one to `limit` digits -/
def numberUpTo? (limit : Nat) (cs : List Char) : Option (Nat × List Char) :=
  match digitsUpTo limit cs with
  | ([], _) => none
  | (ds, rest) => some (ofDigits ds, rest)

/-- a number of exactly `width` digits -/
def numberOf? (width : Nat) (cs : List Char) : Option (Nat × List Char) :=
  let (ds, rest) := digitsUpTo width cs
  if ds.length = width then some (ofDigits ds, rest) else none

/-- the characters after the first one, if it is `c` -/
def char? (c : Char) : List Char → Option (List Char)
  | x :: rest => if x = c then some rest else none
  | [] => none

def skipBlank (cs : List Char) : List Char := cs.dropWhile Text.isBlank

/-- the nanoseconds of the digits after a point, of which those after the ninth are dropped -/
def nanosOf (ds : List Nat) : Nat :=
  let ds := ds.take 9
  ofDigits ds * Nat.pow 10 (9 - ds.length)

/-! ## times of conditions -/

/-- a year: up to four digits, or a sign and any number of them -/
def lenientYear? (cs : List Char) : Option (Int × List Char) :=
  let signed (rest : List Char) : Option (Nat × List Char) := do
    let (n, rest) ← numberUpTo? rest.length rest
    if n < Nat.pow 2 63 then some (n, rest) else none
  match cs with
  | '-' :: rest => (signed rest).map fun (n, rest) => (-(n : Int), rest)
  | '+' :: rest => (signed rest).map fun (n, rest) => ((n : Int), rest)
  | cs => (numberUpTo? 4 cs).map fun (n, rest) => ((n : Int), rest)

/-- an offset: `Z`, `UTC`, or a sign, two digits for the hours and two for the minutes -/
def lenientOffset? (cs : List Char) : Option (Int × List Char) :=
  match cs with
  | 'Z' :: rest | 'z' :: rest => some (0, rest)
  | a :: b :: c :: rest =>
    if a.toUpper = 'U' && b.toUpper = 'T' && c.toUpper = 'C' then some (0, rest)
    else do
      let sign : Int ← if a = '+' then some 1 else if a = '-' || a = '−' then some (-1) else none
      let (hours, rest) ← numberOf? 2 (b :: c :: rest)
      let rest := rest.dropWhile fun c => c = ':' || Text.isBlank c
      let (minutes, rest) ← numberOf? 2 rest
      if minutes < 60 && hours < 24 then some (sign * (hours * 3600 + minutes * 60), rest)
      else none
  | _ => none

/-- a fraction after a point, or nothing -/
def lenientFraction? (cs : List Char) : Option (Nat × List Char) :=
  match cs with
  | '.' :: rest =>
    match digitsUpTo rest.length rest with
    | ([], _) => none
    | (ds, rest) => some (nanosOf ds, rest)
  | cs => some (0, cs)

/-- the first and the last day that a condition's time can be on -/
def firstDay : Int := Calendar.dayNumber ⟨-262143, 1, 1⟩
def lastDay : Int := Calendar.dayNumber ⟨262142, 12, 31⟩

def inRange (t : Instant) : Bool := firstDay ≤ t.seconds / 86400 && t.seconds / 86400 ≤ lastDay

/-- the instant that the text of a condition's time stands for -/
def ofCondition? (s : String) : Option Instant := do
  let (year, cs) ← lenientYear? (skipBlank s.toList)
  let cs ← char? '-' (skipBlank cs)
  let (month, cs) ← numberUpTo? 2 (skipBlank cs)
  let cs ← char? '-' (skipBlank cs)
  let (day, cs) ← numberUpTo? 2 (skipBlank cs)
  let cs ← match cs with
    | c :: cs => if c = 't' || c = 'T' || c = ' ' then some cs else none
    | [] => none
  let (hour, cs) ← numberUpTo? 2 (skipBlank cs)
  let cs ← char? ':' (skipBlank cs)
  let (minute, cs) ← numberUpTo? 2 (skipBlank cs)
  let cs ← char? ':' (skipBlank cs)
  let (second, cs) ← numberUpTo? 2 (skipBlank cs)
  let (nanos, cs) ← lenientFraction? cs
  let (offset, cs) ← lenientOffset? (skipBlank cs)
  let date : Date := ⟨year, month, day⟩
  let day := Calendar.dayNumber date
  if (skipBlank cs).isEmpty && Calendar.isDate date && hour < 24 && minute < 60 && second ≤ 60 &&
      firstDay ≤ day && day ≤ lastDay then
    let t := ofLocal ⟨date, hour, minute, second, nanos, offset⟩
    if t.inRange then some t else none
  else none

/-! ## times of object metadata -/

/-- a year: four digits, or a sign and six; there is no negative year zero -/
def fullYear? (cs : List Char) : Option (Int × List Char) :=
  match cs with
  | '-' :: rest => do
    let (n, rest) ← numberOf? 6 rest
    if n = 0 || 9999 < n then none else some (-(n : Int), rest)
  | '+' :: rest => do
    let (n, rest) ← numberOf? 6 rest
    if 9999 < n then none else some ((n : Int), rest)
  | cs => (numberOf? 4 cs).map fun (n, rest) => ((n : Int), rest)

/-- a date, with hyphens or without -/
def fullDate? (cs : List Char) : Option (Date × List Char) := do
  let (year, cs) ← fullYear? cs
  match cs with
  | '-' :: cs =>
    let (month, cs) ← numberOf? 2 cs
    let cs ← char? '-' cs
    let (day, cs) ← numberOf? 2 cs
    some (⟨year, month, day⟩, cs)
  | cs =>
    let (month, cs) ← numberOf? 2 cs
    let (day, cs) ← numberOf? 2 cs
    some (⟨year, month, day⟩, cs)

/-- a fraction of one to nine digits after a point or a comma, or nothing -/
def fullFraction? (cs : List Char) : Option (Nat × List Char) :=
  match cs with
  | c :: rest =>
    if c = '.' || c = ',' then
      match digitsUpTo rest.length rest with
      | ([], _) => none
      | (ds, rest) => if ds.length ≤ 9 then some (nanosOf ds, rest) else none
    else some (0, c :: rest)
  | [] => some (0, [])

/-- hours, then minutes and seconds as far as they are given, with colons or without -/
def fullTime? (cs : List Char) : Option (Nat × Nat × Nat × Nat × List Char) := do
  let (hour, cs) ← numberOf? 2 cs
  match cs with
  | ':' :: cs =>
    let (minute, cs) ← numberOf? 2 cs
    match cs with
    | ':' :: cs =>
      let (second, cs) ← numberOf? 2 cs
      let (nanos, cs) ← fullFraction? cs
      some (hour, minute, second, nanos, cs)
    | cs => some (hour, minute, 0, 0, cs)
  | cs =>
    match numberOf? 2 cs with
    | none => some (hour, 0, 0, 0, cs)
    | some (minute, cs) =>
      match numberOf? 2 cs with
      | none => some (hour, minute, 0, 0, cs)
      | some (second, cs) =>
        let (nanos, cs) ← fullFraction? cs
        some (hour, minute, second, nanos, cs)

/-- an offset: `Z`, or a sign and a time without fraction -/
def fullOffset? (cs : List Char) : Option (Int × List Char) :=
  match cs with
  | 'Z' :: rest | 'z' :: rest => some (0, rest)
  | c :: rest => do
    let sign : Int ← if c = '+' then some 1 else if c = '-' then some (-1) else none
    let (hours, minutes, seconds, nanos, rest) ← fullTime? rest
    if hours ≤ 25 && minutes < 60 && seconds < 60 && nanos = 0 then
      some (sign * (hours * 3600 + minutes * 60 + seconds), rest)
    else none
  | [] => none

/-- the first and the last second that a time of metadata can be -/
def firstSecond : Int := -377705023201
def lastSecond : Int := 253402207200

/-- the instant that a time of object metadata stands for; a second 60 is read as 59 -/
def ofMetadata? (s : String) : Option Instant := do
  let (date, cs) ← fullDate? s.toList
  let cs ← match cs with
    | c :: cs => if c = 't' || c = 'T' || c = ' ' then some cs else none
    | [] => none
  let (hour, minute, second, nanos, cs) ← fullTime? cs
  let (offset, cs) ← fullOffset? cs
  if cs.isEmpty && Calendar.isDate date && hour < 24 && minute < 60 && second ≤ 60 then
    let t := ofLocal ⟨date, hour, minute, min second 59, nanos, offset⟩
    if firstSecond ≤ t.seconds && t.seconds ≤ lastSecond then some t else none
  else none

end ReleaseUpgrade.Instant
