import ReleaseUpgrade.Json.Basic
import ReleaseUpgrade.Text.Digits
import ReleaseUpgrade.Text.Substring

/-!
# What plain scalars stand for

A plain scalar is null, a truth value, an integer, a double or else a text.  A number whose first
digit is a needless zero is a text, and so is a double that would not be finite.

* `Core.ofPlain`       what a plain scalar stands for;
* `Core.isPlainText`   a text that, written as a plain scalar, stands for itself.
-/

namespace ReleaseUpgrade.Yaml.Core

/-- what a plain scalar stands for -/
inductive Meaning where
  | null
  | bool (value : Bool)
  /-- an integer of at most 128 bits -/
  | int (value : Int)
  | float (value : Float)
  | text

def isNullWord (s : String) : Bool := s = "null" || s = "Null" || s = "NULL" || s = "~"

def bool? (s : String) : Option Bool :=
  match s with
  | "true" | "True" | "TRUE" => some true
  | "false" | "False" | "FALSE" => some false
  | _ => none

/-- the base that a prefix states, and the characters after it -/
def stated? : List Char → Option (Nat × List Char)
  | '0' :: 'x' :: cs => some (16, cs)
  | '0' :: 'o' :: cs => some (8, cs)
  | '0' :: 'b' :: cs => some (2, cs)
  | _ => none

/-- a number without its sign -/
def unsigned (cs : List Char) : List Char :=
  match cs with
  | '+' :: rest | '-' :: rest => rest
  | cs => cs

/-- more than one digit, of which the first is zero -/
def hasLeadingZero (cs : List Char) : Bool :=
  match unsigned cs with
  | '0' :: c :: rest => (c :: rest).all Char.isDigit
  | _ => false

/-- a number after its sign -/
def magnitude? (cs : List Char) : Option Nat :=
  match stated? cs with
  | some (base, ds) => Text.number? base ds
  | none => if hasLeadingZero cs then none else Text.number? 10 cs

/-- an integer of at most 128 bits: unsigned ones if it is not negative, signed ones otherwise -/
def int? (s : String) : Option Int :=
  match s.toList with
  | '-' :: cs =>
    (magnitude? cs).bind fun n => if n ≤ Nat.pow 2 127 then some (-(n : Int)) else none
  | '+' :: cs => (magnitude? cs).bind fun n => if n < Nat.pow 2 128 then some (n : Int) else none
  | cs => (magnitude? cs).bind fun n => if n < Nat.pow 2 128 then some (n : Int) else none

/-! ## doubles -/

/-- the double `n * 10 ^ e`, rounded once; the bounds on `e` keep the computation small -/
def scaled (n : Nat) (e : Int) : Float :=
  let size : Int := (toString n).length
  if n = 0 then 0
  else if 400 < size + e then Float.ofScientific 1 false 400
  else if size + e < -400 then 0
  else if 0 ≤ e then Float.ofScientific n false e.toNat
  else Float.ofScientific n true (-e).toNat

/-- the exponent of a double, if there is one; nothing may follow it -/
def exponent? : List Char → Option Int
  | [] => some 0
  | e :: cs =>
    if e = 'e' || e = 'E' then
      match cs with
      | '-' :: cs => (Text.number? 10 cs).map fun n => -(n : Int)
      | '+' :: cs => (Text.number? 10 cs).map fun n => (n : Int)
      | cs => (Text.number? 10 cs).map fun n => (n : Int)
    else none

/-- a positive decimal number -/
def decimal? (cs : List Char) : Option Float :=
  let whole := cs.takeWhile Char.isDigit
  let rest := cs.dropWhile Char.isDigit
  let (fraction, rest) := match rest with
    | '.' :: rest => (rest.takeWhile Char.isDigit, rest.dropWhile Char.isDigit)
    | rest => ([], rest)
  match Text.number? 10 (whole ++ fraction), exponent? rest with
  | some n, some e => some (scaled n (e - fraction.length))
  | _, _ => none

/-- a finite double, or one of the words for infinity and for what is no number -/
def float? (s : String) : Option Float :=
  if [".inf", ".Inf", ".INF", "+.inf", "+.Inf", "+.INF"].contains s then some (1 / 0)
  else if ["-.inf", "-.Inf", "-.INF"].contains s then some (-1 / 0)
  else if [".nan", ".NaN", ".NAN"].contains s then some (0 / 0)
  else
    let x? := match s.toList with
      | '-' :: cs => (decimal? cs).map fun x => -x
      | '+' :: cs => decimal? cs
      | cs => decimal? cs
    x?.bind fun x => if x.isFinite then some x else none

/-- what a plain scalar stands for -/
def ofPlain (s : String) : Meaning :=
  if s = "" || isNullWord s then .null
  else
    match bool? s with
    | some b => .bool b
    | none =>
      match int? s with
      | some n => .int n
      | none =>
        if hasLeadingZero s.toList then .text
        else
          match float? s with
          | some x => .float x
          | none => .text

/-- written as a plain scalar, the text stands for itself and looks like no number -/
def isPlainText (s : String) : Bool :=
  match ofPlain s with
  | .text => !hasLeadingZero s.toList
  | _ => false

end ReleaseUpgrade.Yaml.Core
