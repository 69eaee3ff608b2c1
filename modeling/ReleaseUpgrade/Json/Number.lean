import ReleaseUpgrade.Json.Basic

/-!
# Numbers in JSON text

A number is `-`, digits, then perhaps a fraction and an exponent.  Without fraction and exponent it
is an integer if it fits 64 bits, unsigned if positive and signed if negative; minus zero and larger
integers are doubles.

A double is read from the digits as long as they fit 64 bits: further digits of the integer part
only scale it, further digits of the fraction are dropped.  It is then scaled by one product or one
quotient with a power of ten.
-/

namespace ReleaseUpgrade

/-- the decimal parts of a number as they are read -/
structure NumberText where
  negative : Bool
  /-- digits before the point -/
  whole : List Nat
  /-- digits after the point, if there is a point -/
  fraction : Option (List Nat)
  /-- the exponent, if there is one -/
  exponent : Option Int

namespace NumberText

/-- one more than the largest number of 64 bits -/
def limit : Nat := Nat.pow 2 64

/-- the leading digits that keep `n` below 64 bits, and how many digits follow -/
def accumulate : Nat → List Nat → Nat × Nat
  | n, [] => (n, 0)
  | n, d :: ds => if n * 10 + d < limit then accumulate (n * 10 + d) ds else (n, ds.length + 1)

/-- a double as a whole number of at most 64 bits and a power of ten -/
def parts (t : NumberText) : Nat × Int :=
  let (n, scaled) := accumulate 0 t.whole
  let fraction := t.fraction.getD []
  let (m, dropped) := accumulate n fraction
  (m, (scaled : Int) - ((fraction.length - dropped : Nat) : Int) + t.exponent.getD 0)

/-- the power of ten as a double -/
def power (e : Nat) : Float := Float.ofScientific 1 false e

/-- `n * 10 ^ e` by at most three roundings, `none` if it is beyond the doubles -/
def scaled? (n : Nat) (e : Int) : Option Float :=
  let x := n.toUInt64.toFloat
  if n = 0 then some x
  else if e < -1000 then some 0
  else if 308 < e then none
  else if 0 ≤ e then
    let y := x * power e.toNat
    if y.isInf then none else some y
  else if -308 ≤ e then some (x / power (-e).toNat)
  else
    let y := x / power 308
    if -616 ≤ e then some (y / power (-e - 308).toNat)
    else some (y / power 308 / power (min 308 (-e - 616).toNat))

/-- the number that was written, `none` if it is beyond the doubles -/
def value? (t : NumberText) : Option Number :=
  match t.fraction, t.exponent with
  | none, none =>
    let n := t.whole.foldl (fun n d => n * 10 + d) 0
    if !t.negative && n < limit then some (.int n)
    else if t.negative && 0 < n && n ≤ limit / 2 then some (.int (-n))
    else double?
  | _, _ => double?
where
  double? : Option Number :=
    let (n, e) := t.parts
    (scaled? n e).map fun x => .float (if t.negative then -x else x)

end NumberText

end ReleaseUpgrade
