/-!
# Shortest decimals

The shortest decimal that reads back as a given double, and of the shortest ones the nearest.

A finite double is `m * 2 ^ q`.  Everything between the two midpoints to its neighbours reads back
as it, the midpoints included if `m` is even.  `Decimal.shortest` walks the grids `10 ^ k` from
coarse to fine and takes the first one with a point in that interval; a grid has one in it only if
one of the two grid points around the double is in it.  All arithmetic is exact.
-/

namespace ReleaseUpgrade

/-- the number `digits * 10 ^ exponent` -/
structure Decimal where
  digits : Nat
  exponent : Int

/-- the positive double `m * 2 ^ q`; `edge` if the neighbour below is only half as far -/
structure Binary where
  m : Nat
  q : Int
  edge : Bool

namespace Binary

/-- quarters of the last place: the double is `4 * m` of them, and `scale` carries them and the
points of the grid `10 ^ k` to whole numbers: the grid's step first, the quarter second -/
def scale (b : Binary) (k : Int) : Nat × Nat :=
  let e := b.q - 2
  (Nat.pow 10 k.toNat * Nat.pow 2 (-e).toNat, Nat.pow 2 e.toNat * Nat.pow 10 (-k).toNat)

/-- the point `c * 10 ^ k` reads back as the double -/
def covers (b : Binary) (k : Int) (c : Nat) : Bool :=
  let (step, quarter) := b.scale k
  let low := (4 * b.m - if b.edge then 1 else 2) * quarter
  let high := (4 * b.m + 2) * quarter
  if b.m % 2 = 0 then low ≤ c * step && c * step ≤ high
  else low < c * step && c * step < high

/-- the point of the grid `10 ^ k` that reads back as the double, the nearer one of two -/
def point? (b : Binary) (k : Int) : Option Nat :=
  let (step, quarter) := b.scale k
  let c := 4 * b.m * quarter / step
  let rest := 4 * b.m * quarter % step
  match b.covers k c, b.covers k (c + 1) with
  | true, true =>
    if 2 * rest < step then some c
    else if 2 * rest > step then some (c + 1)
    else some (if c % 2 = 0 then c else c + 1)
  | true, false => some c
  | false, true => some (c + 1)
  | false, false => none

/-- a power of ten not below the double -/
def topExponent (b : Binary) : Int :=
  (b.q + (b.m.log2 : Int) + 1) * 30103 / 100000 + 1

/-- the first of `n` grids, from `10 ^ k` down, with a point that reads back -/
def search (b : Binary) : Nat → Int → Decimal
  | 0, k => ⟨4 * b.m * (b.scale k).2 / (b.scale k).1, k⟩
  | n + 1, k =>
    match b.point? k with
    | some c => ⟨c, k⟩
    | none => search b n (k - 1)

/-- the shortest decimal that reads back; no double needs more than 17 digits -/
def shortest (b : Binary) : Decimal := b.search 20 b.topExponent

/-- the parts of a finite double without its sign, `none` for zero -/
def ofFloat (x : Float) : Option Binary :=
  let bits : Nat := x.toBits.toNat
  let fraction : Nat := bits % Nat.pow 2 52
  let field : Nat := bits / Nat.pow 2 52 % Nat.pow 2 11
  if field = 0 then
    if fraction = 0 then none else some ⟨fraction, -1074, false⟩
  else some ⟨Nat.pow 2 52 + fraction, (field : Int) - 1075, fraction = 0 && field != 1⟩

end Binary

end ReleaseUpgrade
