import ReleaseUpgrade.Decimal.Shortest

/-!
# Decimals from words of 64 bits

`Binary.scaled` finds few digits for a double with words of 64 bits only.

The double and the midpoints to its neighbours are multiplied by a power of ten, so that they become
numbers of a moderate size; products are rounded to 64 bits.  The digits of the upper midpoint are
taken from the left until what is left of it is less than the width of the interval.  As long as at
most eight digits stand behind the point, the last digit then moves down towards the double.  The
result reads back as the double and is nearly always the shortest that does, but not always the
nearest.
-/

namespace ReleaseUpgrade

/-- a number scaled to whole units, with the units that lie between it and the upper end of the
interval, and the width of the interval -/
structure Scaled where
  top : Nat
  gap : Nat
  width : Nat
  /-- there are `2 ^ point` units in a one -/
  point : Nat
  /-- the number is to be multiplied by this power of ten -/
  exponent : Int

namespace Scaled

/-- the leading 64 bits of `10 ^ k`, rounded, and the power of two that goes with them -/
def power (k : Int) : Nat × Int :=
  let e : Int := k * 108853 / 32768 - 63
  let above := Nat.pow 10 k.toNat * Nat.pow 2 (-e).toNat
  let below := Nat.pow 10 (-k).toNat * Nat.pow 2 e.toNat
  ((2 * above + below) / (2 * below), e)

/-- the product of two words, without its lower 64 bits, which are rounded -/
def product (a b : Nat) : Nat := (a * b + Nat.pow 2 63) / Nat.pow 2 64

/-- the exponent of a power of ten, one of every eight, that brings a word which counts `2 ^ e` to a
moderate size -/
def exponentFor (e : Int) : Int :=
  let k := -((61 + e) * 30102999566398114 / Nat.pow 10 17) + 347
  (k / 8 + 1) * 8 - 348

/-- the double and its interval, scaled -/
def ofBinary (b : Binary) : Scaled :=
  let shift := 63 - b.m.log2
  let e : Int := b.q - shift
  let k := exponentFor e
  let (c, ce) := power k
  let word := b.m * Nat.pow 2 shift
  let half := Nat.pow 2 (shift - 1)
  let top := product (word + half) c - 1
  let bottom := product (word - if b.edge then half / 2 else half) c + 1
  { top, gap := top - product word c, width := top - bottom, point := (-(e + ce + 64)).toNat
    exponent := -k }

/-- the digits moved down towards the double, at most `steps` times, while the `rest` that is left
of the upper end stays within the interval; a step is worth `unit` -/
def settle (width gap unit : Nat) : Nat → Nat → Nat → Nat
  | 0, _, digits => digits
  | steps + 1, rest, digits =>
    if rest < gap && unit ≤ width - rest &&
        (rest + unit < gap || rest + unit - gap < gap - rest) then
      settle width gap unit steps (rest + unit) (digits - 1)
    else digits

/-- digits behind the point, of which `behind` have been taken -/
def fraction (s : Scaled) : Nat → Nat → Nat → Nat → Nat → Decimal
  | 0, behind, digits, _, _ => ⟨digits, s.exponent - behind⟩
  | fuel + 1, behind, digits, rest, width =>
    let digits := digits * 10 + rest * 10 / Nat.pow 2 s.point
    let rest := rest * 10 % Nat.pow 2 s.point
    let width := width * 10
    let behind := behind + 1
    if rest < width then
      let gap := if behind < 9 then s.gap * Nat.pow 10 behind else 0
      ⟨settle width gap (Nat.pow 2 s.point) 9 rest digits, s.exponent - behind⟩
    else fraction s fuel behind digits rest width

/-- digits before the point, of which `before` are still to come -/
def whole (s : Scaled) : Nat → Decimal
  | 0 => fraction s 20 0 (s.top / Nat.pow 2 s.point) (s.top % Nat.pow 2 s.point) s.width
  | before + 1 =>
    let unit := Nat.pow 10 before * Nat.pow 2 s.point
    if s.top % unit ≤ s.width then
      ⟨settle s.width s.gap unit 9 (s.top % unit) (s.top / unit), s.exponent + before⟩
    else whole s before

/-- few digits that read back -/
def decimal (s : Scaled) : Decimal := s.whole (toString (s.top / Nat.pow 2 s.point)).length

end Scaled

/-- few digits that read back as the double -/
def Binary.scaled (b : Binary) : Decimal := (Scaled.ofBinary b).decimal

end ReleaseUpgrade
