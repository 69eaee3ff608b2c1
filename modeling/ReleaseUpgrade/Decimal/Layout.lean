import ReleaseUpgrade.Decimal.Scaled

/-!
# The text of a double

`Layout` says how the digits of a double are found and where a decimal changes from positional to
exponent notation; `Layout.render` writes a double.  Positional text always has a point (`1.0`), an
exponent has no plus sign and no leading zeros (`1e16`, `2.5e-7`).
-/

namespace ReleaseUpgrade

/-- which decimal is written for a double, and whether without an exponent: if its point stands
after the place `lowest` and not after the place `highest`, counted from the first digit -/
structure Layout where
  lowest : Int
  highest : Int
  digitsOf : Binary → Decimal

namespace Layout

/-- doubles in JSON and YAML text -/
def document : Layout := ⟨-5, 16, Binary.shortest⟩

/-- doubles in metric samples -/
def sample : Layout := ⟨-6, 21, Binary.scaled⟩

/-- the text of a positive decimal -/
def decimal (l : Layout) (d : Decimal) : String :=
  let digits := toString d.digits
  let point : Int := digits.length + d.exponent
  if 0 ≤ d.exponent && point ≤ l.highest then
    digits ++ "".pushn '0' d.exponent.toNat ++ ".0"
  else if 0 < point && point ≤ l.highest then
    String.ofList (digits.toList.take point.toNat) ++ "." ++
      String.ofList (digits.toList.drop point.toNat)
  else if l.lowest < point && point ≤ 0 then
    "0." ++ "".pushn '0' (-point).toNat ++ digits
  else
    let fraction := digits.toList.drop 1
    String.ofList (digits.toList.take 1) ++
      (if fraction.isEmpty then "" else "." ++ String.ofList fraction) ++
      "e" ++ toString (point - 1)

/-- the text of a double that is a number and finite -/
def render (l : Layout) (x : Float) : String :=
  let sign := if x.toBits.toNat / Nat.pow 2 63 = 1 then "-" else ""
  match Binary.ofFloat x with
  | none => sign ++ "0.0"
  | some b => sign ++ l.decimal (l.digitsOf b)

end Layout

end ReleaseUpgrade
