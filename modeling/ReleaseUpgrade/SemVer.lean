import ReleaseUpgrade.Text.Substring

/-!
# Semantic versions

`SemVer` is a version with three numbers of at most 64 bits, the identifiers of a prerelease and
those of a build.

* `SemVer.ofText?`   reading: no leading zeros in numbers, except in a build;
* `SemVer.order`     a total order: a prerelease comes before its release, and versions that are
                     alike up to the build are told apart by the build, none coming first.
-/

namespace ReleaseUpgrade

/-- a version `major.minor.patch-pre+build`; the last two may be empty -/
structure SemVer where
  major : Nat
  minor : Nat
  patch : Nat
  pre : List String := []
  build : List String := []
  deriving DecidableEq, Repr

namespace SemVer

def isNumeric (cs : List Char) : Bool := cs.all Char.isDigit

/-- the number that decimal digits stand for -/
def numberOf (cs : List Char) : Nat := Nat.ofDigitChars 10 cs 0

/-- digits without a leading zero -/
def isPlainNumber (cs : List Char) : Bool :=
  isNumeric cs && !cs.isEmpty && (cs.length = 1 || cs.head? != some '0')

/-- a number of a version: at most 64 bits -/
def number? (cs : List Char) : Option Nat :=
  if isPlainNumber cs && numberOf cs < Nat.pow 2 64 then some (numberOf cs) else none

/-- letters, digits and hyphens, at least one -/
def isIdentifier (cs : List Char) : Bool :=
  !cs.isEmpty && cs.all fun c => c.isAlphanum || c = '-'

/-- identifiers of a prerelease: a numeric one has no leading zero -/
def preIdentifiers? (cs : List Char) : Option (List String) :=
  (Text.splitChars '.' cs).mapM fun part =>
    if isIdentifier part && (!isNumeric part || isPlainNumber part) then some (String.ofList part)
    else none

/-- identifiers of a build -/
def buildIdentifiers? (cs : List Char) : Option (List String) :=
  (Text.splitChars '.' cs).mapM fun part =>
    if isIdentifier part then some (String.ofList part) else none

/-- reads a part that may be missing -/
def part? (read : List Char → Option (List String)) : Option (List Char) → Option (List String)
  | none => some []
  | some cs => read cs

/-- the version that the characters are the text of -/
def ofChars? (cs : List Char) : Option SemVer := do
  let (front, build) := Text.cutChars '+' cs
  let (numbers, pre) := Text.cutChars '-' front
  match Text.splitChars '.' numbers with
  | [major, minor, patch] =>
    let major ← number? major
    let minor ← number? minor
    let patch ← number? patch
    let pre ← part? preIdentifiers? pre
    let build ← part? buildIdentifiers? build
    some ⟨major, minor, patch, pre, build⟩
  | _ => none

/-- the version that a text is the text of -/
def ofText? (s : String) : Option SemVer := ofChars? s.toList

/-- numeric identifiers by value and then by length, before all others, which go by their text -/
def identifierOrder (a b : String) : Ordering :=
  match isNumeric a.toList, isNumeric b.toList with
  | true, true =>
    (compare (numberOf a.toList) (numberOf b.toList)).then (compare a.length b.length)
  | true, false => .lt
  | false, true => .gt
  | false, false => compare a b

/-- identifiers one by one; where one list ends first it comes first -/
def identifiersOrder : List String → List String → Ordering
  | [], [] => .eq
  | [], _ :: _ => .lt
  | _ :: _, [] => .gt
  | a :: as, b :: bs => (identifierOrder a b).then (identifiersOrder as bs)

/-- prereleases come before the release, which has no identifiers -/
def preOrder : List String → List String → Ordering
  | [], [] => .eq
  | [], _ :: _ => .gt
  | _ :: _, [] => .lt
  | as, bs => identifiersOrder as bs

/-- the order of versions -/
def order (v w : SemVer) : Ordering :=
  (compare v.major w.major).then <| (compare v.minor w.minor).then <|
    (compare v.patch w.patch).then <| (preOrder v.pre w.pre).then <|
      identifiersOrder v.build w.build

instance : Ord SemVer := ⟨order⟩

end SemVer

end ReleaseUpgrade
