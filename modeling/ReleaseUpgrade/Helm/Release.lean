import ReleaseUpgrade.Error
import ReleaseUpgrade.Gzip.Member
import ReleaseUpgrade.Json.Reader
import ReleaseUpgrade.Object.Secret
import ReleaseUpgrade.Text.Digits

/-!
# Installed releases

Every revision of a release is stored in a secret: JSON, perhaps compressed, as base64.

* `HelmRelease.ofSecret`   the revision that a secret holds;
* `HelmRelease.latest`     the revision of the secret with the highest number in its label.
-/

namespace ReleaseUpgrade

/-- a revision of an installed release -/
structure HelmRelease where
  name : String
  /-- the namespace it is installed in -/
  ns : String := ""
  revision : Int := 0
  chartVersion : String := ""
  /-- the values that the user set -/
  config : Dict Json := []

namespace HelmRelease

/-- the labels that select the stored revisions of a release -/
def storageSelector (release : String) : String := "owner=helm,name=" ++ release

/-- the version in the metadata of a stored chart -/
def storedMetadata? (j : Json) : Option String := do
  (← Record.open? ["version"] j).defaulted "version" "" Json.str?

/-- the version of a stored chart, if it has metadata -/
def storedChart? (j : Json) : Option (Option String) := do
  (← Record.open? ["metadata"] j).nullable "metadata" storedMetadata?

/-- the fields of an object, all of it readable -/
def storedConfig? (j : Json) : Option (Dict Json) :=
  match j.value? with
  | some (.obj fields) => some fields
  | _ => none

/-- the revision that a stored document describes -/
def ofJson? (j : Json) : Option HelmRelease := do
  let r ← Record.open? ["name", "namespace", "version", "chart", "config"] j
  let name ← r.required "name" Json.str?
  let ns ← r.defaulted "namespace" "" Json.str?
  let revision ← r.defaulted "version" 0 Json.int64?
  let chart ← r.nullable "chart" storedChart?
  let config ← r.optional "config" storedConfig?
  some { name, ns, revision, chartVersion := (chart.join).getD "", config := config.getD [] }

/-- white space of ASCII, the vertical tab apart -/
def isAsciiBlank (b : UInt8) : Bool := b = 32 || b = 9 || b = 10 || b = 12 || b = 13

/-- the bytes that base64 text in a secret stands for, decompressed -/
def payload (bytes : List UInt8) : Except StorageFault (List UInt8) :=
  match Base64.decode? (bytes.filter fun b => !isAsciiBlank b) with
  | none => .error (.base64 "invalid text")
  | some raw =>
    if Gzip.isMember raw then
      match Gzip.decompress? raw with
      | some content => .ok content
      | none => .error (.gzip "corrupt data")
    else .ok raw

/-- the revision that is stored as some bytes -/
def ofPayload (bytes : List UInt8) : Except StorageFault HelmRelease :=
  match (Json.ofBytes? bytes).bind ofJson? with
  | some release => .ok release
  | none => .error (.json "invalid document")

/-- the revision that a secret holds -/
def ofSecret (release : String) (s : Secret) : Except UpgradeError HelmRelease :=
  let stored : Except StorageFault HelmRelease := match Dict.get? "release" (s.data.getD []) with
    | none => .error .missing
    | some bytes => payload bytes >>= ofPayload
  match stored with
  | .ok r => .ok r
  | .error fault => .error (.helmRelease release fault)

/-- an integer of 64 bits, perhaps with a sign in front -/
def revisionOf? (s : String) : Option Int :=
  let signed (sign : Int) (cs : List Char) : Option Int :=
    ((Text.number? 10 cs).map fun n => sign * (n : Int)).filter fun n =>
      -(Nat.pow 2 63 : Int) ≤ n && n < (Nat.pow 2 63 : Int)
  match s.toList with
  | '+' :: cs => signed 1 cs
  | '-' :: cs => signed (-1) cs
  | cs => signed 1 cs

/-- the number of the revision in the labels of a secret, zero if there is none -/
def labelled (s : Secret) : Int := ((s.metadata.label? "version").bind revisionOf?).getD 0

/-- the last one of the secrets with the highest revision -/
def newest? : List Secret → Option Secret
  | [] => none
  | s :: rest =>
    match newest? rest with
    | none => some s
    | some t => some (if labelled t < labelled s then s else t)

/-- the latest revision of a release among its stored ones -/
def latest (release : String) (secrets : List Secret) : Except UpgradeError (Option HelmRelease) :=
  match newest? secrets with
  | none => .ok none
  | some s => (ofSecret release s).map some

end HelmRelease

end ReleaseUpgrade
