import ReleaseUpgrade.Json.Record
import ReleaseUpgrade.Time.Reader
import ReleaseUpgrade.Base64

/-!
# Shapes of cluster objects

The API of a cluster has many object types of which only a few fields matter here; the others must
pass through.  A `Shape` is what a field may hold, and `Shape.read` checks a document against it:
unknown fields go, missing and null fields take the empty value if they are always written and go
otherwise, times get their usual form.

* `Shape.read`          a document in its usual form;
* `Shape.open?`         the fields of an object, the last of equal keys counting, none of them null;
* `Shape.readMembers`   the members of a shape among given fields.
-/

namespace ReleaseUpgrade

/-- what a field may hold -/
inductive Shape where
  | text
  | bool
  | int32
  | int64
  /-- a point in time, written to the second -/
  | time
  /-- a point in time, written to the microsecond -/
  | microTime
  /-- bytes in base64 -/
  | bytes
  /-- a number of 32 bits or a text -/
  | intOrText
  /-- any document -/
  | any
  | list (item : Shape)
  | dict (value : Shape)
  /-- an object; a member that is always written has the flag set -/
  | object (members : List (String × Bool × Shape))

namespace Shape

/-- the text of an instant to the microsecond -/
def microText (t : Instant) : String :=
  t.upToSecond (t.seconds % 60).toNat ++ "." ++ Instant.padded 6 (t.nanos / 1000) ++ "Z"

/-- the fields of an object that are not null; of equal keys the last counts -/
def open? : Json → Option (Dict Json)
  | .obj fields => some ((Dict.ofList fields).filter fun f => !f.2.isNull)
  | _ => none

/-- bytes in base64; null is no bytes -/
def bytes? (j : Json) : Option (List UInt8) :=
  if j.isNull then some [] else j.str?.bind Base64.decodeText?

mutual

/-- the value of a member that is missing but always written -/
def blank : Shape → Json
  | .text => .str ""
  | .bool => .bool false
  | .int32 => .int 0
  | .int64 => .int 0
  | .list _ => .arr []
  | .dict _ => .obj []
  | .object members => .obj (blankMembers members)
  | .time => .str "1970-01-01T00:00:00Z"
  | .microTime => .str "1970-01-01T00:00:00.000000Z"
  | .bytes => .str ""
  | .intOrText => .int 0
  | .any => .null

def blankMembers : List (String × Bool × Shape) → List (String × Json)
  | [] => []
  | (k, always, s) :: rest =>
    if always then (k, blank s) :: blankMembers rest else blankMembers rest

end

mutual

/-- the document in its usual form, `none` if it has not this shape -/
def read : Shape → Json → Option Json
  | .text, j => j.str?.map .str
  | .bool, j => j.bool?.map .bool
  | .int32, j => j.int32?.map .int
  | .int64, j => j.int64?.map .int
  | .time, j => (j.str?.bind Instant.ofMetadata?).map fun t => .str t.textToSecond
  | .microTime, j => (j.str?.bind Instant.ofMetadata?).map fun t => .str (microText t)
  | .bytes, j => (bytes? j).map fun bs => .str (Base64.encode bs)
  | .intOrText, j =>
    match j with
    | .str s => some (.str s)
    | j => j.int32?.map .int
  | .any, j => j.value?
  | .list s, j => (j.items?.bind fun items => items.mapM (read s)).map .arr
  | .dict s, j => (j.dict? (read s)).map .obj
  | .object members, j => do some (.obj (← readMembers members (← open? j)))

/-- the members that are given or always written, in their order -/
def readMembers : List (String × Bool × Shape) → Dict Json → Option (List (String × Json))
  | [], _ => some []
  | (k, always, s) :: rest, fields => do
    let others ← readMembers rest fields
    match Dict.get? k fields with
    | some j => some ((k, ← read s j) :: others)
    | none => some (if always then (k, blank s) :: others else others)

end

/-- a member that is left out when it is missing -/
def opt (name : String) (s : Shape) : String × Bool × Shape := (name, false, s)

/-- a member that is always written -/
def req (name : String) (s : Shape) : String × Bool × Shape := (name, true, s)

/-- text members that are left out when they are missing -/
def texts (names : List String) : List (String × Bool × Shape) := names.map fun n => opt n .text

variable {α : Type}

/-- a typed member among the given fields -/
def member? (fields : Dict Json) (name : String) (read : Json → Option α) : Option (Option α) :=
  match Dict.get? name fields with
  | some j => (read j).map some
  | none => some none

/-- a typed member that has a value for when it is missing -/
def memberOr (fields : Dict Json) (name : String) (default : α) (read : Json → Option α) :
    Option α :=
  match Dict.get? name fields with
  | some j => read j
  | none => some default

end Shape

end ReleaseUpgrade
