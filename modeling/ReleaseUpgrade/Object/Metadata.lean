import ReleaseUpgrade.Object.Shape

/-!
# Object metadata

`Metadata` is what every object of a cluster carries: its name, its labels, its finalizers.

* `Metadata.nameAny`      the name, or the name that a generated one starts with, or nothing;
* `Metadata.isTerminating`  deletion has been requested;
* `Object.open?`          the fields of an object of a given kind.
-/

namespace ReleaseUpgrade
open Shape (opt req texts)

/-- the metadata of an object -/
structure Metadata where
  name : Option String := none
  generateName : Option String := none
  /-- the namespace -/
  ns : Option String := none
  resourceVersion : Option String := none
  uid : Option String := none
  generation : Option Int := none
  labels : Option (Dict String) := none
  annotations : Option (Dict String) := none
  finalizers : Option (List String) := none
  deletionTimestamp : Option String := none
  /-- the other members, which only pass through -/
  rest : List (String × Json) := []

namespace Metadata

/-- the members that only pass through -/
def passed : List (String × Bool × Shape) :=
  [opt "creationTimestamp" .time,
   opt "deletionGracePeriodSeconds" .int64,
   opt "managedFields" (.list (.object
     (texts ["apiVersion", "fieldsType", "manager", "operation", "subresource"] ++
       [opt "fieldsV1" .any, opt "time" .time]))),
   opt "ownerReferences" (.list (.object
     [req "apiVersion" .text, opt "blockOwnerDeletion" .bool, opt "controller" .bool,
      req "kind" .text, req "name" .text, req "uid" .text])),
   opt "selfLink" .text]

/-- the metadata that a document holds -/
def ofJson? (j : Json) : Option Metadata := do
  let fs ← Shape.open? j
  let text (name : String) := Shape.member? fs name Json.str?
  some {
    name := ← text "name"
    generateName := ← text "generateName"
    ns := ← text "namespace"
    resourceVersion := ← text "resourceVersion"
    uid := ← text "uid"
    generation := ← Shape.member? fs "generation" Json.int64?
    labels := ← Shape.member? fs "labels" (Json.dict? Json.str?)
    annotations := ← Shape.member? fs "annotations" (Json.dict? Json.str?)
    finalizers := ← Shape.member? fs "finalizers" (Json.list? Json.str?)
    deletionTimestamp := ← Shape.member? fs "deletionTimestamp" fun j =>
      (Shape.read .time j).bind Json.str?
    rest := ← Shape.readMembers passed fs }

/-- the document of metadata -/
def toJson (m : Metadata) : Json :=
  .obj <| (([
    ("name", m.name.map Json.str),
    ("generateName", m.generateName.map Json.str),
    ("namespace", m.ns.map Json.str),
    ("resourceVersion", m.resourceVersion.map Json.str),
    ("uid", m.uid.map Json.str),
    ("generation", m.generation.map Json.int),
    ("labels", m.labels.map Json.ofStringDict),
    ("annotations", m.annotations.map Json.ofStringDict),
    ("finalizers", m.finalizers.map Json.ofStrings),
    ("deletionTimestamp", m.deletionTimestamp.map Json.str)] : List (String × Option Json)).filterMap
      fun f => f.2.map (f.1, ·)) ++ m.rest

/-- the name of the object, or what its generated name starts with, or nothing -/
def nameAny (m : Metadata) : String := m.name.getD (m.generateName.getD "")

/-- the namespace, or nothing -/
def nsOr (m : Metadata) : String := m.ns.getD ""

/-- deletion has been requested -/
def isTerminating (m : Metadata) : Bool := m.deletionTimestamp.isSome

/-- the value of a label -/
def label? (m : Metadata) (key : String) : Option String := Dict.get? key (m.labels.getD [])

/-- the value that is attached to a key -/
def noted? (m : Metadata) (key : String) : Option String := Dict.get? key (m.annotations.getD [])

end Metadata

namespace Object

/-- the fields of an object of one kind; version and kind may be missing but not differ -/
def open? (apiVersion kind : String) (j : Json) : Option (Dict Json) := do
  match j with
  | .obj fields =>
    if fields.all fun f =>
      match f.1, f.2 with
      | "apiVersion", .str s => s = apiVersion
      | "apiVersion", _ => false
      | "kind", .str s => s = kind
      | "kind", _ => false
      | _, _ => true
    then Shape.open? j else none
  | _ => none

/-- the metadata among the fields, empty if missing -/
def metadata? (fields : Dict Json) : Option Metadata :=
  Shape.memberOr fields "metadata" {} Metadata.ofJson?

/-- the document of an object -/
def toJson (apiVersion kind : String) (metadata : Metadata) (fields : List (String × Option Json)) :
    Json :=
  .obj <| [("apiVersion", .str apiVersion), ("kind", .str kind), ("metadata", metadata.toJson)] ++
    fields.filterMap fun f => f.2.map (f.1, ·)

end Object

end ReleaseUpgrade
