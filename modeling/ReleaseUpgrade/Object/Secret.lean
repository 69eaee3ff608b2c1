import ReleaseUpgrade.Object.Metadata

/-!
# Secrets

`Secret` holds named values, as bytes or, when it is written, as text.
-/

namespace ReleaseUpgrade

/-- named values that are kept apart from other objects -/
structure Secret where
  metadata : Metadata := {}
  type : Option String := none
  data : Option (Dict (List UInt8)) := none
  stringData : Option (Dict String) := none
  immutable : Option Bool := none

namespace Secret

def ofJson? (j : Json) : Option Secret := do
  let fs ← Object.open? "v1" "Secret" j
  some {
    metadata := ← Object.metadata? fs
    type := ← Shape.member? fs "type" Json.str?
    data := ← Shape.member? fs "data" (Json.dict? Shape.bytes?)
    stringData := ← Shape.member? fs "stringData" (Json.dict? Json.str?)
    immutable := ← Shape.member? fs "immutable" Json.bool? }

def toJson (s : Secret) : Json :=
  Object.toJson "v1" "Secret" s.metadata
    [("type", s.type.map Json.str),
     ("data", s.data.map fun d => .obj (Dict.mapValues (fun bs => .str (Base64.encode bs)) d)),
     ("stringData", s.stringData.map Json.ofStringDict),
     ("immutable", s.immutable.map Json.bool)]

end Secret

end ReleaseUpgrade
