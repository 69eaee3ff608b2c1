import ReleaseUpgrade.Json.Basic

/-!
# Schemas of resources

The parts of which the schema of a resource is built.  Each is a document; keys that are added to
one take their place in the order when the whole definition is put in order.
-/

namespace ReleaseUpgrade.Schema

/-- a schema with more keys -/
def withKeys (keys : List (String × Json)) : Json → Json
  | .obj fields => .obj (keys ++ fields)
  | j => j

def ofType (type : String) : Json := .obj [("type", .str type)]

def text : Json := ofType "string"

def boolean : Json := ofType "boolean"

/-- an integer of 64 bits -/
def integer : Json := withKeys [("format", .str "int64")] (ofType "integer")

/-- a point in time -/
def time : Json := withKeys [("format", .str "date-time")] text

/-- one of some texts -/
def choice (texts : List String) : Json := withKeys [("enum", .ofStrings texts)] text

def list (items : Json) : Json := withKeys [("items", items)] (ofType "array")

/-- an object with these properties, some of which must be there -/
def record (required : List String) (properties : List (String × Json)) : Json :=
  withKeys
    (("properties", .obj properties) ::
      if required.isEmpty then [] else [("required", .ofStrings required)])
    (ofType "object")

/-- an object of any form -/
def anyObject : Json :=
  withKeys [("x-kubernetes-preserve-unknown-fields", .bool true)] (ofType "object")

def described (description : String) : Json → Json := withKeys [("description", .str description)]

/-- the value may be null -/
def nullable : Json → Json := withKeys [("nullable", .bool true)]

/-- the value for when the property is missing -/
def defaulting (value : Json) : Json → Json := withKeys [("default", value)]

end ReleaseUpgrade.Schema
