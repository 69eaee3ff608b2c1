import ReleaseUpgrade.Error
import ReleaseUpgrade.Json.Writer
import ReleaseUpgrade.Text.Blank
import ReleaseUpgrade.Yaml.Document
import ReleaseUpgrade.Yaml.Writer

/-!
# Values of charts

The values of a chart come in three layers: what is installed, what the release sets, what the user
sets.  Later layers win, object by object.

* `Values.merge`    one layer over another;
* `Values.layered`  the YAML text of all three layers, empty if there are no values.
-/

namespace ReleaseUpgrade

/-- the values that a chart has already -/
inductive BaseValues where
  | yaml (text : String)
  | config (values : Dict Json)

namespace Values

mutual

/-- a value with another one over it: two objects are merged, anything else is replaced -/
def overlay : Option Json → Json → Json
  | some (.obj base), .obj fields => .obj (mergeFields base fields)
  | _, j => j

/-- the fields of an object with others over them -/
def mergeFields (base : Dict Json) : List (String × Json) → Dict Json
  | [] => base
  | (k, j) :: rest => mergeFields (Dict.insert k (overlay (Dict.get? k base) j) base) rest

end

/-- one layer over another -/
def merge (base top : Dict Json) : Dict Json := mergeFields base top

/-- the values of a layer, which must be an object or absent -/
def layer (name : String) : Option Json → Except UpgradeError (Dict Json)
  | none | some .null => .ok []
  | some (.obj fields) => .ok fields
  | some j => .error (.chartValues (name ++ " values must be an object, got " ++ j.render))

/-- the values that a chart has already -/
def installed : BaseValues → Except UpgradeError (Dict Json)
  | .config values => .ok values
  | .yaml text =>
    if Text.isAllBlank text then .ok []
    else
      match Yaml.ofText? text with
      | none => .error .yaml
      | some j => layer "installed" (some j)

/-- the YAML text of all layers -/
def layered (base : BaseValues) (release user : Option Json) : Except UpgradeError String := do
  let values ← installed base
  let release ← layer "release" release
  let user ← layer "user" user
  let values := merge (merge values release) user
  if values.isEmpty then .ok "" else .ok (Yaml.render (.obj values))

end Values

end ReleaseUpgrade
