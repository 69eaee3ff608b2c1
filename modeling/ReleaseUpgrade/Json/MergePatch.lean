import ReleaseUpgrade.Json.Basic

/-!
# Merge patches

`Json.mergePatch` changes a document as a patch says.  A patch that is an object changes the fields
that it has, null removing a field; any other patch is the new document.
-/

namespace ReleaseUpgrade.Json

/-- the fields of an object, none for other documents -/
def fieldsOr : Json → Dict Json
  | .obj fields => fields
  | _ => []

mutual

/-- the document `target` after a patch -/
def mergePatch (target : Json) : Json → Json
  | .obj changes => .obj (mergeFields target.fieldsOr changes)
  | patch => patch

/-- the fields after the changes in turn -/
def mergeFields (fields : Dict Json) : List (String × Json) → Dict Json
  | [] => fields
  | (k, .null) :: rest => mergeFields (Dict.erase k fields) rest
  | (k, patch) :: rest =>
    mergeFields (Dict.insert k (mergePatch ((Dict.get? k fields).getD .null) patch) fields) rest

end

end ReleaseUpgrade.Json
