import ReleaseUpgrade.Json.Record

/-!
# Charts of a release

`ReleaseChart` is a chart that ships with a release, with the charts that must be upgraded before it
and the optional ones that are upgraded after it.
-/

namespace ReleaseUpgrade

/-- a chart that ships with a release -/
structure ReleaseChart where
  releaseName : String := ""
  name : String := ""
  repository : String := ""
  version : String := ""
  prettyName : String := ""
  values : Option Json := none
  /-- charts that must be upgraded before this one -/
  dependencies : List ReleaseChart := []
  /-- optional charts that are upgraded after this one -/
  addons : List ReleaseChart := []

namespace ReleaseChart

def fieldNames : List String :=
  ["releaseName", "chart", "repository", "version", "prettyName", "values", "dependencyCharts",
    "addonCharts"]

/-- the chart that a document describes, with the charts in it -/
def ofJson? (j : Json) : Option ReleaseChart :=
  match h : Record.open? fieldNames j with
  | none => none
  | some r => do
    some {
      releaseName := ← r.required "releaseName" Json.str?
      name := ← r.required "chart" Json.str?
      repository := ← r.defaulted "repository" "" Json.str?
      version := ← r.required "version" Json.str?
      prettyName := ← r.required "prettyName" Json.str?
      values := ← r.optional "values" Json.value?
      dependencies := ← Record.nested h "dependencyCharts" fun item _ => ofJson? item
      addons := ← Record.nested h "addonCharts" fun item _ => ofJson? item }
termination_by j

mutual

/-- the document of a chart; empty lists and an empty repository are left out -/
def toJson : ReleaseChart → Json
  | ⟨releaseName, name, repository, version, prettyName, values, dependencies, addons⟩ =>
    .ofFields [
      ("releaseName", some (.str releaseName)),
      ("chart", some (.str name)),
      ("repository", if repository = "" then none else some (.str repository)),
      ("version", some (.str version)),
      ("prettyName", some (.str prettyName)),
      ("values", values),
      ("dependencyCharts", listToJson? dependencies),
      ("addonCharts", listToJson? addons)]

/-- the array of some charts, nothing for none -/
def listToJson? : List ReleaseChart → Option Json
  | [] => none
  | c :: rest => some (.arr (toJson c :: listToJsons rest))

def listToJsons : List ReleaseChart → List Json
  | [] => []
  | c :: rest => toJson c :: listToJsons rest

end

end ReleaseChart

end ReleaseUpgrade
