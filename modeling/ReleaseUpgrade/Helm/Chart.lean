import ReleaseUpgrade.Object.Metadata

/-!
# Chart resources

`HelmChart` tells the cluster's chart controller to install or upgrade a chart.  It is replaced as a
whole, so the fields that do not matter here are kept as they are.
-/

namespace ReleaseUpgrade

structure HelmChartSpec where
  targetNamespace : String := ""
  chart : String := ""
  version : String := ""
  repo : String := ""
  valuesContent : String := ""
  chartContent : String := ""
  backOffLimit : Option Int := none
  /-- the fields that others manage -/
  extra : Dict Json := []

structure HelmChartStatus where
  /-- the job of the latest installation or upgrade -/
  jobName : String := ""
  extra : Dict Json := []

/-- a chart that is to be installed or upgraded -/
structure HelmChart where
  metadata : Metadata := {}
  spec : HelmChartSpec := {}
  status : Option HelmChartStatus := none

namespace HelmChartSpec

def fieldNames : List String :=
  ["targetNamespace", "chart", "version", "repo", "valuesContent", "chartContent", "backOffLimit"]

def ofJson? (j : Json) : Option HelmChartSpec := do
  let r ← Record.openObject? fieldNames j
  some {
    targetNamespace := ← r.defaulted "targetNamespace" "" Json.str?
    chart := ← r.defaulted "chart" "" Json.str?
    version := ← r.defaulted "version" "" Json.str?
    repo := ← r.defaulted "repo" "" Json.str?
    valuesContent := ← r.defaulted "valuesContent" "" Json.str?
    chartContent := ← r.defaulted "chartContent" "" Json.str?
    backOffLimit := ← r.optional "backOffLimit" Json.int32?
    extra := r.rest fieldNames }

/-- a text that is left out when it is empty -/
def filled (s : String) : Option Json := if s = "" then none else some (.str s)

def toJson (s : HelmChartSpec) : Json :=
  .obj (([
    ("targetNamespace", filled s.targetNamespace),
    ("chart", filled s.chart),
    ("version", filled s.version),
    ("repo", filled s.repo),
    ("valuesContent", filled s.valuesContent),
    ("chartContent", filled s.chartContent),
    ("backOffLimit", s.backOffLimit.map Json.int)] : List (String × Option Json)).filterMap
      (fun f => f.2.map (f.1, ·)) ++ s.extra)

end HelmChartSpec

namespace HelmChartStatus

def ofJson? (j : Json) : Option HelmChartStatus := do
  let r ← Record.openObject? ["jobName"] j
  some {
    jobName := ← r.defaulted "jobName" "" Json.str?
    extra := r.rest ["jobName"] }

def toJson (s : HelmChartStatus) : Json := .obj (("jobName", .str s.jobName) :: s.extra)

end HelmChartStatus

namespace HelmChart

/-- the group and version of chart resources -/
def apiVersion : String := "helm.cattle.io/v1"

def ofJson? (j : Json) : Option HelmChart := do
  let r ← Record.open? ["metadata", "spec", "status"] j
  some {
    metadata := ← r.required "metadata" Metadata.ofJson?
    spec := ← r.required "spec" HelmChartSpec.ofJson?
    status := ← r.nullable "status" HelmChartStatus.ofJson? }

def toJson (c : HelmChart) : Json :=
  Object.toJson apiVersion "HelmChart" c.metadata
    [("spec", some c.spec.toJson), ("status", c.status.map HelmChartStatus.toJson)]

/-- the job of the latest installation or upgrade, if there is one -/
def jobName? (c : HelmChart) : Option String :=
  match c.status with
  | some s => if s.jobName = "" then none else some s.jobName
  | none => none

end HelmChart

end ReleaseUpgrade
