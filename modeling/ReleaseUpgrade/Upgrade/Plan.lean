import ReleaseUpgrade.Upgrade.Status
import ReleaseUpgrade.Object.Metadata

/-!
# Upgrade plans

`UpgradePlan` declares the release that a cluster is to be upgraded to.
-/

namespace ReleaseUpgrade

/-- nodes of which role are not to be drained; what is not set keeps its default -/
structure DisableDrain where
  controlPlane : Option Bool := none
  worker : Option Bool := none
  deriving DecidableEq, Repr

/-- values that a user gives for one chart -/
structure ChartOverride where
  chart : String
  values : Option Json := none

/-- what an upgrade plan asks for -/
structure UpgradeSpec where
  releaseVersion : String := ""
  disableDrain : Option DisableDrain := none
  helm : List ChartOverride := []

/-- a plan to upgrade the cluster to a release -/
structure UpgradePlan where
  metadata : Metadata := {}
  spec : UpgradeSpec := {}
  status : Option Status := none

/-- the group and version of the object types that are defined here -/
def apiVersion : String := "lifecycle.ruo.io/v1alpha1"

namespace DisableDrain

def ofJson? (j : Json) : Option DisableDrain := do
  let r ← Record.open? ["controlPlane", "worker"] j
  some {
    controlPlane := ← r.optional "controlPlane" Json.bool?
    worker := ← r.optional "worker" Json.bool? }

def toJson (d : DisableDrain) : Json :=
  .ofFields [("controlPlane", d.controlPlane.map Json.bool), ("worker", d.worker.map Json.bool)]

end DisableDrain

namespace ChartOverride

def ofJson? (j : Json) : Option ChartOverride := do
  let r ← Record.open? ["chart", "values"] j
  some {
    chart := ← r.required "chart" Json.str?
    values := ← r.optional "values" Json.value? }

def toJson (o : ChartOverride) : Json :=
  .ofFields [("chart", some (.str o.chart)), ("values", o.values)]

end ChartOverride

namespace UpgradeSpec

def ofJson? (j : Json) : Option UpgradeSpec := do
  let r ← Record.open? ["releaseVersion", "disableDrain", "helm"] j
  some {
    releaseVersion := ← r.required "releaseVersion" Json.str?
    disableDrain := ← r.optional "disableDrain" DisableDrain.ofJson?
    helm := ← r.defaulted "helm" [] (Json.list? ChartOverride.ofJson?) }

def toJson (s : UpgradeSpec) : Json :=
  .ofFields [
    ("releaseVersion", some (.str s.releaseVersion)),
    ("disableDrain", s.disableDrain.map DisableDrain.toJson),
    ("helm", if s.helm.isEmpty then none else some (.arr (s.helm.map ChartOverride.toJson)))]

/-- the values of the first entry for a chart -/
def valuesFor (s : UpgradeSpec) (chart : String) : Option Json :=
  (s.helm.find? fun o => o.chart = chart).bind (·.values)

end UpgradeSpec

namespace UpgradePlan

def ofJson? (j : Json) : Option UpgradePlan := do
  let r ← Record.open? ["metadata", "spec", "status"] j
  some {
    metadata := ← r.required "metadata" Metadata.ofJson?
    spec := ← r.required "spec" UpgradeSpec.ofJson?
    status := ← r.nullable "status" Status.ofJson? }

def toJson (p : UpgradePlan) : Json :=
  Object.toJson apiVersion "UpgradePlan" p.metadata
    [("spec", some p.spec.toJson), ("status", p.status.map Status.toJson)]

/-- the finalizers of the plan -/
def finalizers (p : UpgradePlan) : List String := p.metadata.finalizers.getD []

/-- the status, or the one of a plan that has none yet -/
def statusOr (p : UpgradePlan) : Status := p.status.getD {}

end UpgradePlan

end ReleaseUpgrade
