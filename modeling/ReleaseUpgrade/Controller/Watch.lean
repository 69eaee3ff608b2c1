import ReleaseUpgrade.Cluster.Kind
import ReleaseUpgrade.Naming

/-!
# Watched objects

When an object changes, the passes over the plans that wait for it are due.  Each function finds the
plans that an object of some kind concerns.

* A node plan concerns its plan once no node is being upgraded, a job once it has ended.
* A job of a chart is not marked with a plan; the chart resource that it was started for is.
* A manifest concerns the plans in its namespace that ask for its release.
-/

namespace ReleaseUpgrade

/-- name and namespace of an upgrade plan -/
structure PlanRef where
  name : String
  ns : Option String
  deriving DecidableEq, Repr

namespace PlanRef

/-- the plan that an object is marked with -/
def ofMarks? (keys : Keys) (m : Metadata) : Option PlanRef :=
  (Naming.owner? keys m).map fun (name, ns) => ⟨name, some ns⟩

/-- the reference of a plan -/
def ofPlan (p : UpgradePlan) : PlanRef := ⟨p.metadata.name.getD "", p.metadata.ns⟩

end PlanRef

namespace Watch

def nodePlan (keys : Keys) (p : NodePlan) : Option PlanRef :=
  if p.isApplying then none else PlanRef.ofMarks? keys p.metadata

def secret (keys : Keys) (s : Secret) : Option PlanRef := PlanRef.ofMarks? keys s.metadata

/-- the chart resource that a job was started for -/
def chartOf? (settings : Settings) (chart? : (ns name : String) → Option HelmChart) (job : Job) :
    Option HelmChart := do
  chart? settings.chartNamespace (← job.metadata.label? settings.keys.helmChartJob)

/-- the plan of a job; `chart?` finds chart resources by namespace and name -/
def job (settings : Settings) (chart? : (ns name : String) → Option HelmChart) (job : Job) :
    Option PlanRef :=
  if job.isFinished then
    PlanRef.ofMarks? settings.keys job.metadata <|> do
      PlanRef.ofMarks? settings.keys (← chartOf? settings chart? job).metadata
  else none

/-- the plans that ask for the release of a manifest -/
def releaseManifest (m : ReleaseManifest) (plans : List UpgradePlan) : List PlanRef :=
  (plans.filter fun p =>
    p.metadata.ns = m.metadata.ns && p.spec.releaseVersion = m.spec.releaseVersion).map
      PlanRef.ofPlan

end Watch

end ReleaseUpgrade
