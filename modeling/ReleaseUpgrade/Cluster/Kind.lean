import ReleaseUpgrade.Helm.Chart
import ReleaseUpgrade.NodePlan.Basic
import ReleaseUpgrade.Object.Deployment
import ReleaseUpgrade.Object.Job
import ReleaseUpgrade.Object.Node
import ReleaseUpgrade.Object.Secret
import ReleaseUpgrade.Release.Manifest

/-!
# Kinds of cluster objects

`Kind` lists the objects that an upgrade works with; `Kind.Object` is the type of the objects of a
kind, and the other definitions treat them alike.
-/

namespace ReleaseUpgrade

/-- the kinds of objects that an upgrade works with -/
inductive Kind where
  | releaseManifest
  | node
  | secret
  | nodePlan
  | helmChart
  | job
  | deployment
  deriving DecidableEq, Repr

namespace Kind

/-- the objects of a kind -/
def Object : Kind → Type
  | .releaseManifest => ReleaseManifest
  | .node => Node
  | .secret => Secret
  | .nodePlan => NodePlan
  | .helmChart => HelmChart
  | .job => Job
  | .deployment => Deployment

/-- the name of a kind in the cluster -/
def text : Kind → String
  | .releaseManifest => "ReleaseManifest"
  | .node => "Node"
  | .secret => "Secret"
  | .nodePlan => "Plan"
  | .helmChart => "HelmChart"
  | .job => "Job"
  | .deployment => "Deployment"

/-- the kind as a word in the name of an operation -/
def word : Kind → String
  | .releaseManifest => "release_manifest"
  | .node => "node"
  | .secret => "secret"
  | .nodePlan => "plan"
  | .helmChart => "helm_chart"
  | .job => "job"
  | .deployment => "deployment"

def all : List Kind :=
  [.releaseManifest, .node, .secret, .nodePlan, .helmChart, .job, .deployment]

def metadata : (k : Kind) → k.Object → Metadata
  | .releaseManifest, o => ReleaseManifest.metadata o
  | .node, o => Node.metadata o
  | .secret, o => Secret.metadata o
  | .nodePlan, o => NodePlan.metadata o
  | .helmChart, o => HelmChart.metadata o
  | .job, o => Job.metadata o
  | .deployment, o => Deployment.metadata o

def ofJson? : (k : Kind) → Json → Option k.Object
  | .releaseManifest, j => ReleaseManifest.ofJson? j
  | .node, j => Node.ofJson? j
  | .secret, j => Secret.ofJson? j
  | .nodePlan, j => NodePlan.ofJson? j
  | .helmChart, j => HelmChart.ofJson? j
  | .job, j => Job.ofJson? j
  | .deployment, j => Deployment.ofJson? j

def toJson : (k : Kind) → k.Object → Json
  | .releaseManifest, o => ReleaseManifest.toJson o
  | .node, o => Node.toJson o
  | .secret, o => Secret.toJson o
  | .nodePlan, o => NodePlan.toJson o
  | .helmChart, o => HelmChart.toJson o
  | .job, o => Job.toJson o
  | .deployment, o => Deployment.toJson o

end Kind

end ReleaseUpgrade
