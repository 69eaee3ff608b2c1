import ReleaseUpgrade.Object.Metadata
import ReleaseUpgrade.Object.Selector

/-!
# Node plans

`NodePlan` is an upgrade of some nodes that the cluster's upgrade controller carries out: which
nodes, how many at a time, what runs on each of them.
-/

namespace ReleaseUpgrade

/-- a secret that is put on the node -/
structure SecretMount where
  name : String
  path : String
  deriving DecidableEq

/-- what runs on a node -/
structure StepContainer where
  image : String := ""
  command : List String := []
  args : List String := []
  deriving DecidableEq

/-- how the pods of a node are moved away -/
structure DrainSpec where
  /-- in nanoseconds -/
  timeout : Option Int := none
  deleteEmptydirData : Option Bool := none
  ignoreDaemonSets : Option Bool := none
  force : Bool := false
  deriving DecidableEq

structure NodePlanSpec where
  concurrency : Int := 0
  nodeSelector : Option LabelSelector := none
  serviceAccount : String := ""
  version : Option String := none
  secrets : List SecretMount := []
  tolerations : List Toleration := []
  cordon : Bool := false
  drain : Option DrainSpec := none
  prepare : Option StepContainer := none
  upgrade : Option StepContainer := none
  deriving DecidableEq

/-- the nodes that are being upgraded -/
structure NodePlanStatus where
  applying : List String := []
  deriving DecidableEq

/-- an upgrade of some nodes -/
structure NodePlan where
  metadata : Metadata := {}
  spec : NodePlanSpec := {}
  status : Option NodePlanStatus := none

namespace SecretMount

def ofJson? (j : Json) : Option SecretMount := do
  let r ← Record.open? ["name", "path"] j
  some { name := ← r.required "name" Json.str?, path := ← r.required "path" Json.str? }

def toJson (s : SecretMount) : Json := .obj [("name", .str s.name), ("path", .str s.path)]

end SecretMount

namespace StepContainer

def ofJson? (j : Json) : Option StepContainer := do
  let r ← Record.open? ["image", "command", "args"] j
  some {
    image := ← r.required "image" Json.str?
    command := ← r.defaulted "command" [] (Json.list? Json.str?)
    args := ← r.defaulted "args" [] (Json.list? Json.str?) }

def toJson (c : StepContainer) : Json :=
  .ofFields [("image", some (.str c.image)),
    ("command", if c.command.isEmpty then none else some (.ofStrings c.command)),
    ("args", if c.args.isEmpty then none else some (.ofStrings c.args))]

end StepContainer

namespace DrainSpec

def ofJson? (j : Json) : Option DrainSpec := do
  let r ← Record.open? ["timeout", "deleteEmptydirData", "ignoreDaemonSets", "force"] j
  some {
    timeout := ← r.optional "timeout" Json.int64?
    deleteEmptydirData := ← r.optional "deleteEmptydirData" Json.bool?
    ignoreDaemonSets := ← r.optional "ignoreDaemonSets" Json.bool?
    force := ← r.defaulted "force" false Json.bool? }

def toJson (d : DrainSpec) : Json :=
  .ofFields [("timeout", d.timeout.map Json.int),
    ("deleteEmptydirData", d.deleteEmptydirData.map Json.bool),
    ("ignoreDaemonSets", d.ignoreDaemonSets.map Json.bool), ("force", some (.bool d.force))]

end DrainSpec

namespace NodePlanSpec

def fieldNames : List String :=
  ["concurrency", "nodeSelector", "serviceAccountName", "version", "secrets", "tolerations",
    "cordon", "drain", "prepare", "upgrade"]

def ofJson? (j : Json) : Option NodePlanSpec := do
  let r ← Record.open? fieldNames j
  some {
    concurrency := ← r.defaulted "concurrency" 0 Json.int64?
    nodeSelector := ← r.optional "nodeSelector" LabelSelector.ofJson?
    serviceAccount := ← r.defaulted "serviceAccountName" "" Json.str?
    version := ← r.optional "version" Json.str?
    secrets := ← r.defaulted "secrets" [] (Json.list? SecretMount.ofJson?)
    tolerations := ← r.defaulted "tolerations" [] (Json.list? Toleration.ofJson?)
    cordon := ← r.defaulted "cordon" false Json.bool?
    drain := ← r.optional "drain" DrainSpec.ofJson?
    prepare := ← r.optional "prepare" StepContainer.ofJson?
    upgrade := ← r.optional "upgrade" StepContainer.ofJson? }

def toJson (s : NodePlanSpec) : Json :=
  .ofFields [
    ("concurrency", some (.int s.concurrency)),
    ("nodeSelector", s.nodeSelector.map LabelSelector.toJson),
    ("serviceAccountName", if s.serviceAccount = "" then none else some (.str s.serviceAccount)),
    ("version", s.version.map Json.str),
    ("secrets",
      if s.secrets.isEmpty then none else some (.arr (s.secrets.map SecretMount.toJson))),
    ("tolerations",
      if s.tolerations.isEmpty then none else some (.arr (s.tolerations.map Toleration.toJson))),
    ("cordon", some (.bool s.cordon)),
    ("drain", s.drain.map DrainSpec.toJson),
    ("prepare", s.prepare.map StepContainer.toJson),
    ("upgrade", s.upgrade.map StepContainer.toJson)]

end NodePlanSpec

namespace NodePlanStatus

def ofJson? (j : Json) : Option NodePlanStatus := do
  let r ← Record.open? ["applying"] j
  some { applying := ← r.defaulted "applying" [] (Json.list? Json.str?) }

def toJson (s : NodePlanStatus) : Json := .obj [("applying", .ofStrings s.applying)]

end NodePlanStatus

namespace NodePlan

/-- the group and version of node plans -/
def apiVersion : String := "upgrade.cattle.io/v1"

def ofJson? (j : Json) : Option NodePlan := do
  let r ← Record.open? ["metadata", "spec", "status"] j
  some {
    metadata := ← r.required "metadata" Metadata.ofJson?
    spec := ← r.required "spec" NodePlanSpec.ofJson?
    status := ← r.nullable "status" NodePlanStatus.ofJson? }

def toJson (p : NodePlan) : Json :=
  Object.toJson apiVersion "Plan" p.metadata
    [("spec", some p.spec.toJson), ("status", p.status.map NodePlanStatus.toJson)]

/-- at least one node is being upgraded by this plan -/
def isApplying (p : NodePlan) : Bool := p.status.any fun s => !s.applying.isEmpty

end NodePlan

end ReleaseUpgrade
