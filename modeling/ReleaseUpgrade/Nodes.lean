import ReleaseUpgrade.Error
import ReleaseUpgrade.Object.Node
import ReleaseUpgrade.Object.Selector
import ReleaseUpgrade.Release.Manifest
import ReleaseUpgrade.Text.Substring

/-!
# What the nodes say

Which nodes a selector matches, and whether they have arrived at a target.

* `LabelSelector.holds`      a selector holds for some labels;
* `Nodes.matching`           the nodes that a selector matches; none at all is an error;
* `Nodes.upgraded`           all of them are ready, take pods and report the target;
* `Nodes.roleCounts`         how many nodes belong to the control plane and how many do not;
* `Distribution.detect`      the Kubernetes distribution that the first node runs.
-/

namespace ReleaseUpgrade

namespace Requirement

/-- the requirement holds for labels -/
def holds (r : Requirement) (labels : Dict String) : Except UpgradeError Bool :=
  let values := r.values.getD []
  let current := Dict.get? r.key labels
  match r.operator with
  | "In" => .ok (current.any fun v => values.contains v)
  | "NotIn" => .ok (current.all fun v => !values.contains v)
  | "Exists" => .ok current.isSome
  | "DoesNotExist" => .ok current.isNone
  | other => .error (.invalidSelector
      ("unsupported operator '" ++ other ++ "' for key '" ++ r.key ++ "'"))

/-- the requirements hold, up to the first one that does not -/
def allHold (labels : Dict String) : List Requirement → Except UpgradeError Bool
  | [] => .ok true
  | r :: rest =>
    match r.holds labels with
    | .error e => .error e
    | .ok false => .ok false
    | .ok true => allHold labels rest

end Requirement

namespace LabelSelector

/-- the selector holds for labels; an empty one always does -/
def holds (s : LabelSelector) (labels : Dict String) : Except UpgradeError Bool :=
  if (s.labels.getD []).all fun e => Dict.get? e.1 labels = some e.2 then
    Requirement.allHold labels (s.expressions.getD [])
  else .ok false

/-- the selector in words -/
def describe (s : LabelSelector) : String :=
  Text.joinWith ", "
    ((s.labels.getD []).map (fun e => e.1 ++ "=" ++ e.2) ++
      (s.expressions.getD []).map fun r =>
        r.key ++ " " ++ r.operator ++ " [" ++ Text.joinWith "," (r.values.getD []) ++ "]")

end LabelSelector

/-- what a node is compared with -/
inductive NodeTarget where
  | kubelet (version : String)
  | osImage (name : String)
  deriving DecidableEq, Repr

namespace Node

/-- the first statement about readiness says that the node is ready -/
def isReady (n : Node) : Bool :=
  match ((n.status.bind (·.conditions)).getD []).find? fun c => c.type = "Ready" with
  | some c => c.status = "True"
  | none => false

/-- pods may be placed on the node -/
def isSchedulable (n : Node) : Bool := !((n.spec.bind (·.unschedulable)).getD false)

/-- the node says that it runs the target -/
def reports (n : Node) (target : NodeTarget) : Bool :=
  match n.info?, target with
  | some i, .kubelet version => i.kubeletVersion = version
  | some i, .osImage name => i.osImage = name
  | none, _ => false

/-- the node is ready, takes pods and runs the target -/
def isUpgraded (target : NodeTarget) (n : Node) : Bool :=
  n.isReady && n.isSchedulable && n.reports target

/-- the labels of the node -/
def labels (n : Node) : Dict String := n.metadata.labels.getD []

/-- the node belongs to the control plane -/
def isControlPlane (label : String) (n : Node) : Bool := n.label? label = some "true"

/-- the architecture that the node reports, or nothing -/
def architecture (n : Node) : String := (n.info?.map (·.architecture)).getD ""

/-- the version of the kubelet that the node reports, or nothing -/
def kubeletVersion (n : Node) : String := (n.info?.map (·.kubeletVersion)).getD ""

end Node

namespace Nodes

/-- the nodes that a selector holds for -/
def select (s : LabelSelector) : List Node → Except UpgradeError (List Node)
  | [] => .ok []
  | n :: rest =>
    match s.holds n.labels with
    | .error e => .error e
    | .ok matched =>
      match select s rest with
      | .error e => .error e
      | .ok others => .ok (if matched then n :: others else others)

/-- the nodes that a selector matches, all of them if there is no selector; at least one -/
def matching (nodes : List Node) (selector : Option LabelSelector) :
    Except UpgradeError (List Node) :=
  let s := selector.getD {}
  match select s nodes with
  | .error e => .error e
  | .ok [] => .error (.noMatchingNodes s.describe)
  | .ok found => .ok found

/-- every node has arrived at the target -/
def allUpgraded (nodes : List Node) (target : NodeTarget) : Bool :=
  nodes.all (Node.isUpgraded target)

/-- every node that the selector matches has arrived at the target -/
def upgraded (nodes : List Node) (selector : Option LabelSelector) (target : NodeTarget) :
    Except UpgradeError Bool :=
  match matching nodes selector with
  | .error e => .error e
  | .ok found => .ok (allUpgraded found target)

/-- every node belongs to the control plane -/
def controlPlaneOnly (nodes : List Node) (label : String) : Bool :=
  nodes.all (Node.isControlPlane label)

/-- how many nodes belong to the control plane, and how many do not -/
def roleCounts (nodes : List Node) (label : String) : Nat × Nat :=
  let controlPlane := nodes.countP (Node.isControlPlane label)
  (controlPlane, nodes.length - controlPlane)

/-- the names of the nodes that report none of the architectures -/
def unsupported (nodes : List Node) (archs : List Arch) : List String :=
  (nodes.filter fun n => !archs.any fun a => a.isReportedAs n.architecture).map
    fun n => n.metadata.nameAny

end Nodes

/-- the Kubernetes distributions that can be upgraded -/
inductive Distribution where
  | k3s
  | rke2
  deriving DecidableEq, Repr

namespace Distribution

def text : Distribution → String
  | .k3s => "k3s"
  | .rke2 => "rke2"

/-- the distribution that the first node runs, by its kubelet -/
def detect : List Node → Except UpgradeError Distribution
  | [] => .error (.unsupportedDistribution "node list is empty")
  | n :: _ =>
    let kubelet := n.kubeletVersion
    if Text.occursIn "k3s" kubelet then .ok .k3s
    else if Text.occursIn "rke2" kubelet then .ok .rke2
    else .error (.unsupportedDistribution ("unsupported kubelet version '" ++ kubelet ++ "'"))

/-- the target of the distribution in a release -/
def target (d : Distribution) (targets : KubernetesTargets) : DistributionTarget :=
  match d with
  | .k3s => targets.k3s
  | .rke2 => targets.rke2

end Distribution

end ReleaseUpgrade
