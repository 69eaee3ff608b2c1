import ReleaseUpgrade.Object.Metadata

/-!
# Nodes

`Node` is a machine of the cluster: whether pods may be placed on it, what it says about its health
and what it runs.
-/

namespace ReleaseUpgrade
open Shape (opt req texts)

/-- what a node says about one side of its health -/
structure NodeCondition where
  type : String := ""
  status : String := ""
  rest : List (String × Json) := []

/-- what a node runs -/
structure NodeInfo where
  architecture : String := ""
  kubeletVersion : String := ""
  osImage : String := ""
  rest : List (String × Json) := []

structure NodeSpec where
  unschedulable : Option Bool := none
  rest : List (String × Json) := []

structure NodeStatus where
  conditions : Option (List NodeCondition) := none
  info : Option NodeInfo := none
  rest : List (String × Json) := []

/-- a machine of the cluster -/
structure Node where
  metadata : Metadata := {}
  spec : Option NodeSpec := none
  status : Option NodeStatus := none

/-- the member that names a configuration of the kubelet -/
def Shape.nodeConfig : Shape :=
  .object [opt "configMap" (.object
    ([req "kubeletConfigKey" .text, req "name" .text, req "namespace" .text] ++
      texts ["resourceVersion", "uid"]))]

namespace NodeCondition

def ofJson? (j : Json) : Option NodeCondition := do
  let fs ← Shape.open? j
  some {
    type := ← Shape.memberOr fs "type" "" Json.str?
    status := ← Shape.memberOr fs "status" "" Json.str?
    rest := ← Shape.readMembers ([opt "lastHeartbeatTime" .time, opt "lastTransitionTime" .time] ++
      texts ["message", "reason"]) fs }

def toJson (c : NodeCondition) : Json :=
  .obj ([("type", .str c.type), ("status", .str c.status)] ++ c.rest)

end NodeCondition

namespace NodeInfo

/-- the members that only pass through, all of them always written -/
def passed : List (String × Bool × Shape) :=
  ["bootID", "containerRuntimeVersion", "kernelVersion", "kubeProxyVersion", "machineID",
    "operatingSystem", "systemUUID"].map fun n => req n .text

def ofJson? (j : Json) : Option NodeInfo := do
  let fs ← Shape.open? j
  some {
    architecture := ← Shape.memberOr fs "architecture" "" Json.str?
    kubeletVersion := ← Shape.memberOr fs "kubeletVersion" "" Json.str?
    osImage := ← Shape.memberOr fs "osImage" "" Json.str?
    rest := ← Shape.readMembers passed fs }

def toJson (i : NodeInfo) : Json :=
  .obj ([("architecture", .str i.architecture), ("kubeletVersion", .str i.kubeletVersion),
    ("osImage", .str i.osImage)] ++ i.rest)

end NodeInfo

namespace NodeSpec

def passed : List (String × Bool × Shape) :=
  texts ["externalID", "podCIDR", "providerID"] ++
    [opt "configSource" Shape.nodeConfig, opt "podCIDRs" (.list .text),
     opt "taints" (.list (.object [req "effect" .text, req "key" .text, opt "timeAdded" .time,
       opt "value" .text]))]

def ofJson? (j : Json) : Option NodeSpec := do
  let fs ← Shape.open? j
  some {
    unschedulable := ← Shape.member? fs "unschedulable" Json.bool?
    rest := ← Shape.readMembers passed fs }

def toJson (s : NodeSpec) : Json :=
  .obj ((s.unschedulable.map fun b => ("unschedulable", Json.bool b)).toList ++ s.rest)

end NodeSpec

namespace NodeStatus

def passed : List (String × Bool × Shape) :=
  [opt "addresses" (.list (.object [req "address" .text, req "type" .text])),
   opt "allocatable" (.dict .text),
   opt "capacity" (.dict .text),
   opt "config" (.object [opt "active" Shape.nodeConfig, opt "assigned" Shape.nodeConfig,
     opt "error" .text, opt "lastKnownGood" Shape.nodeConfig]),
   opt "daemonEndpoints" (.object [opt "kubeletEndpoint" (.object [req "Port" .int32])]),
   opt "features" (.object [opt "supplementalGroupsPolicy" .bool]),
   opt "images" (.list (.object [opt "names" (.list .text), opt "sizeBytes" .int64])),
   opt "phase" .text,
   opt "runtimeHandlers" (.list (.object [opt "features" (.object
     [opt "recursiveReadOnlyMounts" .bool, opt "userNamespaces" .bool]), opt "name" .text])),
   opt "volumesAttached" (.list (.object [req "devicePath" .text, req "name" .text])),
   opt "volumesInUse" (.list .text)]

def ofJson? (j : Json) : Option NodeStatus := do
  let fs ← Shape.open? j
  some {
    conditions := ← Shape.member? fs "conditions" (Json.list? NodeCondition.ofJson?)
    info := ← Shape.member? fs "nodeInfo" NodeInfo.ofJson?
    rest := ← Shape.readMembers passed fs }

def toJson (s : NodeStatus) : Json :=
  .obj ((s.conditions.map fun cs =>
      ("conditions", Json.arr (cs.map NodeCondition.toJson))).toList ++
    (s.info.map fun i => ("nodeInfo", i.toJson)).toList ++ s.rest)

end NodeStatus

namespace Node

def ofJson? (j : Json) : Option Node := do
  let fs ← Object.open? "v1" "Node" j
  some {
    metadata := ← Object.metadata? fs
    spec := ← Shape.member? fs "spec" NodeSpec.ofJson?
    status := ← Shape.member? fs "status" NodeStatus.ofJson? }

def toJson (n : Node) : Json :=
  Object.toJson "v1" "Node" n.metadata
    [("spec", n.spec.map NodeSpec.toJson), ("status", n.status.map NodeStatus.toJson)]

/-- the value of a label -/
def label? (n : Node) (key : String) : Option String := n.metadata.label? key

/-- what the node says it runs -/
def info? (n : Node) : Option NodeInfo := n.status.bind (·.info)

end Node

end ReleaseUpgrade
