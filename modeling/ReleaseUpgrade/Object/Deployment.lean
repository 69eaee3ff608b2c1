import ReleaseUpgrade.Object.Pod

/-!
# Deployments

`Deployment` keeps a number of equal pods running.
-/

namespace ReleaseUpgrade
open Shape (opt req texts numbers flags names)

/-- one statement about a deployment -/
structure DeploymentCondition where
  type : String := ""
  status : String := ""
  rest : List (String × Json) := []

structure DeploymentSpec where
  template : PodTemplate := {}
  rest : List (String × Json) := []

structure DeploymentStatus where
  conditions : Option (List DeploymentCondition) := none
  rest : List (String × Json) := []

/-- a number of equal pods -/
structure Deployment where
  metadata : Metadata := {}
  spec : Option DeploymentSpec := none
  status : Option DeploymentStatus := none

namespace DeploymentCondition

def ofJson? (j : Json) : Option DeploymentCondition := do
  let fs ← Shape.open? j
  some {
    type := ← Shape.memberOr fs "type" "" Json.str?
    status := ← Shape.memberOr fs "status" "" Json.str?
    rest := ← Shape.readMembers ([opt "lastTransitionTime" .time, opt "lastUpdateTime" .time] ++
      texts ["message", "reason"]) fs }

def toJson (c : DeploymentCondition) : Json :=
  .obj ([("type", .str c.type), ("status", .str c.status)] ++ c.rest)

end DeploymentCondition

namespace DeploymentSpec

def passed : List (String × Bool × Shape) :=
  numbers ["minReadySeconds", "progressDeadlineSeconds", "replicas", "revisionHistoryLimit"] ++
  [opt "paused" .bool, req "selector" Shape.selector,
   opt "strategy" (.object [opt "rollingUpdate" (.object
     [opt "maxSurge" .intOrText, opt "maxUnavailable" .intOrText]), opt "type" .text])]

def ofJson? (j : Json) : Option DeploymentSpec := do
  let fs ← Shape.open? j
  some {
    template := ← Shape.memberOr fs "template" {} PodTemplate.ofJson?
    rest := ← Shape.readMembers passed fs }

def toJson (s : DeploymentSpec) : Json := .obj (("template", s.template.toJson) :: s.rest)

end DeploymentSpec

namespace DeploymentStatus

def passed : List (String × Bool × Shape) :=
  numbers ["availableReplicas", "collisionCount", "readyReplicas", "replicas",
    "unavailableReplicas", "updatedReplicas"] ++ [opt "observedGeneration" .int64]

def ofJson? (j : Json) : Option DeploymentStatus := do
  let fs ← Shape.open? j
  some {
    conditions := ← Shape.member? fs "conditions" (Json.list? DeploymentCondition.ofJson?)
    rest := ← Shape.readMembers passed fs }

def toJson (s : DeploymentStatus) : Json :=
  .obj ((s.conditions.map fun cs =>
    ("conditions", Json.arr (cs.map DeploymentCondition.toJson))).toList ++ s.rest)

end DeploymentStatus

namespace Deployment

def ofJson? (j : Json) : Option Deployment := do
  let fs ← Object.open? "apps/v1" "Deployment" j
  some {
    metadata := ← Object.metadata? fs
    spec := ← Shape.member? fs "spec" DeploymentSpec.ofJson?
    status := ← Shape.member? fs "status" DeploymentStatus.ofJson? }

def toJson (d : Deployment) : Json :=
  Object.toJson "apps/v1" "Deployment" d.metadata
    [("spec", d.spec.map DeploymentSpec.toJson), ("status", d.status.map DeploymentStatus.toJson)]

/-- the containers of the pods, none if the deployment does not describe them -/
def containers (d : Deployment) : List Container :=
  ((d.spec.bind fun s => s.template.spec).map (·.containers)).getD []

/-- the statements about the deployment, none if it has no status -/
def conditions (d : Deployment) : List DeploymentCondition :=
  (d.status.bind (·.conditions)).getD []

/-- enough of the pods are running -/
def isAvailable (d : Deployment) : Bool :=
  d.conditions.any fun c => c.type = "Available" && c.status = "True"

end Deployment

end ReleaseUpgrade
