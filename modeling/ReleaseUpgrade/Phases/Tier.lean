import ReleaseUpgrade.NodePlan.Build
import ReleaseUpgrade.Phases.Context

/-!
# Upgrading the nodes of a role

The nodes of a role are upgraded by a node plan.  The control plane goes first; the other nodes
follow once all nodes that the plan selects have arrived at the target.
-/

namespace ReleaseUpgrade.Tier

/-- how far the nodes of a role have come -/
inductive Progress where
  | waiting (requeue : Requeue)
  | upgraded
  deriving DecidableEq, Repr

/-- the condition that the nodes of a role are being upgraded -/
def message : NodeRole → String
  | .controlPlane => "Control plane nodes are being upgraded"
  | .worker => "Worker nodes are being upgraded"

/-- one role of nodes and their target -/
structure Spec where
  /-- the type of the condition -/
  condition : String
  nodes : List Node
  target : NodeTarget
  /-- the node plan of a role -/
  plan : NodeRole → NodePlan

/-- the node plan of a role is created, or the nodes that it selects are looked at -/
def drive (ctx : Context) (spec : Spec) (role : NodeRole) : Step Progress := do
  let plan := spec.plan role
  let existing ← Action.get .nodePlan plan.metadata.nsOr plan.metadata.nameAny
  match existing with
  | none =>
    ctx.setInProgress spec.condition (message role)
    ctx.create .nodePlan plan
    return .waiting none
  | some (existing : NodePlan) =>
    if ← Step.ofExcept (Nodes.upgraded spec.nodes existing.spec.nodeSelector spec.target) then
      return .upgraded
    else
      ctx.setInProgress spec.condition (message role)
      return .waiting (some ctx.settings.nodePollInterval)

/-- the roles that there are nodes of, the control plane first -/
def roles (ctx : Context) (nodes : List Node) : List NodeRole :=
  if Nodes.controlPlaneOnly nodes ctx.settings.keys.controlPlane then [.controlPlane]
  else [.controlPlane, .worker]

/-- the roles in turn, up to the first one that is not upgraded -/
def driveAll (ctx : Context) (spec : Spec) : List NodeRole → Step Progress
  | [] => return .upgraded
  | role :: rest => do
    match ← drive ctx spec role with
    | .waiting requeue => return .waiting requeue
    | .upgraded => driveAll ctx spec rest

end ReleaseUpgrade.Tier
