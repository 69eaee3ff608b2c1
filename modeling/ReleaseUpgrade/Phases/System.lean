import ReleaseUpgrade.Phases.Tier
import ReleaseUpgrade.Script

/-!
# The operating system

All nodes must support the operating system of the release.  The upgrade script goes into a secret,
then the nodes of each role run it.
-/

namespace ReleaseUpgrade.SystemPhase

/-- the nodes and their target -/
def tiers (ctx : Context) (releaseVersion : String) (os : OperatingSystem) (nodes : List Node)
    (suffix : String) : Tier.Spec where
  condition := Status.osUpgraded
  nodes
  target := .osImage os.prettyName
  plan role :=
    let drain := DrainPolicy.resolve nodes ctx.settings.keys.controlPlane ctx.plan.spec.disableDrain
    NodePlan.ofSystem ctx.settings role releaseVersion os suffix (drain.forRole role) ctx.identity

/-- the step after the nodes have been found fit -/
def upgrade (ctx : Context) (releaseVersion : String) (os : OperatingSystem) (nodes : List Node)
    (suffix : String) : Step Requeue := do
  match ← Action.get .secret ctx.settings.upgradeNamespace (Naming.osSecret suffix) with
  | none =>
    ctx.create .secret (Script.secret ctx.settings os suffix ctx.identity)
    return none
  | some _ =>
    match ← Tier.driveAll ctx (tiers ctx releaseVersion os nodes suffix) (Tier.roles ctx nodes) with
    | .waiting requeue => return requeue
    | .upgraded =>
      ctx.setSucceeded Status.osUpgraded "All cluster nodes are upgraded"
      return .immediately

/-- the upgrade of the operating system advances by one step -/
def step (ctx : Context) (releaseVersion : String) (os : OperatingSystem) : Step Requeue := do
  let (nodes : List Node) ← Action.list .node none
  let unsupported := Nodes.unsupported nodes os.supportedArchs
  if unsupported.isEmpty then
    let suffix ← Step.ofExcept (Context.namingSuffix (← Step.status))
    upgrade ctx releaseVersion os nodes suffix
  else
    ctx.setFailed Status.osUpgraded
      ("Unsupported node architecture for node(s): " ++ Text.joinWith ", " unsupported)
    return none

end ReleaseUpgrade.SystemPhase
