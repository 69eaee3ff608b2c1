import ReleaseUpgrade.Chart.CoreComponents
import ReleaseUpgrade.Phases.Tier

/-!
# The Kubernetes distribution

The nodes of each role are upgraded to the version of the release; then the components that ship
with the distribution must follow.
-/

namespace ReleaseUpgrade.DistributionPhase

/-- the nodes and their target -/
def tiers (ctx : Context) (distribution : Distribution) (target : DistributionTarget)
    (nodes : List Node) (suffix : String) : Tier.Spec where
  condition := Status.kubernetesUpgraded
  nodes
  target := .kubelet target.version
  plan role :=
    let drain := DrainPolicy.resolve nodes ctx.settings.keys.controlPlane ctx.plan.spec.disableDrain
    NodePlan.ofKubernetes ctx.settings role distribution target.version suffix (drain.forRole role)
      ctx.identity

/-- the components of the distribution are looked at -/
def followCore (ctx : Context) (target : DistributionTarget) : Step Requeue := do
  match ← CoreComponent.pending ctx.settings target.coreComponents with
  | some name =>
    ctx.setInProgress Status.kubernetesUpgraded
      ("Waiting for " ++ name ++ " core component to be upgraded")
    return some ctx.settings.nodePollInterval
  | none =>
    ctx.setSucceeded Status.kubernetesUpgraded "All cluster nodes are upgraded"
    return .immediately

/-- the upgrade of the distribution advances by one step -/
def step (ctx : Context) (targets : KubernetesTargets) : Step Requeue := do
  let (nodes : List Node) ← Action.list .node none
  let distribution ← Step.ofExcept (Distribution.detect nodes)
  let target := distribution.target targets
  let suffix ← Step.ofExcept (Context.namingSuffix (← Step.status))
  match ← Tier.driveAll ctx (tiers ctx distribution target nodes suffix) (Tier.roles ctx nodes) with
  | .waiting requeue => return requeue
  | .upgraded => followCore ctx target

end ReleaseUpgrade.DistributionPhase
