import ReleaseUpgrade.Phases.Distribution
import ReleaseUpgrade.Phases.Manifest
import ReleaseUpgrade.Phases.Start
import ReleaseUpgrade.Phases.System
import ReleaseUpgrade.Phases.Workload

/-!
# One step of an upgrade

`Upgrade.step` advances an upgrade by one step: the manifest of the release, the start of an
attempt, the operating system, the Kubernetes distribution, the workloads in their order, the end.
-/

namespace ReleaseUpgrade.Upgrade

/-- the first workload that is not finished -/
def openWorkload? (status : Status) (workloads : List ReleaseChart) : Option ReleaseChart :=
  workloads.find? fun w => !status.isFinished (Status.workloadUpgraded w.prettyName)

/-- the release is noted as reached, and an event tells of it once -/
def complete (ctx : Context) : Step Requeue := do
  let release := ctx.plan.spec.releaseVersion
  if (← Step.status).lastSuccessfulRelease != some release then
    modify fun s => { s with lastSuccessfulRelease := some release }
    ctx.publish .normal "UpgradeCompleted" ("Upgrade to release " ++ release ++ " completed")
  return none

/-- a step of the attempt that is under way -/
def advance (ctx : Context) (release : ReleaseSpec) : Step Requeue := do
  let status ← Step.status
  if !status.isSucceeded Status.osUpgraded then
    SystemPhase.step ctx release.releaseVersion release.components.operatingSystem
  else if !status.isSucceeded Status.kubernetesUpgraded then
    DistributionPhase.step ctx release.components.kubernetes
  else
    match openWorkload? status release.components.workloads with
    | some workload => Workload.step ctx workload
    | none => complete ctx

/-- an upgrade advances by one step; an attempt that starts takes the suffix `suffix` -/
def step (ctx : Context) (suffix : String) : Step Requeue := do
  match ← ManifestPhase.resolve ctx with
  | none =>
    ManifestPhase.install ctx
    return none
  | some manifest =>
    let generation := ctx.plan.metadata.generation.getD 0
    if (← Step.status).observedGeneration != generation then
      Start.step ctx generation manifest.spec suffix
    else advance ctx manifest.spec

end ReleaseUpgrade.Upgrade
