import ReleaseUpgrade.Cluster.Program
import ReleaseUpgrade.Settings
import ReleaseUpgrade.Text.Substring

/-!
# Core components

The components that ship with a Kubernetes distribution follow the nodes on their own.

* `CoreComponent.upgraded`   whether a component runs its version, nothing if it is not there;
* `CoreComponent.pending`    the first component that does not.
-/

namespace ReleaseUpgrade

namespace Deployment

/-- a container of this name is there, and its image has the given one as a part -/
def hasContainer (d : Deployment) (want : ContainerImage) : Bool :=
  match d.containers.find? fun c => c.name = want.name with
  | some c => c.image.any (Text.occursIn want.image)
  | none => false

end Deployment

namespace CoreComponent

/-- a chart has run its job, and the release has the version -/
def chartUpgraded (settings : Settings) (name version : String) : Action (Option Bool) := do
  match ← Action.get .helmChart settings.chartNamespace name with
  | none => return none
  | some (found : HelmChart) =>
    match found.jobName? with
    | none => return some false
    | some jobName =>
      match ← Action.get .job settings.chartNamespace jobName with
      | none => return some false
      | some (job : Job) =>
        if job.outcome? = some .complete then
          let release ← Action.latestRelease name
          return some (release.any fun r => r.chartVersion = version)
        else return some false

/-- enough pods of a deployment run, with the images of the release -/
def deploymentUpgraded (settings : Settings) (name : String) (containers : List ContainerImage) :
    Action (Option Bool) := do
  match ← Action.get .deployment settings.chartNamespace name with
  | none => return none
  | some (d : Deployment) => return some (d.isAvailable && containers.all d.hasContainer)

/-- the component runs its version; nothing if it is not there -/
def upgraded (settings : Settings) : CoreComponent → Action (Option Bool)
  | .chart name version => chartUpgraded settings name version
  | .deployment name containers => deploymentUpgraded settings name containers

/-- the name of the first component that is there and does not run its version -/
def pending (settings : Settings) : List CoreComponent → Action (Option String)
  | [] => return none
  | c :: rest => do
    if (← upgraded settings c) = some false then return some c.name else pending settings rest

end CoreComponent

end ReleaseUpgrade
