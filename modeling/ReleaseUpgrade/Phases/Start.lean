import ReleaseUpgrade.Phases.Context

/-!
# Starting an attempt

An attempt starts when the plan has changed: it gets a suffix of its own, so that none of its
objects has the name of one from an earlier attempt, and every condition is pending again.
-/

namespace ReleaseUpgrade.Start

/-- the components of a release: the type of their condition and their name -/
def components (release : ReleaseSpec) : List (String × String) :=
  [(Status.osUpgraded, "OS"), (Status.kubernetesUpgraded, "Kubernetes")] ++
    release.components.workloads.map fun c => (Status.workloadUpgraded c.prettyName, c.prettyName)

/-- a component is pending -/
def setPending (now : Instant) (status : Status) (component : String × String) : Status :=
  status.setCondition now component.1 .pending (component.2 ++ " upgrade is not yet started")

/-- the status at the start of an attempt; a suffix that is in use already is not taken -/
def status (now : Instant) (generation : Int) (release : ReleaseSpec) (suffix : String)
    (before : Status) : Status :=
  if before.namingSuffix = some suffix then before
  else
    (components release).foldl (setPending now)
      { before with namingSuffix := some suffix, observedGeneration := generation }

/-- an attempt starts; it goes on at once -/
def step (ctx : Context) (generation : Int) (release : ReleaseSpec) (suffix : String) :
    Step Requeue := do
  modify (status ctx.now generation release suffix)
  return .immediately

end ReleaseUpgrade.Start
