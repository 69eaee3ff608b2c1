import ReleaseUpgrade.Phases.Context
import ReleaseUpgrade.Release.Install

/-!
# The manifest of the release

* `ManifestPhase.resolve`   the manifest of the release that the plan asks for, if it is published;
* `ManifestPhase.install`   the job that publishes it.  A job of an earlier run may still be on its
                            way out, so creating it is tried several times.
-/

namespace ReleaseUpgrade.ManifestPhase

/-- the namespace of the plan, where its manifests are -/
def planNamespace (ctx : Context) : String := ctx.plan.metadata.nsOr

/-- the first manifest of the release that the plan asks for -/
def resolve (ctx : Context) : Action (Option ReleaseManifest) := do
  let (manifests : List ReleaseManifest) ← Action.list .releaseManifest (some (planNamespace ctx))
  return manifests.find? fun m => m.spec.releaseVersion = ctx.plan.spec.releaseVersion

/-- the job that publishes the manifest -/
def job (ctx : Context) : Job :=
  Install.job ctx.settings ctx.plan.spec.releaseVersion (planNamespace ctx) ctx.identity

/-- a job of this name is there and stays: the conflict `e` does not matter -/
def settle (job : Job) (e : UpgradeError) : Action Unit := do
  match ← Action.get .job job.metadata.nsOr job.metadata.nameAny with
  | some (existing : Job) => if existing.metadata.isTerminating then throw e else return ()
  | none => throw e

/-- one attempt to create the job -/
def attempt (ctx : Context) (job : Job) : Action Unit :=
  (ctx.create .job job).recover fun e => if e.isConflict then settle job e else throw e

/-- the milliseconds between two attempts -/
def delays : List Nat := [500, 1000, 2000, 4000]

/-- an attempt, and after each failure and the next delay another one -/
def retry (attempt : Action Unit) : List Nat → Action Unit
  | [] => attempt
  | delay :: rest => attempt.recover fun _ => do
    Action.wait delay
    retry attempt rest

/-- the job that publishes the manifest is created -/
def install (ctx : Context) : Action Unit := retry (attempt ctx (job ctx)) delays

end ReleaseUpgrade.ManifestPhase
