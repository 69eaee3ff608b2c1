import ReleaseUpgrade.Chart.State
import ReleaseUpgrade.Helm.Upgrade
import ReleaseUpgrade.Helm.Values
import ReleaseUpgrade.Phases.Context

/-!
# Upgrading a chart

`Evaluation.state` moves one chart towards the version of the release and tells how far it is.

A chart that is installed without a chart resource gets one, unless it has the version already.  The
chart resource of an older version is set to the new one.  Afterwards the job of the chart resource
tells the outcome, but only if the resource was last set for this release.
-/

namespace ReleaseUpgrade.Evaluation

/-- the only chart resource of a release; several are an error -/
def resource? (release : String) (resources : List HelmChart) :
    Except UpgradeError (Option HelmChart) :=
  match resources.filter fun c => c.metadata.nameAny = release with
  | [] => .ok none
  | [c] => .ok (some c)
  | _ => .error (.multipleHelmCharts release)

/-- a chart that is installed without a chart resource -/
def adopt (ctx : Context) (chart : ReleaseChart) (installed : HelmRelease) : Action ChartState := do
  if installed.chartVersion = chart.version then return .versionAlreadyInstalled
  let values ← Action.ofExcept (Values.layered (.config installed.config) chart.values
    (ctx.plan.spec.valuesFor chart.name))
  ctx.create .helmChart (HelmChart.takeOver ctx.settings installed chart values ctx.identity
    ctx.plan.spec.releaseVersion)
  return .inProgress

/-- a chart resource of another version is set to the chart of the release -/
def update (ctx : Context) (chart : ReleaseChart) (existing : HelmChart) : Action ChartState := do
  let values ← Action.ofExcept (Values.layered (.yaml existing.spec.valuesContent) chart.values
    (ctx.plan.spec.valuesFor chart.name))
  Action.replace .helmChart (existing.toRelease ctx.settings chart values ctx.identity
    ctx.plan.spec.releaseVersion)
  return .inProgress

/-- the state that the outcome of a job stands for -/
def ofOutcome : Option JobOutcome → ChartState
  | none => .inProgress
  | some .complete => .succeeded
  | some .failed => .failed

/-- how far the job of a chart resource has come -/
def follow (ctx : Context) (existing : HelmChart) : Action ChartState := do
  match existing.jobName? with
  | none => return .unknown
  | some name =>
    let ns := existing.metadata.ns.getD ctx.settings.chartNamespace
    match ← Action.get .job ns name with
    | none => return .unknown
    | some (job : Job) => return ofOutcome job.outcome?

/-- a chart resource that is there already -/
def advance (ctx : Context) (chart : ReleaseChart) (existing : HelmChart) : Action ChartState :=
  if existing.spec.version != chart.version then update ctx chart existing
  else if existing.metadata.noted? ctx.settings.keys.release !=
      some ctx.plan.spec.releaseVersion then
    return .versionAlreadyInstalled
  else follow ctx existing

/-- a chart moves towards the version of the release; `resources` are the chart resources of the
whole cluster -/
def state (ctx : Context) (resources : List HelmChart) (chart : ReleaseChart) :
    Action ChartState := do
  match ← Action.latestRelease chart.releaseName with
  | none => return .notInstalled
  | some installed =>
    match ← Action.ofExcept (resource? chart.releaseName resources) with
    | none => adopt ctx chart installed
    | some existing => advance ctx chart existing

end ReleaseUpgrade.Evaluation
