import ReleaseUpgrade.Chart.Evaluation

/-!
# Workloads

A workload is a chart with the charts that it depends on and with add-ons.

* A dependency that has not the version of the release stops the workload.
* The chart itself comes next; it decides the condition of the workload.
* Add-ons come last.  Their outcome is told in events; only an add-on that is still being upgraded,
  or of which nothing is known, stops the workload.
-/

namespace ReleaseUpgrade.Workload

/-- what becomes of a workload after one of its parts -/
inductive Progress where
  | goesOn
  | stops (requeue : Requeue)
  deriving DecidableEq, Repr

/-- the state of a chart becomes the condition -/
def record (ctx : Context) (condition : String) (state : ChartState) (release : String) :
    Step Requeue := do
  ctx.setCondition condition state.reason (state.message release)
  return if state.goesOn then .immediately else none

/-- the state of a chart, or the name of the release that has several chart resources -/
def stateOf (ctx : Context) (resources : List HelmChart) (chart : ReleaseChart) :
    Action (Except String ChartState) :=
  Action.recover (do return .ok (← Evaluation.state ctx resources chart)) fun
    | .multipleHelmCharts release => return .error release
    | e => throw e

/-- the state of a chart that the workload cannot do without; several chart resources fail it -/
def required (ctx : Context) (condition : String) (resources : List HelmChart)
    (chart : ReleaseChart) : Step (Option ChartState) := do
  match ← stateOf ctx resources chart with
  | .ok state => return some state
  | .error release =>
    ctx.setFailed condition (UpgradeError.multipleHelmCharts release).message
    return none

/-- the charts that the workload depends on, up to the first one that is not done -/
def dependencies (ctx : Context) (condition : String) (resources : List HelmChart) :
    List ReleaseChart → Step Progress
  | [] => return .goesOn
  | d :: rest => do
    match ← required ctx condition resources d with
    | none => return .stops .immediately
    | some state =>
      if state.isDone then dependencies ctx condition resources rest
      else return .stops (← record ctx condition state d.releaseName)

/-- what users are told of an add-on -/
def addonEvent? (condition : String) (workload addon : String) : ChartState → Option Event
  | .failed => some ⟨.warning, condition, "'" ++ workload ++
      "' upgraded successfully, but add-on component '" ++ addon ++ "' failed to upgrade"⟩
  | .notInstalled => some ⟨.normal, condition, "'" ++ addon ++
      "' add-on component upgrade skipped as it is missing in the cluster"⟩
  | .succeeded => some ⟨.normal, condition, "'" ++ addon ++
      "' add-on component successfully upgraded"⟩
  | _ => none

/-- the add-ons in turn, up to one that stops the workload -/
def addons (ctx : Context) (condition workload : String) (resources : List HelmChart) :
    List ReleaseChart → Step Progress
  | [] => return .goesOn
  | a :: rest => do
    match ← stateOf ctx resources a with
    | .error release =>
      ctx.publish .warning condition (UpgradeError.multipleHelmCharts release).message
      addons ctx condition workload resources rest
    | .ok .inProgress =>
      ctx.setInProgress condition (ChartState.inProgress.message a.releaseName)
      return .stops (some ctx.settings.nodePollInterval)
    | .ok .unknown => return .stops none
    | .ok state =>
      match addonEvent? condition workload a.releaseName state with
      | some e => ctx.publish e.kind e.reason e.message
      | none => pure ()
      addons ctx condition workload resources rest

/-- the chart of the workload is done: its add-ons follow, then its state is recorded -/
def finish (ctx : Context) (condition : String) (resources : List HelmChart)
    (workload : ReleaseChart) (core : ChartState) : Step Requeue := do
  match ← addons ctx condition workload.releaseName resources workload.addons with
  | .stops requeue => return requeue
  | .goesOn => record ctx condition core workload.releaseName

/-- the chart of the workload, once the charts that it depends on are done -/
def proceed (ctx : Context) (condition : String) (resources : List HelmChart)
    (workload : ReleaseChart) : Step Requeue := do
  match ← required ctx condition resources workload with
  | none => return .immediately
  | some core =>
    if core = .notInstalled && !workload.dependencies.isEmpty then
      ctx.setFailed condition ("'" ++ workload.releaseName ++
        "' core chart is missing, but dependency charts are present")
      return .immediately
    else if core.isDone then finish ctx condition resources workload core
    else record ctx condition core workload.releaseName

/-- a workload advances by one step -/
def step (ctx : Context) (workload : ReleaseChart) : Step Requeue := do
  let (resources : List HelmChart) ← Action.list .helmChart none
  let condition := Status.workloadUpgraded workload.prettyName
  match ← dependencies ctx condition resources workload.dependencies with
  | .stops requeue => return requeue
  | .goesOn => proceed ctx condition resources workload

end ReleaseUpgrade.Workload
