import ReleaseUpgrade.Controller.Reconciliation
import ReleaseUpgrade.Metrics.Histogram
import ReleaseUpgrade.Metrics.Series

/-!
# Metrics

`Metrics` counts what happens to upgrade plans: passes and their durations, phases, completed
releases, failed conditions.  Points in time are nanoseconds of a clock that only goes forward.

* `Metrics.recordPhase`   the phase of a plan; it may be another one than before;
* `Metrics.forget`        every value of a plan goes when the plan does;
* `Metrics.record`        everything about one pass.
-/

namespace ReleaseUpgrade

/-- the labels of a plan -/
structure PlanLabels where
  name : String
  ns : String
  deriving DecidableEq, Repr

/-- the label values that a plan has had, besides its own -/
structure LabelValues where
  phases : List String := []
  releases : List String := []
  deriving DecidableEq, Repr

/-- what has happened to the plans -/
structure Metrics where
  /-- passes by outcome -/
  reconciles : Series (PlanLabels × String) UInt64 := []
  reconcileDurations : Series PlanLabels Histogram := []
  /-- 1 for the phase that a plan is in, 0 for those it was in before -/
  phaseInfo : Series (PlanLabels × String) Int := []
  /-- completed upgrades by release -/
  completed : Series (PlanLabels × String) UInt64 := []
  failedConditions : Series PlanLabels UInt64 := []
  /-- phases that were entered -/
  transitions : Series (PlanLabels × String) UInt64 := []
  phaseDurations : Series (PlanLabels × String) Histogram := []
  /-- when the phase that a plan is in started -/
  starts : Series PlanLabels Nat := []
  /-- the label values that are to go with a plan -/
  labelValues : Series PlanLabels LabelValues := []

namespace PlanLabels

def ofPlan (p : UpgradePlan) : PlanLabels := ⟨p.metadata.nameAny, p.metadata.nsOr⟩

end PlanLabels

namespace Metrics

/-- the bounds for the durations of passes -/
def reconcileBounds : List Float :=
  [0.005, 0.01, 0.025, 0.05, 0.1, 0.25, 0.5, 1.0, 2.5, 5.0, 10.0]

/-- the bounds for the durations of phases: a second to two hours, as nodes restart in turn -/
def phaseBounds : List Float :=
  [1.0, 5.0, 10.0, 30.0, 60.0, 120.0, 300.0, 600.0, 1800.0, 3600.0, 7200.0]

/-- the outcomes that a pass can have -/
def outcomes : List String := ["success", "requeue", "error"]

/-- a pass with its outcome and its duration in nanoseconds -/
def observeReconcile (p : PlanLabels) (outcome : String) (elapsed : Nat) (m : Metrics) : Metrics :=
  { m with
    reconciles := m.reconciles.update (p, outcome) 0 (· + 1)
    reconcileDurations := m.reconcileDurations.update p (.empty reconcileBounds)
      (Histogram.observe (Seconds.ofNanoseconds elapsed)) }

/-- the phase of the plan has started, now if that is not known yet -/
def ensurePhaseStart (now : Nat) (p : PlanLabels) (m : Metrics) : Metrics :=
  { m with starts := m.starts.update p now id }

/-- the start of the phase is known -/
def hasPhaseStart (p : PlanLabels) (m : Metrics) : Bool := (m.starts.get? p).isSome

/-- a phase of the plan has ended; its duration counts if its start is known -/
def observePhaseDuration (now : Nat) (p : PlanLabels) (phase : String) (m : Metrics) : Metrics :=
  match m.starts.get? p with
  | none => m
  | some start =>
    { m with
      starts := m.starts.remove p
      phaseDurations := m.phaseDurations.update (p, phase) (.empty phaseBounds)
        (Histogram.observe (Seconds.ofNanoseconds (now - start))) }

/-- a value of the phase label is noted -/
def notePhase (phase : String) (v : LabelValues) : LabelValues :=
  if phase ∈ v.phases then v else { v with phases := v.phases ++ [phase] }

/-- a value of the release label is noted -/
def noteRelease (release : String) (v : LabelValues) : LabelValues :=
  if release ∈ v.releases then v else { v with releases := v.releases ++ [release] }

/-- whether a plan is in a phase -/
def setPhaseInfo (p : PlanLabels) (phase : String) (value : Int) (m : Metrics) : Metrics :=
  { m with phaseInfo := m.phaseInfo.update (p, phase) 0 fun _ => value }

/-- a phase is entered from another one -/
def transition (now : Nat) (p : PlanLabels) (previous current : String) (m : Metrics) : Metrics :=
  let m := m.observePhaseDuration now p previous
  let m := (m.setPhaseInfo p previous 0).setPhaseInfo p current 1
  { m with transitions := m.transitions.update (p, current) 0 (· + 1) }

/-- the phase that a plan was in, and the one that it is in -/
def recordPhase (now : Nat) (p : PlanLabels) (previous current : String) (m : Metrics) : Metrics :=
  let m := { m with
    labelValues := m.labelValues.update p {} (notePhase current ∘ notePhase previous) }
  let m :=
    if previous = current then m.setPhaseInfo p current 1 else m.transition now p previous current
  m.ensurePhaseStart now p

/-- a release is reached -/
def recordCompleted (p : PlanLabels) (release : String) (m : Metrics) : Metrics :=
  { m with
    labelValues := m.labelValues.update p {} (noteRelease release)
    completed := m.completed.update (p, release) 0 (· + 1) }

/-- some conditions have failed -/
def recordFailedConditions (p : PlanLabels) (count : Nat) (m : Metrics) : Metrics :=
  if count = 0 then m
  else { m with failedConditions := m.failedConditions.update p 0 (· + UInt64.ofNat count) }

/-- every value of a plan goes -/
def forget (p : PlanLabels) (m : Metrics) : Metrics :=
  let values := (m.labelValues.get? p).getD {}
  let phases := values.phases.map (p, ·)
  { reconciles := m.reconciles.removeAll (outcomes.map (p, ·))
    reconcileDurations := m.reconcileDurations.remove p
    phaseInfo := m.phaseInfo.removeAll phases
    completed := m.completed.removeAll (values.releases.map (p, ·))
    failedConditions := m.failedConditions.remove p
    transitions := m.transitions.removeAll phases
    phaseDurations := m.phaseDurations.removeAll phases
    starts := m.starts.remove p
    labelValues := m.labelValues.remove p }

/-- the status that a plan had, and the one that it has -/
def recordProgress (now : Nat) (p : PlanLabels) (before status : Status) (m : Metrics) : Metrics :=
  let m := m.recordPhase now p before.activePhase.text status.activePhase.text
  let m := m.recordFailedConditions p (before.newlyFailed status)
  match status.lastSuccessfulRelease with
  | some release =>
    if before.lastSuccessfulRelease = some release then m else m.recordCompleted p release
  | none => m

/-- a pass over a plan that took some nanoseconds -/
def record (now elapsed : Nat) (p : PlanLabels) (r : Reconciliation) (m : Metrics) : Metrics :=
  let m :=
    match r.progress with
    | some (before, status) => m.recordProgress now p before status
    | none => m
  let m := m.observeReconcile p r.outcome elapsed
  if r.released then m.forget p else m

end Metrics

end ReleaseUpgrade
