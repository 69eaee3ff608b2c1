import ReleaseUpgrade.Controller.Cleanup
import ReleaseUpgrade.Phases.Run

/-!
# Passes over a plan

`Controller.reconcile` makes one pass over an upgrade plan.

* A plan gets the finalizer first; from then on it does not go before its objects are gone.
* A plan that stays advances by one step of its upgrade.  Its status is written whatever the outcome
  of the step.
* A plan that is being deleted loses the finalizer once its objects are gone.

`Schedule` says when the next pass is due, after an outcome or after an error.
-/

namespace ReleaseUpgrade

/-- when the next pass over a plan is due -/
inductive Schedule where
  /-- when something changes -/
  | onChange
  /-- after some milliseconds, or earlier if something changes -/
  | after (milliseconds : Nat)
  deriving DecidableEq, Repr

namespace Schedule

/-- the delay that stands for "immediately" -/
def shortest : Nat := 100

/-- the next pass after one that ended well -/
def ofRequeue : Requeue → Schedule
  | none => .onChange
  | some 0 => .after shortest
  | some delay => .after delay

/-- the next pass after an error: soon if the same pass may succeed then -/
def ofError (e : UpgradeError) : Schedule :=
  if e.isTransient then .after 10000 else .after 60000

end Schedule

/-- the outcome of one pass over a plan -/
structure Reconciliation where
  result : Except UpgradeError Requeue
  /-- the status before and after the step of the upgrade, if there was one -/
  progress : Option (Status × Status) := none
  /-- nothing keeps the plan from going any more -/
  released : Bool := false

namespace Reconciliation

/-- the word for the outcome in a metric -/
def outcome (r : Reconciliation) : String :=
  match r.result with
  | .ok none => "success"
  | .ok (some _) => "requeue"
  | .error _ => "error"

end Reconciliation

namespace Controller

/-- the plan carries the finalizer -/
def isGuarded (ctx : Context) : Bool := ctx.plan.finalizers.contains ctx.settings.keys.finalizer

/-- the plan gets the finalizer -/
def guard (ctx : Context) : Program Reconciliation := do
  let added ← (Action.setFinalizers ctx.plan
    (ctx.plan.finalizers ++ [ctx.settings.keys.finalizer])).run
  return { result := added.map fun _ => Requeue.immediately }

/-- the upgrade advances by one step, and its status is written -/
def advance (ctx : Context) (suffix : String) : Program Reconciliation := do
  let before := ctx.plan.statusOr
  let (outcome, status) ← (Upgrade.step ctx suffix).outcome before
  let written ← (Action.patchStatus ctx.plan status).run
  return { result := UpgradeError.join outcome written, progress := some (before, status) }

/-- the objects of a plan that is being deleted go, then its finalizer; the plan is released once it
has no finalizer -/
def release (ctx : Context) : Action Bool := do
  if !isGuarded ctx then return true
  match ← Cleanup.clean ctx with
  | .deferred => return false
  | .completed =>
    Action.setFinalizers ctx.plan
      (ctx.plan.finalizers.filter fun f => f != ctx.settings.keys.finalizer)
    return true

/-- a pass over a plan that is being deleted -/
def finalize (ctx : Context) : Program Reconciliation := do
  match ← (release ctx).run with
  | .ok released => return { result := .ok none, released }
  | .error e => return { result := .error e }

/-- one pass over the plan; an attempt that starts takes the suffix `suffix` -/
def reconcile (ctx : Context) (suffix : String) : Program Reconciliation :=
  if ctx.plan.metadata.isTerminating then finalize ctx
  else if isGuarded ctx then advance ctx suffix
  else guard ctx

end Controller

end ReleaseUpgrade
