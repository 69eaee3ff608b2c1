import ReleaseUpgrade.SemVer
import ReleaseUpgrade.Upgrade.Plan

/-!
# Admission of plans

Which plans may be created, and how a plan may be edited.

* A plan asks for a release by a semantic version, with a `v` before it or without.
* While an upgrade is under way its plan is not edited, except that finalizers go when the plan
  does.
* Once a release has been reached, an edit asks for a later one.
-/

namespace ReleaseUpgrade

/-- why a plan is refused -/
inductive Refusal where
  | missingVersion
  | invalidVersion (version : String)
  /-- a condition says that the upgrade is under way -/
  | upgradeUnderWay (condition : String) (reason : Reason)
  /-- the plan of this name asks for the release that has been reached -/
  | unchangedVersion (plan : String)
  /-- the release that has been reached is later -/
  | olderVersion (reached : String)
  deriving DecidableEq, Repr

namespace Refusal

def message : Refusal → String
  | .missingVersion => "release version is required"
  | .invalidVersion v => "'" ++ v ++ "' is not a semantic version"
  | .upgradeUnderWay condition reason =>
    "upgrade plan cannot be edited while condition '" ++ condition ++ "' is in '" ++ reason.text ++
      "' state"
  | .unchangedVersion plan =>
    "any edits over '" ++ plan ++ "' must come with an increment of the releaseVersion"
  | .olderVersion reached =>
    "new releaseVersion must be greater than the currently applied one ('" ++ reached ++ "')"

end Refusal

namespace Admission

/-- the version that a release is called by -/
def releaseVersion (text : String) : Except Refusal SemVer :=
  if text = "" then .error .missingVersion
  else
    match SemVer.ofText? ((Text.stripFront? "v" text).getD text) with
    | some v => .ok v
    | none => .error (.invalidVersion text)

/-- a plan may be created -/
def create (plan : UpgradePlan) : Except Refusal Unit := do
  let _ ← releaseVersion plan.spec.releaseVersion

/-- the reason says that the upgrade is under way -/
def locks : Reason → Bool
  | .inProgress | .pending | .error => true
  | _ => false

/-- the first condition that says that the upgrade is under way -/
def lock? (plan : UpgradePlan) : Option Condition :=
  plan.statusOr.conditions.find? fun c => locks c.reason

/-- finalizers go from a plan that is being deleted -/
def isRelease (old new : UpgradePlan) : Bool :=
  new.metadata.isTerminating && new.finalizers.length < old.finalizers.length

/-- the last release that a plan has reached; an empty one is none -/
def reached? (plan : UpgradePlan) : Option String :=
  plan.statusOr.lastSuccessfulRelease.filter fun v => v != ""

/-- the requested version comes after the release that has been reached -/
def advances (plan : UpgradePlan) (requested : SemVer) (reached : String) :
    Except Refusal Unit := do
  match requested.order (← releaseVersion reached) with
  | .gt => return ()
  | .eq => throw (.unchangedVersion (plan.metadata.name.getD ""))
  | .lt => throw (.olderVersion reached)

/-- the plan `old` may become `new` -/
def update (old new : UpgradePlan) : Except Refusal Unit := do
  if isRelease old new then return ()
  if let some c := lock? new then throw (.upgradeUnderWay c.type c.reason)
  let requested ← releaseVersion new.spec.releaseVersion
  match reached? old with
  | none => return ()
  | some reached => advances new requested reached

end Admission

end ReleaseUpgrade
