import ReleaseUpgrade.Cluster.Program
import ReleaseUpgrade.Naming

/-!
# Steps of an upgrade

A phase advances an upgrade by one step.  A `Step` is a program with a status that it changes; the
status stays what it has become even if the step ends with an error.

* `Context`      the plan that is worked on, the settings and the time;
* `Step`         a program that changes the status;
* `Requeue`      when the plan is to be looked at again.
-/

namespace ReleaseUpgrade

/-- when to run again: after some milliseconds, or (`none`) when something changes -/
abbrev Requeue := Option Nat

/-- run again at once -/
def Requeue.immediately : Requeue := some 0

/-- what a step needs to know -/
structure Context where
  settings : Settings
  plan : UpgradePlan
  /-- the time of conditions that change -/
  now : Instant

/-- a program that changes the status of an upgrade and can fail -/
abbrev Step := ExceptT UpgradeError (StateT Status Program)

namespace Step
variable {α : Type}

/-- an action that leaves the status as it is -/
def lift (a : Action α) : Step α := ExceptT.mk fun status => do return (← a.run, status)

instance : MonadLift Action Step := ⟨lift⟩

/-- a value or an error -/
def ofExcept (e : Except UpgradeError α) : Step α := ExceptT.mk (pure e)

/-- the status so far -/
def status : Step Status := get

/-- the outcome of a step that starts with a status, and the status after it -/
def outcome (s : Step α) (status : Status) : Program (Except UpgradeError α × Status) :=
  s.run.run status

end Step

namespace Context

/-- the marks on objects that are created for the plan -/
def identity (ctx : Context) : Dict String := Naming.identity ctx.settings.keys ctx.plan

/-- a condition is set -/
def setCondition (ctx : Context) (type : String) (reason : Reason) (message : String) : Step Unit :=
  modify (Status.setCondition ctx.now type reason message)

def setInProgress (ctx : Context) (type message : String) : Step Unit :=
  ctx.setCondition type .inProgress message

def setSucceeded (ctx : Context) (type message : String) : Step Unit :=
  ctx.setCondition type .succeeded message

def setFailed (ctx : Context) (type message : String) : Step Unit :=
  ctx.setCondition type .failed message

/-- an event about the plan -/
def publish (ctx : Context) (kind : EventKind) (reason message : String) : Action Unit :=
  Action.publish ctx.plan ⟨kind, reason, message⟩

/-- an object is created, and an event tells of it -/
def create (ctx : Context) (k : Kind) (object : k.Object) : Action Unit := do
  Action.create k object
  let m := k.metadata object
  ctx.publish .normal (k.text ++ "Created")
    (k.text ++ " created: " ++ m.nsOr ++ "/" ++ m.name.getD "")

/-- the suffix of the names of this attempt -/
def namingSuffix (status : Status) : Except UpgradeError String :=
  match status.namingSuffix with
  | some s => .ok s
  | none => .error (.missingField "status.namingSuffix")

end Context

end ReleaseUpgrade
