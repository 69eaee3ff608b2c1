import ReleaseUpgrade.Upgrade.Condition
import ReleaseUpgrade.Text.Blank

/-!
# The status of an upgrade

`Status` is what an upgrade plan records about its upgrade: one condition for each component in the
order in which they were first set, the generation of the plan that it is about, the suffix of the
names of this attempt and the last release that was reached.

* `Status.condition?`      the condition of a component;
* `Status.setCondition`    set the condition of a component, in its place;
* `Status.activePhase`     the phase that the conditions stand for.
-/

namespace ReleaseUpgrade

/-- the observed state of an upgrade -/
structure Status where
  conditions : List Condition := []
  observedGeneration : Int := 0
  namingSuffix : Option String := none
  lastSuccessfulRelease : Option String := none
  deriving DecidableEq, Repr

/-- the phases of an upgrade -/
inductive Phase where
  | starting
  | operatingSystem
  | kubernetes
  | workloads
  | completed
  deriving DecidableEq, Repr

namespace Phase

def text : Phase → String
  | .starting => "Initialize"
  | .operatingSystem => "OperatingSystem"
  | .kubernetes => "Kubernetes"
  | .workloads => "Workloads"
  | .completed => "Completed"

end Phase

namespace Status

/-- the component that is the operating system of all nodes -/
def osUpgraded : String := "OSUpgraded"

/-- the component that is the Kubernetes distribution of all nodes -/
def kubernetesUpgraded : String := "KubernetesUpgraded"

/-- the component that is a workload, by its display name -/
def workloadUpgraded (prettyName : String) : String := Text.compact prettyName ++ "Upgraded"

def fieldNames : List String :=
  ["conditions", "observedGeneration", "namingSuffix", "lastSuccessfulReleaseVersion"]

def ofJson? (j : Json) : Option Status := do
  let r ← Record.open? fieldNames j
  some {
    conditions := ← r.defaulted "conditions" [] (Json.list? Condition.ofJson?)
    observedGeneration := ← r.defaulted "observedGeneration" 0 Json.int64?
    namingSuffix := ← r.optional "namingSuffix" Json.str?
    lastSuccessfulRelease := ← r.optional "lastSuccessfulReleaseVersion" Json.str? }

def toJson (s : Status) : Json :=
  .ofFields [
    ("conditions",
      if s.conditions.isEmpty then none else some (.arr (s.conditions.map Condition.toJson))),
    ("observedGeneration", some (.int s.observedGeneration)),
    ("namingSuffix", s.namingSuffix.map Json.str),
    ("lastSuccessfulReleaseVersion", s.lastSuccessfulRelease.map Json.str)]

/-- the condition of a component -/
def condition? (s : Status) (type : String) : Option Condition :=
  s.conditions.find? fun c => c.type = type

/-- the reason of the condition of a component -/
def reason? (s : Status) (type : String) : Option Reason := (s.condition? type).map (·.reason)

/-- the condition of a component is true -/
def isSucceeded (s : Status) (type : String) : Bool :=
  (s.condition? type).any fun c => c.status = .isTrue

/-- the condition of a component is there and will not change any more -/
def isFinished (s : Status) (type : String) : Bool := (s.condition? type).any Condition.isFinished

/-- the conditions with that of a component set, in its place or at the end; its time moves only if
its status changes -/
def setIn (now : Instant) (type : String) (reason : Reason) (message : String) :
    List Condition → List Condition
  | [] => [⟨type, reason.status, reason, message, now⟩]
  | c :: rest =>
    if c.type = type then
      ⟨c.type, reason.status, reason, message,
        if c.status = reason.status then c.lastTransition else now⟩ :: rest
    else c :: setIn now type reason message rest

/-- the status with the condition of a component set -/
def setCondition (now : Instant) (type : String) (reason : Reason) (message : String) (s : Status) :
    Status :=
  { s with conditions := setIn now type reason message s.conditions }

def setInProgress (now : Instant) (type message : String) (s : Status) : Status :=
  s.setCondition now type .inProgress message

def setSucceeded (now : Instant) (type message : String) (s : Status) : Status :=
  s.setCondition now type .succeeded message

def setFailed (now : Instant) (type message : String) (s : Status) : Status :=
  s.setCondition now type .failed message

/-- the phase that the conditions stand for -/
def activePhase (s : Status) : Phase :=
  if s.conditions.isEmpty then .starting
  else if !s.isSucceeded osUpgraded then .operatingSystem
  else if !s.isSucceeded kubernetesUpgraded then .kubernetes
  else if s.conditions.any fun c => !s.isFinished c.type then .workloads
  else .completed

/-- the conditions that failed in `s` and had not failed in `before` -/
def newlyFailed (before s : Status) : Nat :=
  s.conditions.countP fun c => c.reason = .failed && before.reason? c.type != some .failed

end Status

end ReleaseUpgrade
