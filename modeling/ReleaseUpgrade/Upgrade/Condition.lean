import ReleaseUpgrade.Json.Record
import ReleaseUpgrade.Time.Reader

/-!
# Conditions

A `Condition` says how far one component of an upgrade has come: a reason, the status that goes with
the reason, a message and the time when the status last changed.
-/

namespace ReleaseUpgrade

/-- whether a condition holds -/
inductive ConditionStatus where
  | isTrue
  | isFalse
  | unknown
  deriving DecidableEq, Repr

/-- why a condition has its status -/
inductive Reason where
  | pending
  | inProgress
  | succeeded
  | failed
  | skipped
  | error
  deriving DecidableEq, Repr

namespace ConditionStatus

def text : ConditionStatus → String
  | .isTrue => "True"
  | .isFalse => "False"
  | .unknown => "Unknown"

def all : List ConditionStatus := [.isTrue, .isFalse, .unknown]

def ofJson? : Json → Option ConditionStatus := Json.choice? (all.map fun s => (s.text, s))

end ConditionStatus

namespace Reason

def text : Reason → String
  | .pending => "Pending"
  | .inProgress => "InProgress"
  | .succeeded => "Succeeded"
  | .failed => "Failed"
  | .skipped => "Skipped"
  | .error => "Error"

/-- the status that always goes with the reason -/
def status : Reason → ConditionStatus
  | .pending | .error => .unknown
  | .inProgress | .failed | .skipped => .isFalse
  | .succeeded => .isTrue

def all : List Reason := [.pending, .inProgress, .succeeded, .failed, .skipped, .error]

def ofJson? : Json → Option Reason := Json.choice? (all.map fun r => (r.text, r))

end Reason

/-- how far one component has come -/
structure Condition where
  type : String
  status : ConditionStatus
  reason : Reason
  message : String
  lastTransition : Instant
  deriving DecidableEq, Repr

namespace Condition

/-- the fields of a condition in their order -/
def fieldNames : List String := ["type", "status", "reason", "message", "lastTransitionTime"]

def ofJson? (j : Json) : Option Condition := do
  let r ← Record.open? fieldNames j
  some {
    type := ← r.required "type" Json.str?
    status := ← r.required "status" ConditionStatus.ofJson?
    reason := ← r.required "reason" Reason.ofJson?
    message := ← r.defaulted "message" "" Json.str?
    lastTransition := ← r.required "lastTransitionTime" fun j => j.str?.bind Instant.ofCondition? }

def toJson (c : Condition) : Json :=
  .obj [("type", .str c.type), ("status", .str c.status.text), ("reason", .str c.reason.text),
    ("message", .str c.message), ("lastTransitionTime", .str c.lastTransition.text)]

/-- the condition will not change any more: it is true, or its component was skipped or failed -/
def isFinished (c : Condition) : Bool :=
  c.status = .isTrue ||
    (c.status = .isFalse && (c.reason = .skipped || c.reason = .failed))

end Condition

end ReleaseUpgrade
