import ReleaseUpgrade.Object.Pod

/-!
# Jobs

`Job` runs pods until they are done.

* `Job.outcome?`   how the job ended, nothing while it runs.
-/

namespace ReleaseUpgrade
open Shape (opt req texts numbers flags names)

/-- one statement about the progress of a job -/
structure JobCondition where
  type : String := ""
  status : String := ""
  message : Option String := none
  rest : List (String × Json) := []

/-- how a job ended -/
inductive JobOutcome where
  | complete
  | failed
  deriving DecidableEq, Repr

structure JobSpec where
  template : PodTemplate := {}
  rest : List (String × Json) := []

structure JobStatus where
  conditions : Option (List JobCondition) := none
  rest : List (String × Json) := []

/-- pods that run until they are done -/
structure Job where
  metadata : Metadata := {}
  spec : Option JobSpec := none
  status : Option JobStatus := none

namespace JobCondition

def ofJson? (j : Json) : Option JobCondition := do
  let fs ← Shape.open? j
  some {
    type := ← Shape.memberOr fs "type" "" Json.str?
    status := ← Shape.memberOr fs "status" "" Json.str?
    message := ← Shape.member? fs "message" Json.str?
    rest := ← Shape.readMembers
      [opt "lastProbeTime" .time, opt "lastTransitionTime" .time, opt "reason" .text] fs }

def toJson (c : JobCondition) : Json :=
  .obj ([("type", .str c.type), ("status", .str c.status)] ++
    (c.message.map fun m => ("message", Json.str m)).toList ++ c.rest)

/-- the end that a statement tells of -/
def outcome? (c : JobCondition) : Option JobOutcome :=
  if c.status = "True" then
    if c.type = "Complete" then some .complete
    else if c.type = "Failed" then some .failed
    else none
  else none

end JobCondition

namespace JobSpec

def passed : List (String × Bool × Shape) :=
  texts ["completionMode", "managedBy", "podReplacementPolicy"] ++
  numbers ["backoffLimit", "backoffLimitPerIndex", "completions", "maxFailedIndexes", "parallelism",
    "ttlSecondsAfterFinished"] ++
  flags ["manualSelector", "suspend"] ++
  [opt "activeDeadlineSeconds" .int64,
   opt "podFailurePolicy" (.object [req "rules" (.list (.object
     [req "action" .text,
      opt "onExitCodes" (.object
        [opt "containerName" .text, req "operator" .text, req "values" (.list .int32)]),
      opt "onPodConditions" (.list (.object (names ["status", "type"])))]))]),
   opt "selector" Shape.selector,
   opt "successPolicy" (.object [req "rules" (.list (.object
     [opt "succeededCount" .int32, opt "succeededIndexes" .text]))])]

def ofJson? (j : Json) : Option JobSpec := do
  let fs ← Shape.open? j
  some {
    template := ← Shape.memberOr fs "template" {} PodTemplate.ofJson?
    rest := ← Shape.readMembers passed fs }

def toJson (s : JobSpec) : Json := .obj (("template", s.template.toJson) :: s.rest)

end JobSpec

namespace JobStatus

def passed : List (String × Bool × Shape) :=
  numbers ["active", "failed", "ready", "succeeded", "terminating"] ++
  texts ["completedIndexes", "failedIndexes"] ++
  [opt "completionTime" .time, opt "startTime" .time,
   opt "uncountedTerminatedPods" (.object
     [opt "failed" (.list .text), opt "succeeded" (.list .text)])]

def ofJson? (j : Json) : Option JobStatus := do
  let fs ← Shape.open? j
  some {
    conditions := ← Shape.member? fs "conditions" (Json.list? JobCondition.ofJson?)
    rest := ← Shape.readMembers passed fs }

def toJson (s : JobStatus) : Json :=
  .obj ((s.conditions.map fun cs => ("conditions", Json.arr (cs.map JobCondition.toJson))).toList ++
    s.rest)

end JobStatus

namespace Job

def ofJson? (j : Json) : Option Job := do
  let fs ← Object.open? "batch/v1" "Job" j
  some {
    metadata := ← Object.metadata? fs
    spec := ← Shape.member? fs "spec" JobSpec.ofJson?
    status := ← Shape.member? fs "status" JobStatus.ofJson? }

def toJson (job : Job) : Json :=
  Object.toJson "batch/v1" "Job" job.metadata
    [("spec", job.spec.map JobSpec.toJson), ("status", job.status.map JobStatus.toJson)]

/-- the statements about the job, none if it has no status -/
def conditions (job : Job) : List JobCondition :=
  (job.status.bind (·.conditions)).getD []

/-- the end that the first statement of an end tells of -/
def outcome? (job : Job) : Option JobOutcome := job.conditions.findSome? JobCondition.outcome?

/-- the job has ended -/
def isFinished (job : Job) : Bool := job.outcome?.isSome

end Job

end ReleaseUpgrade
