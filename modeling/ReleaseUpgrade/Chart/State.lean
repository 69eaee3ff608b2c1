import ReleaseUpgrade.Upgrade.Condition

/-!
# The state of a chart

`ChartState` is how far the upgrade of one chart has come, found out anew in every pass.
-/

namespace ReleaseUpgrade

/-- how far the upgrade of a chart has come -/
inductive ChartState where
  | unknown
  | notInstalled
  | versionAlreadyInstalled
  | inProgress
  | succeeded
  | failed
  deriving DecidableEq, Repr

namespace ChartState

def text : ChartState → String
  | .unknown => "Unknown"
  | .notInstalled => "NotInstalled"
  | .versionAlreadyInstalled => "VersionAlreadyInstalled"
  | .inProgress => "InProgress"
  | .succeeded => "Succeeded"
  | .failed => "Failed"

def all : List ChartState :=
  [.unknown, .notInstalled, .versionAlreadyInstalled, .inProgress, .succeeded, .failed]

def ofText? (s : String) : Option ChartState := all.find? fun c => c.text = s

/-- the message of a condition about the chart -/
def message (s : ChartState) (chart : String) : String :=
  match s with
  | .unknown => "State of chart " ++ chart ++ " is unknown"
  | .notInstalled => "Chart " ++ chart ++ " is not installed"
  | .versionAlreadyInstalled =>
    "Specified version of chart " ++ chart ++ " is already installed"
  | .inProgress => "Chart " ++ chart ++ " upgrade is in progress"
  | .succeeded => "Chart " ++ chart ++ " upgrade succeeded"
  | .failed => "Chart " ++ chart ++ " upgrade failed"

/-- the reason of a condition about the chart -/
def reason : ChartState → Reason
  | .notInstalled | .versionAlreadyInstalled => .skipped
  | .inProgress => .inProgress
  | .succeeded => .succeeded
  | .failed => .failed
  | .unknown => .error

/-- the upgrade goes on at once; otherwise something has to change first -/
def goesOn : ChartState → Bool
  | .inProgress | .unknown => false
  | _ => true

/-- the chart has the version of the release -/
def isDone : ChartState → Bool
  | .succeeded | .versionAlreadyInstalled => true
  | _ => false

end ChartState

end ReleaseUpgrade
