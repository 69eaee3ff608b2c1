import ReleaseUpgrade.CommandLine.Arguments
import ReleaseUpgrade.Settings
import ReleaseUpgrade.Text.Lowercase

/-!
# The configuration of the operator

`Configuration.ofArguments` is the configuration that the command line and the environment ask for;
`Configuration.problem?` says what is wrong with one that can be read.
-/

namespace ReleaseUpgrade

/-- how the operator is to run -/
structure Configuration where
  /-- only the resource definitions are asked for -/
  definitions : Bool := false
  logFormat : String := "json"
  logLevel : String := "info"
  healthPort : Nat := 8080
  metricsPort : Nat := 8081
  settings : Settings := {}
  deriving DecidableEq, Repr

namespace Configuration

/-- the configuration with the value of a flag -/
def apply (c : Configuration) (f : Flag) (value : String) : Configuration :=
  match f with
  | .logFormat => { c with logFormat := value }
  | .logLevel => { c with logLevel := value }
  | .healthPort => { c with healthPort := (Flag.word? value).getD c.healthPort }
  | .metricsPort => { c with metricsPort := (Flag.word? value).getD c.metricsPort }
  | .upgradeNamespace => { c with settings.upgradeNamespace := value }
  | .chartNamespace => { c with settings.chartNamespace := value }
  | .upgradeServiceAccount => { c with settings.upgradeServiceAccount := value }
  | .releaseManifestImage => { c with settings.releaseManifestImage := value }
  | .releaseManifestServiceAccount => { c with settings.releaseManifestServiceAccount := value }
  | .osUpgradeImage => { c with settings.osUpgradeImage := value }
  | .rke2UpgradeImage => { c with settings.rke2UpgradeImage := value }
  | .k3sUpgradeImage => { c with settings.k3sUpgradeImage := value }
  | .nodePollSeconds =>
    { c with settings.nodePollInterval :=
        ((Flag.seconds? value).map (1000 * ·)).getD c.settings.nodePollInterval }

/-- the configuration that arguments and environment ask for -/
def ofArguments (arguments : List String) (environment : List (String × String)) :
    Except UsageError Configuration := do
  let a ← (← Arguments.ofList arguments).withEnvironment environment
  return a.values.foldl (fun c v => c.apply v.1 v.2) { definitions := a.definitions }

/-- the seconds between two looks at nodes -/
def nodePollSeconds (c : Configuration) : Nat := c.settings.nodePollInterval / 1000

/-- the forms in which the operator can write its log -/
def logFormats : List String := ["json", "pretty"]

/-- what is wrong with the configuration -/
def problem? (c : Configuration) : Option String :=
  if c.settings.nodePollInterval = 0 then
    some (Flag.nodePollSeconds.environmentVariable ++ " must be greater than 0")
  else if Text.lowercase c.logFormat ∉ logFormats then
    some (Flag.logFormat.environmentVariable ++ " must be 'json' or 'pretty', got '" ++
      c.logFormat ++ "'")
  else none

end Configuration

end ReleaseUpgrade
