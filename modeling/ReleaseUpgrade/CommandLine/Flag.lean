import ReleaseUpgrade.Text.Digits
import ReleaseUpgrade.Text.Substring

/-!
# Flags

`Flag` lists what can be set when the operator starts: with an option on the command line, or else
with a variable of the environment.
-/

namespace ReleaseUpgrade

/-- what can be set when the operator starts -/
inductive Flag where
  | logFormat
  | logLevel
  | healthPort
  | metricsPort
  | upgradeNamespace
  | chartNamespace
  | upgradeServiceAccount
  | releaseManifestImage
  | releaseManifestServiceAccount
  | osUpgradeImage
  | rke2UpgradeImage
  | k3sUpgradeImage
  | nodePollSeconds
  deriving DecidableEq, Repr

namespace Flag

def all : List Flag :=
  [.logFormat, .logLevel, .healthPort, .metricsPort, .upgradeNamespace, .chartNamespace,
   .upgradeServiceAccount, .releaseManifestImage, .releaseManifestServiceAccount, .osUpgradeImage,
   .rke2UpgradeImage, .k3sUpgradeImage, .nodePollSeconds]

/-- the option on the command line, without its hyphens -/
def option : Flag → String
  | .logFormat => "log-format"
  | .logLevel => "log-level"
  | .healthPort => "health-port"
  | .metricsPort => "metrics-port"
  | .upgradeNamespace => "upgrade-namespace"
  | .chartNamespace => "chart-namespace"
  | .upgradeServiceAccount => "upgrade-service-account"
  | .releaseManifestImage => "release-manifest-image"
  | .releaseManifestServiceAccount => "release-manifest-service-account"
  | .osUpgradeImage => "os-upgrade-image"
  | .rke2UpgradeImage => "rke2-upgrade-image"
  | .k3sUpgradeImage => "k3s-upgrade-image"
  | .nodePollSeconds => "node-poll-interval-secs"

/-- the variable of the environment -/
def environmentVariable (f : Flag) : String :=
  String.ofList (f.option.toList.map fun c => if c = '-' then '_' else c.toUpper)

def ofOption? (name : String) : Option Flag := all.find? fun f => f.option = name

/-- the number that digits stand for; a plus sign may come first -/
def natural? (cs : List Char) : Option Nat :=
  Text.number? 10 (if cs.head? = some '+' then cs.tail else cs)

/-- a number up to `limit` -/
def bounded? (limit : Nat) (cs : List Char) : Option Nat := (natural? cs).filter fun n => n ≤ limit

/-- a number of 16 bits; zero may be written with a minus sign -/
def word? (value : String) : Option Nat :=
  match value.toList with
  | '-' :: cs => if cs.head? = some '+' then none else bounded? 0 cs
  | cs => bounded? 65535 cs

/-- a number of seconds -/
def seconds? (value : String) : Option Nat := bounded? (Nat.pow 2 64 - 1) value.toList

/-- the value is one that the flag can have -/
def accepts (f : Flag) (value : String) : Bool :=
  match f with
  | .healthPort | .metricsPort => (word? value).isSome
  | .nodePollSeconds => (seconds? value).isSome
  | _ => true

end Flag

end ReleaseUpgrade
