import ReleaseUpgrade.Settings
import ReleaseUpgrade.Text.Digits
import ReleaseUpgrade.Text.Lowercase
import ReleaseUpgrade.Text.Substring
import ReleaseUpgrade.Upgrade.Plan

/-!
# Names and identity

The names of the objects that are created for an upgrade, and the marks that tie them to the plan
they were created for.

* `Naming.osPlan`, `Naming.osSecret`, `Naming.kubernetesPlan`   carry the suffix of the attempt;
* `Naming.installJob`   one for each release version;
* `Naming.identity`     the marks of a plan, used as labels and as annotations;
* `Naming.owner?`       the plan that an object is marked with.
-/

namespace ReleaseUpgrade

/-- the role of a node -/
inductive NodeRole where
  | controlPlane
  | worker
  deriving DecidableEq, Repr

namespace NodeRole

def text : NodeRole → String
  | .controlPlane => "control-plane"
  | .worker => "workers"

end NodeRole

namespace Naming

/-- the suffix of an attempt, from random bytes -/
def suffix (bytes : List UInt8) : String :=
  String.ofList (bytes.flatMap fun b => Text.hex 2 b.toNat)

/-- how many random bytes a suffix has -/
def suffixBytes : Nat := 5

def osPlan (role : NodeRole) (zypperId version suffix : String) : String :=
  role.text ++ "-" ++ Text.lowercase zypperId ++ "-" ++ Text.replaceChar '.' '-' version ++ "-" ++
    suffix

def osSecret (suffix : String) : String := "os-upgrade-secret-" ++ suffix

def kubernetesPlan (role : NodeRole) (version suffix : String) : String :=
  role.text ++ "-" ++ Text.replaceChar '+' '-' version ++ "-" ++ suffix

/-- a version without the letter that it may start with -/
def withoutV (version : String) : String := (Text.stripFront? "v" version).getD version

/-- the job that publishes the manifest of a release -/
def installJob (releaseVersion : String) : String :=
  "apply-release-manifest-" ++ Text.replaceChar '.' '-' (withoutV releaseVersion)

/-- the marks of a plan on the objects that are created for it -/
def identity (keys : Keys) (plan : UpgradePlan) : Dict String :=
  Dict.ofList [(keys.planName, plan.metadata.nameAny), (keys.planNamespace, plan.metadata.nsOr)]

/-- name and namespace of the plan that an object is marked with -/
def owner? (keys : Keys) (m : Metadata) : Option (String × String) := do
  let marks ← m.annotations
  let name ← Dict.get? keys.planName marks
  let ns ← Dict.get? keys.planNamespace marks
  some (name, ns)

/-- the object is marked with this plan -/
def isOwnedBy (keys : Keys) (m : Metadata) (plan : UpgradePlan) : Bool :=
  (owner? keys m).any fun o => o.1 = plan.metadata.nameAny && some o.2 = plan.metadata.ns

end Naming

end ReleaseUpgrade
