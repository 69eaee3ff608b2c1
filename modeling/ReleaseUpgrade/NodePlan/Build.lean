import ReleaseUpgrade.NodePlan.Basic
import ReleaseUpgrade.Drain

/-!
# Building node plans

A node plan is put together step by step, and from the steps come the plans of the two phases that
upgrade nodes.

* `NodePlan.start`            a plan with its marks, in the namespace of the upgrade controller;
* `NodePlan.forRole`          which nodes, how many at a time, which taints are accepted;
* `NodePlan.ofKubernetes`     the plan that upgrades the distribution on the nodes of a role;
* `NodePlan.ofSystem`         the plan that upgrades their operating system.
-/

namespace ReleaseUpgrade.NodePlan

/-- metadata of an object that is created for a plan -/
def markedMetadata (name ns : String) (identity : Dict String) : Metadata :=
  { name := some name, ns := some ns, labels := some identity, annotations := some identity }

/-- a plan without nodes and without steps -/
def start (settings : Settings) (name : String) (identity : Dict String) : NodePlan where
  metadata := markedMetadata name settings.upgradeNamespace identity
  spec := { serviceAccount := settings.upgradeServiceAccount, cordon := true }

/-- the nodes of a role: those whose label has the value `true`, or those where it has not -/
def roleSelector (role : NodeRole) (label : String) : LabelSelector where
  expressions := some [{
    key := label
    operator := match role with
      | .controlPlane => "In"
      | .worker => "NotIn"
    values := some ["true"] }]

/-- accepts a taint with this key, value and effect -/
def accept (key value effect : String) : Toleration where
  key := some key
  operator := some "Equal"
  value := some value
  effect := some effect

/-- what must be accepted to run on a control-plane node -/
def controlPlaneTolerations (label : String) : List Toleration :=
  [accept "CriticalAddonsOnly" "true" "NoExecute", accept label "" "NoSchedule",
    accept "node-role.kubernetes.io/etcd" "" "NoExecute"]

/-- the plan for the nodes of a role; the control plane goes one node at a time -/
def forRole (p : NodePlan) (role : NodeRole) (label : String) : NodePlan :=
  let selector := some (roleSelector role label)
  match role with
  | .controlPlane =>
    { p with spec := { p.spec with
        nodeSelector := selector, concurrency := 1
        tolerations := controlPlaneTolerations label } }
  | .worker => { p with spec := { p.spec with nodeSelector := selector, concurrency := 2 } }

/-- fifteen minutes, in nanoseconds -/
def drainTimeout : Int := 15 * 60 * 1000000000

/-- the plan with draining switched on or off -/
def withDrain (p : NodePlan) (enabled : Bool) : NodePlan :=
  { p with spec := { p.spec with
      drain := if enabled then
          some { timeout := some drainTimeout, deleteEmptydirData := some true
                 ignoreDaemonSets := some true, force := true }
        else none } }

def withVersion (p : NodePlan) (version : String) : NodePlan :=
  { p with spec := { p.spec with version := some version } }

/-- the plan with one more secret -/
def withSecret (p : NodePlan) (name path : String) : NodePlan :=
  { p with spec := { p.spec with secrets := p.spec.secrets ++ [⟨name, path⟩] } }

/-- the plan with a container that runs first -/
def withPrepare (p : NodePlan) (c : StepContainer) : NodePlan :=
  { p with spec := { p.spec with prepare := some c } }

/-- the plan with the container that upgrades the node -/
def withUpgrade (p : NodePlan) (c : StepContainer) : NodePlan :=
  { p with spec := { p.spec with upgrade := some c } }

/-- the image that upgrades a distribution -/
def distributionImage (settings : Settings) : Distribution → String
  | .k3s => settings.k3sUpgradeImage
  | .rke2 => settings.rke2UpgradeImage

/-- the plan that upgrades the distribution on the nodes of a role; workers first wait until the
plan of the control plane is done -/
def ofKubernetes (settings : Settings) (role : NodeRole) (distribution : Distribution)
    (version suffix : String) (drain : Bool) (identity : Dict String) : NodePlan :=
  let image := distributionImage settings distribution
  let plan := ((((start settings (Naming.kubernetesPlan role version suffix) identity).forRole role
    settings.keys.controlPlane).withDrain drain).withVersion version).withUpgrade { image }
  match role with
  | .controlPlane => plan
  | .worker => plan.withPrepare
      { image, args := ["prepare", Naming.kubernetesPlan .controlPlane version suffix] }

/-- the name of the upgrade script -/
def scriptName : String := "os-upgrade.sh"

/-- the plan that runs the upgrade script on the nodes of a role -/
def ofSystem (settings : Settings) (role : NodeRole) (releaseVersion : String)
    (os : OperatingSystem) (suffix : String) (drain : Bool) (identity : Dict String) : NodePlan :=
  let secret := Naming.osSecret suffix
  let path := "/run/system-upgrade/secrets/" ++ secret
  (((((start settings (Naming.osPlan role os.zypperId os.version suffix) identity).forRole role
    settings.keys.controlPlane).withDrain drain).withVersion releaseVersion).withSecret secret
      ("/host" ++ path)).withUpgrade
        { image := settings.osUpgradeImage, command := ["chroot", "/host"]
          args := ["sh", path ++ "/" ++ scriptName] }

end ReleaseUpgrade.NodePlan
