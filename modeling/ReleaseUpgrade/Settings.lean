/-!
# Settings

`Settings` is what stays fixed while the operator runs: the keys that it writes on objects, the
namespaces and images that it works with, and how often it looks at nodes that are being upgraded.
-/

namespace ReleaseUpgrade

/-- the keys of labels, annotations and finalizers -/
structure Keys where
  finalizer : String := "lifecycle.ruo.io/finalizer"
  planName : String := "lifecycle.ruo.io/upgrade-plan-name"
  planNamespace : String := "lifecycle.ruo.io/upgrade-plan-namespace"
  release : String := "lifecycle.ruo.io/release"
  controlPlane : String := "node-role.kubernetes.io/control-plane"
  helmChartJob : String := "helmcharts.helm.cattle.io/chart"
  deriving DecidableEq, Repr

structure Settings where
  keys : Keys := {}
  upgradeNamespace : String := "cattle-system"
  chartNamespace : String := "kube-system"
  upgradeServiceAccount : String := "system-upgrade-controller"
  releaseManifestImage : String := "registry.suse.com/edge/release-manifest"
  releaseManifestServiceAccount : String := "ruo"
  osUpgradeImage : String := "registry.suse.com/bci/bci-base:15.5"
  rke2UpgradeImage : String := "rancher/rke2-upgrade"
  k3sUpgradeImage : String := "rancher/k3s-upgrade"
  /-- the delay between two looks at nodes that are being upgraded, in milliseconds -/
  nodePollInterval : Nat := 60000
  deriving DecidableEq, Repr

end ReleaseUpgrade
