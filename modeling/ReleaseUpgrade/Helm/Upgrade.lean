import ReleaseUpgrade.Helm.Chart
import ReleaseUpgrade.Helm.Release
import ReleaseUpgrade.Release.Chart
import ReleaseUpgrade.Settings

/-!
# Chart resources for a release

* `HelmChart.takeOver`   a new chart resource for a release that is installed without one;
* `HelmChart.toRelease`  an existing one that is set to the chart of a new release.
-/

namespace ReleaseUpgrade.HelmChart

/-- how often a failing upgrade is tried -/
def backOffLimit : Int := 6

/-- the marks on a chart resource: the plan and the release that it was last set for -/
def marks (settings : Settings) (identity : Dict String) (releaseVersion : String) : Dict String :=
  Dict.insert settings.keys.release releaseVersion identity

/-- a chart resource that takes over an installed release -/
def takeOver (settings : Settings) (installed : HelmRelease) (chart : ReleaseChart)
    (values : String) (identity : Dict String) (releaseVersion : String) : HelmChart where
  metadata := {
    name := some installed.name
    ns := some settings.chartNamespace
    annotations := some (marks settings identity releaseVersion) }
  spec := {
    targetNamespace := installed.ns
    chart := chart.name
    version := chart.version
    repo := chart.repository
    valuesContent := values
    backOffLimit := some backOffLimit }

/-- a chart resource that is set to the chart of a release; what others manage stays -/
def toRelease (c : HelmChart) (settings : Settings) (chart : ReleaseChart) (values : String)
    (identity : Dict String) (releaseVersion : String) : HelmChart :=
  { c with
    metadata := { c.metadata with
      annotations := some (Dict.union (c.metadata.annotations.getD [])
        (marks settings identity releaseVersion)) }
    spec := { c.spec with
      chartContent := ""
      chart := chart.name
      version := chart.version
      repo := chart.repository
      valuesContent := values
      backOffLimit := some backOffLimit } }

end ReleaseUpgrade.HelmChart
