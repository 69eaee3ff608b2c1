import ReleaseUpgrade.Proofs.Helm.RoundTrip
import ReleaseUpgrade.Proofs.NodePlan.RoundTrip
import ReleaseUpgrade.Proofs.Release.RoundTrip
import ReleaseUpgrade.Proofs.Upgrade.RoundTrip

/-!
# Objects are read back

* `specs_and_statuses_read_back`  a specification or a status that has been read from any document
  is read again, unchanged, from the document it is written to;
* `Unsorted`                      documents in other forms than those that are written.
-/

namespace ReleaseUpgrade

/-- a part of an object that is read and written back unchanged loses nothing that can be read -/
theorem specs_and_statuses_read_back :
    (∀ (j : Json) (v : UpgradeSpec), UpgradeSpec.ofJson? j = some v →
      UpgradeSpec.ofJson? v.toJson = some v) ∧
    (∀ (j : Json) (v : Status), Status.ofJson? j = some v → Status.ofJson? v.toJson = some v) ∧
    (∀ (j : Json) (v : ReleaseSpec), ReleaseSpec.ofJson? j = some v →
      ReleaseSpec.ofJson? v.toJson = some v) ∧
    (∀ (j : Json) (v : NodePlanSpec), NodePlanSpec.ofJson? j = some v →
      NodePlanSpec.ofJson? v.toJson = some v) ∧
    (∀ (j : Json) (v : NodePlanStatus), NodePlanStatus.ofJson? j = some v →
      NodePlanStatus.ofJson? v.toJson = some v) ∧
    (∀ (j : Json) (v : HelmChartSpec), HelmChartSpec.ofJson? j = some v →
      HelmChartSpec.ofJson? v.toJson = some v) ∧
    (∀ (j : Json) (v : HelmChartStatus), HelmChartStatus.ofJson? j = some v →
      HelmChartStatus.ofJson? v.toJson = some v) :=
  ⟨fun _ _ => UpgradeSpec.readsBack.again, fun _ _ => Status.readsBack.again,
    fun _ _ => ReleaseSpec.readsBack.again, fun _ _ => NodePlanSpec.readsBack.again,
    fun _ _ => NodePlanStatus.readsBack.again, fun _ _ => HelmChartSpec.readsBack.again,
    fun _ _ => HelmChartStatus.readsBack.again⟩

namespace Unsorted

/-- a chart by position -/
def crdsItem : Json :=
  .arr [.str "crds", .str "crds", .str "", .str "1.0.0", .str "CRDs"]

/-- a chart with null, empty, unknown and repeated fields -/
def dbItem : Json := .obj [
  ("version", .str "2.0.0"), ("chart", .str "db"), ("releaseName", .str "db"), ("owner", .null),
  ("repository", .str ""), ("prettyName", .str "Database"), ("addonCharts", .arr []),
  ("values", .obj [("size", .int 1), ("name", .null), ("size", .int 2)]),
  ("dependencyCharts", .arr [crdsItem])]

def crds : ReleaseChart :=
  { releaseName := "crds", name := "crds", version := "1.0.0", prettyName := "CRDs" }

def db : ReleaseChart :=
  { releaseName := "db", name := "db", version := "2.0.0", prettyName := "Database",
    values := some (.obj [("name", .null), ("size", .int 2)]), dependencies := [crds] }

theorem ofJson?_crdsItem : ReleaseChart.ofJson? crdsItem = some crds := by
  rw [ReleaseChart.ofJson?_eq]
  rfl

theorem ofJson?_dbItem : ReleaseChart.ofJson? dbItem = some db := by
  have hcrds : Json.list? ReleaseChart.ofJson? (.arr [crdsItem]) = some [crds] := by
    rw [Json.list?, List.mapM_cons, ofJson?_crdsItem]
    rfl
  rw [ReleaseChart.ofJson?_eq, Option.bind_eq_bind, Option.bind_eq_some_iff]
  refine ⟨_, rfl, ?_⟩
  simp only [ReleaseChart.ofRecord?, Option.bind_eq_bind, Option.bind_eq_some_iff]
  exact ⟨_, rfl, _, rfl, _, rfl, _, rfl, _, rfl, _, rfl, _, hcrds, _, rfl, rfl⟩

/-- components by position or by type, an architecture as an object -/
def componentsItem : Json := .obj [
  ("workloads", .obj [("helm", .arr [dbItem])]),
  ("operatingSystem", .obj [
    ("prettyName", .str "Linux"), ("supportedArchs", .arr [.obj [("aarch64", .null)]]),
    ("repoGPGPath", .str "/key"), ("cpeScheme", .str "cpe"), ("zypperID", .str "id"),
    ("version", .str "6.0")]),
  ("kubernetes", .arr [.arr [.str "1.30"], .obj [("version", .str "1.31"),
    ("coreComponents", .arr [.arr [.str "HelmChart", .str "dns", .str "1"],
      .obj [("name", .str "api"), ("type", .str "Deployment")]])]])]

def releaseItem : Json :=
  .obj [("components", componentsItem), ("releaseVersion", .str "3.1.0")]

def release : ReleaseSpec where
  releaseVersion := "3.1.0"
  components := {
    kubernetes := {
      k3s := { version := "1.30" }
      rke2 := {
        version := "1.31"
        coreComponents := [.chart "dns" "1", .deployment "api" []] } }
    operatingSystem := {
      version := "6.0", zypperId := "id", cpeScheme := "cpe", repoGpgPath := "/key"
      supportedArchs := [.arm], prettyName := "Linux" }
    workloads := [db] }

theorem ofJson?_releaseItem : ReleaseSpec.ofJson? releaseItem = some release := by
  have hcharts : Json.list? ReleaseChart.ofJson? (.arr [dbItem]) = some [db] := by
    rw [Json.list?, List.mapM_cons, ofJson?_dbItem]
    rfl
  have hworkloads : Components.workloads? (.obj [("helm", .arr [dbItem])]) = some [db] := by
    rw [Components.workloads?, Option.bind_eq_bind, Option.bind_eq_some_iff]
    exact ⟨_, rfl, hcharts⟩
  have hcomponents : Components.ofJson? componentsItem = some release.components := by
    simp only [Components.ofJson?, Option.bind_eq_bind, Option.bind_eq_some_iff]
    exact ⟨_, rfl, _, rfl, _, rfl, _, hworkloads, rfl⟩
  simp only [ReleaseSpec.ofJson?, Option.bind_eq_bind, Option.bind_eq_some_iff]
  exact ⟨_, rfl, _, rfl, _, hcomponents, rfl⟩

/-- an override by position -/
def upgradeItem : Json := .obj [
  ("helm", .arr [.arr [.str "db", .obj [("size", .int 3)]], .obj [("chart", .str "web")]]),
  ("disableDrain", .obj [("worker", .bool true), ("controlPlane", .null)]),
  ("releaseVersion", .str "3.1.0")]

def upgrade : UpgradeSpec :=
  { releaseVersion := "3.1.0", disableDrain := some { worker := some true },
    helm := [⟨"db", some (.obj [("size", .int 3)])⟩, ⟨"web", none⟩] }

/-- a reason as an object, a time in another zone -/
def statusItem : Json := .obj [
  ("namingSuffix", .null),
  ("conditions", .arr [.obj [("reason", .obj [("Failed", .null)]), ("type", .str "OSUpgraded"),
    ("status", .str "False"), ("lastTransitionTime", .str "2024-05-01T02:00:00+02:00")]])]

def status : Status :=
  { conditions := [⟨"OSUpgraded", .isFalse, .failed, "", ⟨1714521600, 0⟩⟩] }

/-- a repeated label, requirements that are null -/
def nodePlanItem : Json := .obj [
  ("nodeSelector", .obj [("matchLabels", .obj [("b", .str "2"), ("a", .str "1"), ("b", .str "3")]),
    ("matchExpressions", .null)]),
  ("drain", .arr [.null, .bool true]), ("serviceAccountName", .str "")]

def nodePlan : NodePlanSpec :=
  { nodeSelector := some { labels := some [("a", "1"), ("b", "3")] },
    drain := some { deleteEmptydirData := some true } }

/-- the nodes that a plan is being applied to, between fields that others manage -/
def applyingItem : Json := .obj [
  ("latestHash", .str "a1b2"), ("applying", .arr [.str "node-2", .str "node-1"]),
  ("conditions", .arr [])]

def applying : NodePlanStatus := { applying := ["node-2", "node-1"] }

/-- a chart resource with fields that others manage -/
def resourceItem : Json := .obj [
  ("set", .obj [("b", .int 1), ("a", .bool true)]), ("chart", .str ""), ("bootstrap", .bool true),
  ("backOffLimit", .null), ("repo", .str "https://charts.example")]

def resource : HelmChartSpec :=
  { repo := "https://charts.example",
    extra := [("bootstrap", .bool true), ("set", .obj [("a", .bool true), ("b", .int 1)])] }

/-- the status of a chart resource -/
def followedItem : Json :=
  .obj [("jobs", .arr []), ("jobName", .str "helm-install-db"), ("failed", .null)]

def followed : HelmChartStatus :=
  { jobName := "helm-install-db", extra := [("failed", .null), ("jobs", .arr [])] }

end Unsorted

open Unsorted in
theorem specs_and_statuses_read_back_unsorted :
    (UpgradeSpec.ofJson? upgradeItem = some upgrade ∧
      UpgradeSpec.ofJson? upgrade.toJson = some upgrade) ∧
    (Status.ofJson? statusItem = some status ∧ Status.ofJson? status.toJson = some status) ∧
    (ReleaseSpec.ofJson? releaseItem = some release ∧
      ReleaseSpec.ofJson? release.toJson = some release) ∧
    (NodePlanSpec.ofJson? nodePlanItem = some nodePlan ∧
      NodePlanSpec.ofJson? nodePlan.toJson = some nodePlan) ∧
    (NodePlanStatus.ofJson? applyingItem = some applying ∧
      NodePlanStatus.ofJson? applying.toJson = some applying) ∧
    (HelmChartSpec.ofJson? resourceItem = some resource ∧
      HelmChartSpec.ofJson? resource.toJson = some resource) ∧
    (HelmChartStatus.ofJson? followedItem = some followed ∧
      HelmChartStatus.ofJson? followed.toJson = some followed) := by
  obtain ⟨hupgrade, hstatus, hrelease, hnodePlan, happlying, hresource, hfollowed⟩ :=
    specs_and_statuses_read_back
  have hread : Status.ofJson? statusItem = some status := by decide +kernel
  exact ⟨⟨rfl, hupgrade upgradeItem upgrade rfl⟩, ⟨hread, hstatus statusItem status hread⟩,
    ⟨ofJson?_releaseItem, hrelease releaseItem release ofJson?_releaseItem⟩,
    ⟨rfl, hnodePlan nodePlanItem nodePlan rfl⟩, ⟨rfl, happlying applyingItem applying rfl⟩,
    ⟨rfl, hresource resourceItem resource rfl⟩, ⟨rfl, hfollowed followedItem followed rfl⟩⟩

end ReleaseUpgrade
