import ReleaseUpgrade.Definition.Schema
import ReleaseUpgrade.Release.Manifest

/-!
# The schema of release manifests
-/

namespace ReleaseUpgrade.ReleaseManifest

/-- the schema of the version and the components of a distribution -/
def distributionSchema : Json :=
  Schema.record ["version"] [
    ("version", Schema.text),
    ("coreComponents",
      Schema.described
        "Components shipped with the distribution that must converge after the nodes." <|
        Schema.list Schema.anyObject)]

/-- the schema of an operating system -/
def operatingSystemSchema : Json :=
  Schema.record
    ["cpeScheme", "prettyName", "repoGPGPath", "supportedArchs", "version", "zypperID"] [
    ("version", Schema.text),
    ("zypperID", Schema.text),
    ("cpeScheme", Schema.text),
    ("repoGPGPath", Schema.text),
    ("supportedArchs",
      Schema.list <|
        Schema.described "CPU architecture supported by an operating system release." <|
          Schema.choice (Arch.all.map Arch.long)),
    ("prettyName", Schema.text)]

/-- the schema of a chart of a release -/
def chartSchema : Json :=
  Schema.described "A chart shipped with the release, with its dependency and add-on charts." <|
    Schema.record ["chart", "prettyName", "releaseName", "version"] [
      ("releaseName", Schema.text),
      ("chart", Schema.text),
      ("repository", Schema.text),
      ("version", Schema.text),
      ("prettyName", Schema.text),
      ("values", Schema.anyObject),
      ("dependencyCharts",
        Schema.described "Charts that must be upgraded before this one." <|
          Schema.list Schema.anyObject),
      ("addonCharts",
        Schema.described "Optional charts upgraded after this one, never blocking it." <|
          Schema.list Schema.anyObject)]

/-- workloads for when a manifest has none -/
def noWorkloads : Json := .obj [("helm", .arr [])]

/-- components for when a manifest has none -/
def noComponents : Json :=
  let distribution := Json.obj [("version", .str "")]
  .obj [
    ("kubernetes", .obj [("k3s", distribution), ("rke2", distribution)]),
    ("operatingSystem", .obj [
      ("version", .str ""), ("zypperID", .str ""), ("cpeScheme", .str ""),
      ("repoGPGPath", .str ""), ("supportedArchs", .arr []), ("prettyName", .str "")]),
    ("workloads", noWorkloads)]

/-- the schema of the components of a release -/
def componentsSchema : Json :=
  Schema.defaulting noComponents <| Schema.record ["kubernetes", "operatingSystem"] [
    ("kubernetes",
      Schema.record ["k3s", "rke2"] [("k3s", distributionSchema), ("rke2", distributionSchema)]),
    ("operatingSystem", operatingSystemSchema),
    ("workloads",
      Schema.defaulting noWorkloads <|
        Schema.record [] [("helm", Schema.defaulting (.arr []) (Schema.list chartSchema))])]

/-- the schema of a release -/
def specSchema : Json :=
  Schema.described "`ReleaseManifest` is published once per release and never mutated." <|
    Schema.record ["releaseVersion"] [
      ("releaseVersion", Schema.text), ("components", componentsSchema)]

end ReleaseUpgrade.ReleaseManifest
