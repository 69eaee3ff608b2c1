import ReleaseUpgrade.Definition.Manifest
import ReleaseUpgrade.Definition.Plan
import ReleaseUpgrade.Yaml.Writer

/-!
# Resource definitions

`ResourceDefinition` is what a cluster has to know of a kind of resource before objects of the kind
can be created.

* `ResourceDefinition.toJson`   the definition as an object of the cluster;
* `ResourceDefinition.toYaml`   the same as YAML.
-/

namespace ReleaseUpgrade

/-- a column in lists of resources -/
structure PrinterColumn where
  name : String
  type : String
  /-- where the value of the column stands in the resource -/
  path : String

/-- a kind of resource -/
structure ResourceDefinition where
  kind : String
  shortName : String
  columns : List PrinterColumn
  spec : Json
  status : Option Json := none

namespace PrinterColumn

def toJson (c : PrinterColumn) : Json :=
  .obj [("name", .str c.name), ("type", .str c.type), ("jsonPath", .str c.path)]

/-- the age of the resource -/
def age : PrinterColumn := ⟨"AGE", "date", ".metadata.creationTimestamp"⟩

/-- the reason of a condition -/
def reason (name condition : String) : PrinterColumn :=
  ⟨name, "string", ".status.conditions[?(@.type==\"" ++ condition ++ "\")].reason"⟩

end PrinterColumn

namespace ResourceDefinition

def upgradePlan : ResourceDefinition where
  kind := "UpgradePlan"
  shortName := "up"
  columns :=
    [⟨"RELEASE", "string", ".spec.releaseVersion"⟩, .reason "OS" Status.osUpgraded,
     .reason "KUBERNETES" Status.kubernetesUpgraded,
     ⟨"LAST", "string", ".status.lastSuccessfulReleaseVersion"⟩, .age]
  spec := UpgradePlan.specSchema
  status := some UpgradePlan.statusSchema

def releaseManifest : ResourceDefinition where
  kind := "ReleaseManifest"
  shortName := "rm"
  columns := [⟨"VERSION", "string", ".spec.releaseVersion"⟩, .age]
  spec := ReleaseManifest.specSchema

/-- the definitions of all resources -/
def all : List ResourceDefinition := [upgradePlan, releaseManifest]

/-- the kind in lower case -/
def singular (d : ResourceDefinition) : String := d.kind.map Char.toLower

def plural (d : ResourceDefinition) : String := d.singular ++ "s"

/-- the group and the version of the resources -/
def group : String := "lifecycle.ruo.io"

def version : String := "v1alpha1"

/-- the schema of a resource -/
def schema (d : ResourceDefinition) : Json :=
  Schema.described ("Auto-generated derived type for " ++ d.kind ++ "Spec via `CustomResource`") <|
    Schema.withKeys [("title", .str d.kind)] <|
      Schema.record ["spec"]
        (("spec", d.spec) :: (d.status.map fun s => ("status", s)).toList)

/-- the names of the resource -/
def names (d : ResourceDefinition) : Json :=
  .obj [("kind", .str d.kind), ("singular", .str d.singular), ("plural", .str d.plural),
    ("shortNames", .ofStrings [d.shortName]), ("categories", .arr [])]

/-- the definition of the only version -/
def versionEntry (d : ResourceDefinition) : Json :=
  .obj [("name", .str version), ("served", .bool true), ("storage", .bool true),
    ("additionalPrinterColumns", .arr (d.columns.map PrinterColumn.toJson)),
    ("schema", .obj [("openAPIV3Schema", d.schema)]),
    ("subresources", .obj (if d.status.isSome then [("status", .obj [])] else []))]

/-- the definition as an object of the cluster -/
def toJson (d : ResourceDefinition) : Json :=
  Json.sorted <| .obj [
    ("apiVersion", .str "apiextensions.k8s.io/v1"),
    ("kind", .str "CustomResourceDefinition"),
    ("metadata", .obj [("name", .str (d.plural ++ "." ++ group))]),
    ("spec", .obj [("group", .str group), ("names", d.names), ("scope", .str "Namespaced"),
      ("versions", .arr [d.versionEntry])])]

def toYaml (d : ResourceDefinition) : String := Yaml.render d.toJson

end ResourceDefinition

end ReleaseUpgrade
