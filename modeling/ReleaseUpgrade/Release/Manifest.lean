import ReleaseUpgrade.Release.Chart
import ReleaseUpgrade.Upgrade.Plan

/-!
# Release manifests

`ReleaseManifest` is the inventory of one release: the operating system, the versions of the
Kubernetes distributions with the components that ship with them, and the charts.
-/

namespace ReleaseUpgrade

/-- a CPU architecture that an operating system can support -/
inductive Arch where
  | x86
  | arm
  deriving DecidableEq, Repr

/-- a container that a deployment must have, with a part of its image -/
structure ContainerImage where
  name : String
  image : String
  deriving DecidableEq, Repr

/-- a component that ships with a distribution -/
inductive CoreComponent where
  /-- installed from a chart -/
  | chart (name version : String)
  /-- a deployment -/
  | deployment (name : String) (containers : List ContainerImage)
  deriving DecidableEq, Repr

/-- the target of one distribution -/
structure DistributionTarget where
  version : String := ""
  coreComponents : List CoreComponent := []

/-- the targets of all distributions -/
structure KubernetesTargets where
  k3s : DistributionTarget := {}
  rke2 : DistributionTarget := {}

/-- the operating system of a release -/
structure OperatingSystem where
  version : String := ""
  zypperId : String := ""
  cpeScheme : String := ""
  repoGpgPath : String := ""
  supportedArchs : List Arch := []
  prettyName : String := ""

/-- everything that belongs to a release -/
structure Components where
  kubernetes : KubernetesTargets := {}
  operatingSystem : OperatingSystem := {}
  workloads : List ReleaseChart := []

structure ReleaseSpec where
  releaseVersion : String := ""
  components : Components := {}

/-- the inventory of one release -/
structure ReleaseManifest where
  metadata : Metadata := {}
  spec : ReleaseSpec := {}

namespace Arch

/-- the name that the kernel uses -/
def long : Arch → String
  | .x86 => "x86_64"
  | .arm => "aarch64"

/-- the name that the cluster uses -/
def short : Arch → String
  | .x86 => "amd64"
  | .arm => "arm64"

/-- a node that reports this architecture has it -/
def isReportedAs (a : Arch) (reported : String) : Bool := reported = a.long || reported = a.short

def all : List Arch := [.x86, .arm]

def ofJson? : Json → Option Arch := Json.choice? (all.map fun a => (a.long, a))

end Arch

namespace ContainerImage

def ofJson? (j : Json) : Option ContainerImage := do
  let r ← Record.open? ["name", "image"] j
  some { name := ← r.required "name" Json.str?, image := ← r.required "image" Json.str? }

def toJson (c : ContainerImage) : Json := .obj [("name", .str c.name), ("image", .str c.image)]

end ContainerImage

namespace CoreComponent

def name : CoreComponent → String
  | .chart name _ => name
  | .deployment name _ => name

/-- the component of one type; its other fields are in the document `j` -/
def ofFields? (type : String) (j : Json) : Option CoreComponent :=
  match type with
  | "HelmChart" => do
    let r ← Record.open? ["name", "version"] j
    some (.chart (← r.required "name" Json.str?) (← r.required "version" Json.str?))
  | "Deployment" => do
    let r ← Record.open? ["name", "containers"] j
    some (.deployment (← r.required "name" Json.str?)
      (← r.defaulted "containers" [] (Json.list? ContainerImage.ofJson?)))
  | _ => none

/-- the field `type` tells which other fields there are; in an array the type comes first -/
def ofJson? (j : Json) : Option CoreComponent :=
  if j.readable then
    match j with
    | .obj fields =>
      match fields.filter fun f => f.1 = "type" with
      | [(_, .str type)] => ofFields? type (.obj (fields.filter fun f => f.1 != "type"))
      | _ => none
    | .arr (.str type :: rest) => ofFields? type (.arr rest)
    | _ => none
  else none

def toJson : CoreComponent → Json
  | .chart name version =>
    .obj [("type", .str "HelmChart"), ("name", .str name), ("version", .str version)]
  | .deployment name containers =>
    .obj [("type", .str "Deployment"), ("name", .str name),
      ("containers", .arr (containers.map ContainerImage.toJson))]

end CoreComponent

namespace DistributionTarget

def ofJson? (j : Json) : Option DistributionTarget := do
  let r ← Record.open? ["version", "coreComponents"] j
  some {
    version := ← r.required "version" Json.str?
    coreComponents := ← r.defaulted "coreComponents" [] (Json.list? CoreComponent.ofJson?) }

def toJson (t : DistributionTarget) : Json :=
  .ofFields [("version", some (.str t.version)),
    ("coreComponents", if t.coreComponents.isEmpty then none
      else some (.arr (t.coreComponents.map CoreComponent.toJson)))]

end DistributionTarget

namespace KubernetesTargets

def ofJson? (j : Json) : Option KubernetesTargets := do
  let r ← Record.open? ["k3s", "rke2"] j
  some {
    k3s := ← r.required "k3s" DistributionTarget.ofJson?
    rke2 := ← r.required "rke2" DistributionTarget.ofJson? }

def toJson (k : KubernetesTargets) : Json :=
  .obj [("k3s", k.k3s.toJson), ("rke2", k.rke2.toJson)]

end KubernetesTargets

namespace OperatingSystem

def fieldNames : List String :=
  ["version", "zypperID", "cpeScheme", "repoGPGPath", "supportedArchs", "prettyName"]

def ofJson? (j : Json) : Option OperatingSystem := do
  let r ← Record.open? fieldNames j
  some {
    version := ← r.required "version" Json.str?
    zypperId := ← r.required "zypperID" Json.str?
    cpeScheme := ← r.required "cpeScheme" Json.str?
    repoGpgPath := ← r.required "repoGPGPath" Json.str?
    supportedArchs := ← r.required "supportedArchs" (Json.list? Arch.ofJson?)
    prettyName := ← r.required "prettyName" Json.str? }

def toJson (os : OperatingSystem) : Json :=
  .obj [("version", .str os.version), ("zypperID", .str os.zypperId),
    ("cpeScheme", .str os.cpeScheme), ("repoGPGPath", .str os.repoGpgPath),
    ("supportedArchs", .ofStrings (os.supportedArchs.map Arch.long)),
    ("prettyName", .str os.prettyName)]

end OperatingSystem

namespace Components

/-- the charts of a release -/
def workloads? (j : Json) : Option (List ReleaseChart) := do
  let r ← Record.open? ["helm"] j
  r.defaulted "helm" [] (Json.list? ReleaseChart.ofJson?)

def ofJson? (j : Json) : Option Components := do
  let r ← Record.open? ["kubernetes", "operatingSystem", "workloads"] j
  some {
    kubernetes := ← r.required "kubernetes" KubernetesTargets.ofJson?
    operatingSystem := ← r.required "operatingSystem" OperatingSystem.ofJson?
    workloads := ← r.defaulted "workloads" [] workloads? }

def toJson (c : Components) : Json :=
  .obj [("kubernetes", c.kubernetes.toJson), ("operatingSystem", c.operatingSystem.toJson),
    ("workloads", .obj [("helm", .arr (c.workloads.map ReleaseChart.toJson))])]

end Components

namespace ReleaseSpec

def ofJson? (j : Json) : Option ReleaseSpec := do
  let r ← Record.open? ["releaseVersion", "components"] j
  some {
    releaseVersion := ← r.required "releaseVersion" Json.str?
    components := ← r.defaulted "components" {} Components.ofJson? }

def toJson (s : ReleaseSpec) : Json :=
  .obj [("releaseVersion", .str s.releaseVersion), ("components", s.components.toJson)]

end ReleaseSpec

namespace ReleaseManifest

def ofJson? (j : Json) : Option ReleaseManifest := do
  let r ← Record.open? ["metadata", "spec"] j
  some {
    metadata := ← r.required "metadata" Metadata.ofJson?
    spec := ← r.required "spec" ReleaseSpec.ofJson? }

def toJson (m : ReleaseManifest) : Json :=
  Object.toJson apiVersion "ReleaseManifest" m.metadata [("spec", some m.spec.toJson)]

end ReleaseManifest

end ReleaseUpgrade
