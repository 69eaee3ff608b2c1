import ReleaseUpgrade.Definition.Schema
import ReleaseUpgrade.Upgrade.Plan

/-!
# The schema of upgrade plans
-/

namespace ReleaseUpgrade.UpgradePlan

/-- the schema of what a plan asks for -/
def specSchema : Json :=
  Schema.described "`UpgradePlan` declares the release a cluster should be upgraded to." <|
    Schema.record ["releaseVersion"] [
      ("releaseVersion",
        Schema.described "Target release version (e.g., \"3.1.0\")." Schema.text),
      ("disableDrain",
        Schema.described "Per-role drain overrides. `true` disables draining for that role." <|
          Schema.nullable <| Schema.record [] [
            ("controlPlane", Schema.nullable Schema.boolean),
            ("worker", Schema.nullable Schema.boolean)]),
      ("helm",
        Schema.described "Per-chart value overrides merged on top of the release values." <|
          Schema.list <| Schema.described "User supplied values for a single chart." <|
            Schema.record ["chart"] [
              ("chart",
                Schema.described "Chart name as declared in the release manifest." Schema.text),
              ("values", Schema.anyObject)])]

/-- the schema of a condition -/
def conditionSchema : Json :=
  Schema.described "A condition on the upgrade plan." <|
    Schema.record ["lastTransitionTime", "reason", "status", "type"] [
      ("type", Schema.text),
      ("status",
        Schema.described "Tri-state status of a condition." <|
          Schema.choice (ConditionStatus.all.map ConditionStatus.text)),
      ("reason",
        Schema.described "Reason recorded on an upgrade condition." <|
          Schema.choice (Reason.all.map Reason.text)),
      ("message", Schema.defaulting (.str "") Schema.text),
      ("lastTransitionTime", Schema.time)]

/-- the schema of the status of a plan -/
def statusSchema : Json :=
  Schema.described "`UpgradePlan` status defines the observed state of the upgrade." <|
    Schema.nullable <| Schema.record [] [
      ("conditions",
        Schema.described "One condition per component, in the order they were first recorded." <|
          Schema.list conditionSchema),
      ("observedGeneration",
        Schema.described "Last observed generation of the spec." <|
          Schema.defaulting (.int 0) Schema.integer),
      ("namingSuffix",
        Schema.described
          "Random token appended to every object created for the current attempt." <|
          Schema.nullable Schema.text),
      ("lastSuccessfulReleaseVersion",
        Schema.described "Release version of the last upgrade that finished." <|
          Schema.nullable Schema.text)]

end ReleaseUpgrade.UpgradePlan
