import Mathlib.Data.Option.Basic
import ReleaseUpgrade.Helm.Upgrade
import ReleaseUpgrade.Proofs.Helm.RoundTrip
import ReleaseUpgrade.Proofs.Json.Path
import ReleaseUpgrade.Proofs.Json.Record
import ReleaseUpgrade.Proofs.Object.Metadata

/-!
# A chart resource that is replaced

A chart resource is replaced as a whole, so whatever its new document leaves out is lost.  Here that
document is compared with the stored one, field by field.

* `Json.SameBut`                 two objects that agree but for some keys;
* `Record.sameBut`               a record that carries the other fields is written so;
* `HelmChart.Kept`               what the new document has from the old one;
* `HelmChart.kept_of_toRelease`  a chart resource that is set to the chart of a release.
-/

namespace ReleaseUpgrade

/-- the second document is an object that has the fields of the first one in their usual form, but
for some keys, and each field once -/
def Json.SameBut (keys : List String) (old new : Json) : Prop :=
  ∃ fields, new = .obj fields ∧ (fields.map Prod.fst).Nodup ∧
    ∀ k ∉ keys, Dict.get? k fields = old.sorted.field? k

namespace Record

section
variable {names : List String} {j : Json} {r : Record} (h : openObject? names j = some r)
  {k : String}
include h

theorem field?_sorted (k : String) :
    j.sorted.field? k = (Dict.get? k r.fields.reverse).map Json.sorted := by
  obtain ⟨fields, rfl, rfl, _⟩ := obj_of_openObject? h
  have hfields : Json.sortedFields fields = Dict.mapValues Json.sorted fields :=
    Json.sortedFields_eq fields
  rw [Json.sorted, Json.field?, Dict.get?_ofList, hfields, Dict.mapValues, ← List.map_reverse]
  exact Dict.get?_mapValues Json.sorted k fields.reverse

/-- a known field is given once, so that it does not matter which of equal ones counts -/
theorem field?_of_mem (hk : k ∈ names) : j.sorted.field? k = (r.get? k).map Json.sorted := by
  rw [field?_sorted h k, get?]
  obtain ⟨fields, rfl, rfl, hdistinct, _⟩ := obj_of_openObject? h
  have hone := List.all_eq_true.mp hdistinct k hk
  rw [Dict.get?_reverse (of_decide_eq_true hone)]

theorem field?_of_not_mem (hk : k ∉ names) :
    j.sorted.field? k = Dict.get? k (r.rest names) := by
  have hfields : Json.sortedFields (Dict.eraseAll names r.fields) =
      Dict.mapValues Json.sorted (Dict.eraseAll names r.fields) := Json.sortedFields_eq _
  have hkeep : Dict.get? k (Dict.eraseAll names r.fields).reverse =
      Dict.get? k r.fields.reverse := by
    rw [Dict.eraseAll, ← List.filter_reverse]
    refine Dict.get?_filter fun e _ he => ?_
    rw [he, Bool.not_eq_true', ← Bool.not_eq_true, List.contains_iff_mem]
    exact hk
  rw [field?_sorted h k, rest, Dict.get?_ofList, hfields, Dict.mapValues, ← List.map_reverse,
    ← hkeep]
  exact (Dict.get?_mapValues Json.sorted k _).symm

/-- a record that is written with the fields that it carries -/
theorem sameBut {fields : List (String × Option Json)} (hnames : names.Nodup)
    (hfields : fields.map Prod.fst = names) :
    Json.SameBut names j
      (.obj ((fields.filterMap fun f => f.2.map (f.1, ·)) ++ r.rest names)) := by
  have hcarried := carried_rest h
  refine ⟨_, rfl, hcarried.nodup_keys hnames hfields, fun k hk => ?_⟩
  have hnone : Dict.get? k (fields.filterMap fun f => f.2.map (f.1, ·)) = none :=
    Dict.get?_eq_none fun e he heq => hk (heq ▸ mem_names_of_mem_filterMap hfields he)
  rw [Dict.get?_append, hnone, Option.none_or, field?_of_not_mem h hk]

end

end Record

namespace HelmChartSpec

/-- whatever the known fields become, the others stay; the namespace is left out if it is empty -/
theorem sameBut {j : Json} {s s' : HelmChartSpec} (h : ofJson? j = some s)
    (hextra : s'.extra = s.extra) (hns : s'.targetNamespace = s.targetNamespace) :
    Json.SameBut fieldNames j s'.toJson ∧ s'.toJson.field? "targetNamespace" =
      (j.sorted.field? "targetNamespace").filter fun t => t ≠ .str "" := by
  simp only [ofJson?, Option.bind_eq_bind, Option.bind_eq_some_iff] at h
  obtain ⟨r, hopen, target, htarget, _, _, _, _, _, _, _, _, _, _, _, _, heq⟩ := h
  cases heq
  have hextra : s'.extra = r.rest fieldNames := hextra
  have hns : s'.targetNamespace = target := hns
  have hwritten : s'.toJson =
      .obj ((s'.written.filterMap fun f => f.2.map (f.1, ·)) ++ r.rest fieldNames) := by
    rw [← hextra]
    rfl
  refine ⟨hwritten ▸ Record.sameBut hopen (by decide) rfl, ?_⟩
  have hnodup : (s'.written.map Prod.fst).Nodup := by
    show fieldNames.Nodup
    decide
  have hnone : Dict.get? "targetNamespace" (r.rest fieldNames) = none :=
    Dict.get?_eq_none fun e he heq =>
      (Record.carried_rest hopen).apart e he (heq ▸ List.mem_cons_self)
  rw [hwritten, Json.field?, Dict.get?_append, hnone, Option.or_none, Json.get?_filterMap hnodup,
    Record.field?_of_mem hopen List.mem_cons_self]
  show filled s'.targetNamespace = _
  rw [hns]
  obtain ⟨hnone, rfl⟩ | ⟨t, ht, htext⟩ := Record.defaulted_eq_some_iff.mp htarget
  · rw [hnone]
    rfl
  · rw [ht, Json.str?_eq_some_iff.mp htext, filled]
    by_cases hempty : target = ""
    · subst hempty
      rfl
    · have hkeep : decide (Json.str target ≠ .str "") = true := by simpa using hempty
      rw [if_neg hempty]
      exact (if_pos hkeep).symm

end HelmChartSpec

namespace HelmChartStatus

theorem sameBut {j : Json} {s : HelmChartStatus} (h : ofJson? j = some s) :
    Json.SameBut ["jobName"] j s.toJson := by
  simp only [ofJson?, Option.bind_eq_bind, Option.bind_eq_some_iff] at h
  obtain ⟨r, hopen, name, _, heq⟩ := h
  cases heq
  have hnames : (written ⟨name, r.rest ["jobName"]⟩).map Prod.fst = ["jobName"] := rfl
  exact Record.sameBut hopen (by decide) hnames

end HelmChartStatus

namespace HelmChart

/-- a part of the document of a chart resource, in whichever form it is given -/
def part? (name : String) (j : Json) : Option Json :=
  (Record.open? ["metadata", "spec", "status"] j).bind (·.get? name)

/-- what the document `new` of a chart resource has from the document `old`, when the resource is
set to a release -/
structure Kept (settings : Settings) (identity : Dict String) (releaseVersion : String)
    (old new : Json) : Prop where
  /-- the fields of the specification that others manage, and no other ones -/
  spec : ∃ spec spec', part? "spec" old = some spec ∧ new.field? "spec" = some spec' ∧
    Json.SameBut ["targetNamespace", "chart", "version", "repo", "valuesContent", "chartContent",
      "backOffLimit"] spec spec' ∧
    spec'.field? "targetNamespace" =
      (spec.sorted.field? "targetNamespace").filter fun t => t ≠ .str ""
  /-- the status, unless it is null -/
  status : Option.Rel (Json.SameBut ["jobName"])
    ((part? "status" old).filter fun j => !j.isNull) (new.field? "status")
  /-- every member of the metadata in its usual form, and every annotation that is not set -/
  metadata : ∃ metadata given metadata' notes', part? "metadata" old = some metadata ∧
    Shape.open? metadata = some given ∧ new.field? "metadata" = some metadata' ∧
    (∀ name s, (name, false, s) ∈ Metadata.members → name ≠ "annotations" →
      metadata'.field? name = (Dict.get? name given).bind (Shape.read s)) ∧
    metadata'.field? "annotations" = some notes' ∧
    ∀ k, notes'.field? k =
      if k = settings.keys.release then some (.str releaseVersion)
      else ((Dict.get? k identity).map Json.str).or
        ((Dict.get? "annotations" given).bind fun notes => notes.sorted.field? k)

section
variable {j : Json} {c : HelmChart}

/-- the parts that a chart resource is read from -/
theorem parts_of_ofJson? (h : ofJson? j = some c) :
    ∃ metadata spec, part? "metadata" j = some metadata ∧
      Metadata.ofJson? metadata = some c.metadata ∧ part? "spec" j = some spec ∧
      HelmChartSpec.ofJson? spec = some c.spec ∧
      Option.Rel (fun status s => HelmChartStatus.ofJson? status = some s)
        ((part? "status" j).filter fun j => !j.isNull) c.status := by
  simp only [ofJson?, Option.bind_eq_bind, Option.bind_eq_some_iff, Record.required_eq_some_iff,
    Record.nullable_eq_some_iff] at h
  obtain ⟨r, hopen, _, ⟨metadata, hm, hmetadata⟩, _, ⟨spec, hs, hspec⟩, status, hstatus, heq⟩ := h
  cases heq
  have hpart (name : String) : part? name j = r.get? name := by
    rw [part?, hopen]
    rfl
  refine ⟨metadata, spec, (hpart _).trans hm, hmetadata, (hpart _).trans hs, hspec, ?_⟩
  rw [hpart]
  obtain ⟨hnull | ⟨hnone, _⟩, rfl⟩ | ⟨t, s, ht, hne, hread, rfl⟩ := hstatus
  · rw [hnull]
    exact .none
  · rw [hnone]
    exact .none
  · have hkeep : (!t.isNull) = true := by
      cases t with
      | null => exact absurd rfl hne
      | _ => rfl
    rw [ht, Option.filter_some, if_pos hkeep]
    exact .some hread

/-- the parts that a chart resource is written with -/
theorem field?_toJson (c : HelmChart) :
    c.toJson.field? "metadata" = some c.metadata.toJson ∧
      c.toJson.field? "spec" = some c.spec.toJson ∧
      c.toJson.field? "status" = c.status.map HelmChartStatus.toJson := by
  obtain ⟨_, _, status⟩ := c
  cases status <;> exact ⟨rfl, rfl, rfl⟩

/-- the marks are set, and the other annotations stay -/
theorem get?_union_marks {settings : Settings} {identity : Dict String} {releaseVersion : String}
    (h : Dict.Ordered identity) (k : String) (notes : Dict String) :
    Dict.get? k (Dict.union notes (marks settings identity releaseVersion)) =
      if k = settings.keys.release then some releaseVersion
      else (Dict.get? k identity).or (Dict.get? k notes) := by
  rw [marks, Dict.get?_union (h.insert _ _), Dict.get?_insert]
  by_cases hk : k = settings.keys.release
  · rw [if_pos hk.symm, if_pos hk]
    rfl
  · rw [if_neg (Ne.symm hk), if_neg hk]

/-- a chart resource that is set to the chart of a release keeps what others manage -/
theorem kept_of_toRelease (h : ofJson? j = some c) (settings : Settings) (chart : ReleaseChart)
    (values : String) {identity : Dict String} (hidentity : Dict.Ordered identity)
    (releaseVersion : String) :
    Kept settings identity releaseVersion j
      (c.toRelease settings chart values identity releaseVersion).toJson := by
  obtain ⟨metadata, spec, hmetadata, hreadm, hspec, hreads, hstatus⟩ := parts_of_ofJson? h
  obtain ⟨hwritem, hwrites, hwritet⟩ :=
    field?_toJson (c.toRelease settings chart values identity releaseVersion)
  refine ⟨?_, ?_, ?_⟩
  · have hextra : (c.toRelease settings chart values identity releaseVersion).spec.extra =
        c.spec.extra := rfl
    obtain ⟨hsame, htarget⟩ := HelmChartSpec.sameBut hreads hextra rfl
    exact ⟨spec, _, hspec, hwrites, hsame, htarget⟩
  · rw [hwritet]
    show Option.Rel _ _ (c.status.map HelmChartStatus.toJson)
    generalize (part? "status" j).filter (fun j => !j.isNull) = old at hstatus
    generalize c.status = status at hstatus
    cases hstatus with
    | none => exact .none
    | some hs => exact .some (HelmChartStatus.sameBut hs)
  · obtain ⟨given, hopen, _⟩ := Metadata.readMembers_members hreadm
    have hfields (name : String) := Metadata.get?_fields_annotated c.metadata
      (Dict.union (c.metadata.annotations.getD []) (marks settings identity releaseVersion)) name
    refine ⟨metadata, given, _, _, hmetadata, hopen, hwritem, fun name s hmem hname => ?_,
      (hfields "annotations").trans (if_pos rfl), fun k => ?_⟩
    · exact ((hfields name).trans (if_neg hname)).trans (Metadata.get?_fields hreadm hopen hmem)
    · rw [Metadata.get?_notes hreadm hopen, Json.ofStringDict, Json.field?, Dict.get?_mapValues,
        get?_union_marks hidentity]
      by_cases hk : k = settings.keys.release
      · rw [if_pos hk, if_pos hk]
        rfl
      · rw [if_neg hk, if_neg hk]
        cases Dict.get? k identity <;> rfl

end

namespace Foreign

/-- a chart resource with fields of others, some of them twice, an empty namespace and a time in
another zone -/
def document : Json := .obj [
  ("apiVersion", .str "helm.cattle.io/v1"), ("kind", .str "HelmChart"),
  ("metadata", .obj [
    ("name", .str "metal3"), ("namespace", .str "kube-system"), ("resourceVersion", .str "42"),
    ("creationTimestamp", .str "2024-05-01T02:00:00+02:00"), ("labels", .null),
    ("annotations", .obj [
      ("unrelated", .str "y"), ("plan", .str "old"), ("unrelated", .str "x")])]),
  ("spec", .obj [
    ("timeout", .str "10m"), ("chart", .str "metal3"), ("version", .str "0.7.0"),
    ("targetNamespace", .str ""), ("set", .obj [("b", .int 1), ("a", .bool true)]),
    ("timeout", .str "15m")]),
  ("status", .obj [("failed", .bool false), ("jobName", .str "helm-install-metal3")])]

def resource : HelmChart where
  metadata := {
    name := some "metal3"
    ns := some "kube-system"
    resourceVersion := some "42"
    annotations := some [("plan", "old"), ("unrelated", "x")]
    rest := [("creationTimestamp", .str "2024-05-01T00:00:00Z")] }
  spec := {
    chart := "metal3"
    version := "0.7.0"
    extra := [("set", .obj [("a", .bool true), ("b", .int 1)]), ("timeout", .str "15m")] }
  status := some { jobName := "helm-install-metal3", extra := [("failed", .bool false)] }

def chart : ReleaseChart :=
  { releaseName := "metal3", name := "metal3", version := "0.8.0", prettyName := "Metal3" }

theorem ofJson?_document : ofJson? document = some resource := rfl

end Foreign

open Foreign in
theorem kept_of_toRelease_foreign :
    ofJson? document = some resource ∧ Kept {} [("plan", "upgrade")] "3.1.0" document
      (resource.toRelease {} chart "a: 1" [("plan", "upgrade")] "3.1.0").toJson :=
  ⟨ofJson?_document, kept_of_toRelease ofJson?_document {} chart "a: 1"
    (List.pairwise_singleton _ _) "3.1.0"⟩

end HelmChart

end ReleaseUpgrade
