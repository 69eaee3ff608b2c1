import ReleaseUpgrade.Cluster.Rest
import ReleaseUpgrade.Proofs.Controller.History
import ReleaseUpgrade.Proofs.Controller.Reconciliation
import ReleaseUpgrade.Proofs.Phases.Dispatch
import ReleaseUpgrade.Proofs.Upgrade.Document

/-!
# The status that is stored

A pass writes the status once, after the step of the upgrade and whatever its outcome, as a patch to
the plan that it has read.  Fields of the status that have a value never lose it, so the patched plan
holds exactly the status that the step has left.

* `Upgrade.writable_of_yields`, `Upgrade.outlasts_of_yields`   what every step keeps;
* `Controller.persists`                                        the status that a pass writes.
-/

namespace ReleaseUpgrade

/-- the patch puts the status in the place of the one that is stored -/
theorem Rest.field?_statusPatch (stored : Json) (plan : UpgradePlan) (status : Status) :
    (stored.mergePatch (statusPatch plan status)).field? "status" =
      some ((UpgradePlan.statusField stored).mergePatch status.toJson) := by
  obtain ⟨changes, hchanges⟩ : ∃ changes, status.toJson = .obj changes := ⟨_, rfl⟩
  rw [statusPatch, hchanges, Json.mergePatch, Json.mergeFields, Json.mergeFields, Json.mergeFields,
    Json.field?, Dict.get?_insert_self, Dict.get?_insert_of_ne (by decide)]
  · rfl
  · intro h
    cases h
  · intro h
    cases h

namespace Upgrade

section
variable {ctx : Context} {before after : Status} {t : Trace} {r : Except UpgradeError Requeue}

/-- a step leaves a status that can be written, with times that are old or now -/
theorem writable_of_yields {suffix : String} (h : (step ctx suffix).Yields before t r after)
    (hbefore : before.Writable) (hnow : ctx.now.Sound)
    (hgeneration : Json.int64? (.int ctx.plan.generation) = some ctx.plan.generation) :
    after.Writable := by
  cases effect_of_yields h with
  | keep => exact hbefore
  | start m =>
    unfold Start.status
    split
    · exact hbefore
    · refine Start.foldl_preserves ctx.now _ ⟨hbefore.times, hgeneration⟩ fun s c hs => ?_
      exact hs.setCondition c.1 .pending _ hnow
  | dispatch hd =>
    cases hd.changes with
    | complete => exact ⟨hbefore.times, hbefore.generation⟩
    | rewrite _ hr =>
      clear h hd
      induction hr with
      | refl => exact hbefore
      | set reason message _ _ ih => exact ih.setCondition _ reason message hnow

/-- a step takes no value from a field of the status -/
theorem outlasts_of_yields {suffix : String} (h : (step ctx suffix).Yields before t r after) :
    Status.Outlasts before after := by
  cases effect_of_yields h with
  | keep => exact .refl before
  | start m =>
    unfold Start.status
    split
    · exact .refl before
    · refine Start.foldl_preserves ctx.now _ ⟨id, (nomatch ·), id⟩ fun s c hs => ?_
      exact hs.setCondition c.1 .pending _
  | dispatch hd =>
    cases hd.changes with
    | complete => exact ⟨id, id, (nomatch ·)⟩
    | rewrite _ hr =>
      clear h hd
      induction hr with
      | refl => exact .refl before
      | set reason message _ _ ih => exact ih.setCondition _ reason message

end

end Upgrade

/-- the request that a status is written with, for a plan with a name in a namespace -/
theorem Rest.request_patchStatus {plan : UpgradePlan} {ns : String}
    (hns : plan.metadata.ns = some ns) (hname : plan.metadata.nameAny ≠ "") (now : Instant)
    (status : Status) :
    request now (.patchStatus plan status) =
      build .patch (Endpoint.upgradePlans.path (some ns) ++ "/" ++ plan.metadata.nameAny ++ "/status")
        [("fieldManager", fieldManager)] (some (.mergePatch (statusPatch plan status))) := by
  have hpath : objectPath .upgradePlans ns plan.metadata.nameAny =
      .ok (Endpoint.upgradePlans.path (some ns) ++ "/" ++ plan.metadata.nameAny) := if_neg hname
  rw [request, patch, namespaceOf, hns]
  show (objectPath .upgradePlans ns plan.metadata.nameAny >>= _) = _
  rw [hpath]
  rfl

/-- for every plan, whatever its stored status and whatever the cluster answers: a pass over a plan
that stays and carries the finalizer does a step of the upgrade, which writes no status, and after it
writes the status that the step has left, whether the step has failed or not; it fails if one of both
does.  For a plan in a namespace the write is a merge patch to its status, and the document of the
plan with that patch has just this status -/
theorem Controller.persists {ctx : Context} {suffix : String} {t : Trace} {r : Reconciliation}
    (h : (reconcile ctx suffix).Yields t r) (hstays : ctx.plan.metadata.isTerminating = false)
    (hguarded : isGuarded ctx = true) (hnow : ctx.now.Sound) :
    ∃ u outcome status answer,
      (Upgrade.step ctx suffix).Yields ctx.plan.statusOr u outcome status ∧
      t = u ++ [⟨.patchStatus ctx.plan status, answer⟩] ∧ u.All Call.sparesPlan ∧
      r.result = UpgradeError.join outcome answer ∧
      (∀ ns, ctx.plan.metadata.ns = some ns → ctx.plan.metadata.nameAny ≠ "" → ∀ now,
        Rest.request now (.patchStatus ctx.plan status) =
          Rest.build .patch
            (Endpoint.upgradePlans.path (some ns) ++ "/" ++ ctx.plan.metadata.nameAny ++ "/status")
            [("fieldManager", Rest.fieldManager)]
            (some (.mergePatch (Rest.statusPatch ctx.plan status)))) ∧
      ∀ stored : Json, stored.Stored → UpgradePlan.ofJson? stored = some ctx.plan →
        ((stored.mergePatch (Rest.statusPatch ctx.plan status)).field? "status").bind
          Status.ofJson? = some status := by
  cases course_of_yields h with
  | finalize hgoes =>
    rw [hgoes] at hstays
    cases hstays
  | guard _ hbare =>
    rw [hbare] at hguarded
    cases hguarded
  | @advance u outcome status answer _ _ hs =>
    -- the step has set only what can be read back, and has taken nothing away
    refine ⟨u, outcome, status, answer, hs, rfl, Upgrade.spares_of_yields hs, rfl,
      fun ns hns hname now => Rest.request_patchStatus hns hname now status,
      fun stored hstored hread => ?_⟩
    have hwritable := Upgrade.writable_of_yields hs (UpgradePlan.writable_statusOr hread) hnow
      (UpgradePlan.generation_of_ofJson? hread)
    have hcovers := UpgradePlan.covers_statusField hread (Upgrade.outlasts_of_yields hs)
    rw [Rest.field?_statusPatch, Option.bind_some]
    exact Status.ofJson?_mergePatch (UpgradePlan.stored_statusField hstored) hwritable hcovers

namespace OneNode

/-- a condition as it is stored -/
def conditionDocument (type status reason message : String) : Json := .obj [
  ("lastTransitionTime", .str "1970-01-01T00:00:00Z"), ("message", .str message),
  ("reason", .str reason), ("status", .str status), ("type", .str type)]

/-- a plan as it is stored before the pass that reaches the release -/
def storedPlan : Json := .obj [
  ("metadata", .obj [
    ("finalizers", .arr [.str "lifecycle.ruo.io/finalizer"]), ("generation", .int 1),
    ("name", .str "upgrade"), ("namespace", .str "lifecycle-system"),
    ("resourceVersion", .str "5")]),
  ("spec", .obj [("releaseVersion", .str "3.1.0")]),
  ("status", .obj [
    ("conditions", .arr [
      conditionDocument "OSUpgraded" "True" "Succeeded" "All cluster nodes are upgraded",
      conditionDocument "KubernetesUpgraded" "True" "Succeeded" "All cluster nodes are upgraded",
      conditionDocument "Metal3Upgraded" "False" "Skipped" "Chart metal3 is not installed"]),
    ("namingSuffix", .str "0a1b2c3d4e"), ("observedGeneration", .int 1)])]

theorem stored_storedPlan : storedPlan.Stored := rfl

theorem ofJson?_storedPlan : UpgradePlan.ofJson? storedPlan = some (planAt "5" metalDone) := rfl

end OneNode

theorem Controller.persists_oneNode :
    ((OneNode.storedPlan.mergePatch
      (Rest.statusPatch (OneNode.planAt "5" OneNode.metalDone) OneNode.reached)).field? "status").bind
        Status.ofJson? = some OneNode.reached := by
  obtain ⟨_, _, _, _, _, ht, _, _, _, hread⟩ := Controller.persists
    (Controller.reconcile_yields rfl rfl (OneNode.complete_step_yields "5") (.ok ())) rfl rfl
    ⟨by decide, by decide, by decide⟩
  obtain ⟨_, hlast⟩ := List.append_inj' ht rfl
  cases hlast
  exact hread OneNode.storedPlan OneNode.stored_storedPlan OneNode.ofJson?_storedPlan

end ReleaseUpgrade
