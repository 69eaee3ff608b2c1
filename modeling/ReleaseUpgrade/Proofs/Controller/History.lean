import ReleaseUpgrade.Cluster.Rest
import ReleaseUpgrade.Proofs.Controller.Reconciliation
import ReleaseUpgrade.Proofs.Phases.Agreement
import ReleaseUpgrade.Proofs.SemVer

/-!
# Releases only move forward

A plan is stored in one version after the other: it is created, edited, and changed by passes, each
of which has read some stored version and may come late.  The API server refuses the change of a pass
that names another version than the current one.

* `Controller.written_of_yields`   the status that a pass writes is that which its step leaves;
* `History`                        the stored versions of a plan;
* `History.standing`               what a plan asks for is the release that it has reached, or a
                                   later one;
* `History.releases_forward`       so a release that has been reached gives way to later ones only.
-/

namespace ReleaseUpgrade

/-- the version of a plan that a change to it is about -/
def Rest.revision? (change : Json) : Option Json :=
  (change.field? "metadata").bind (Json.field? "resourceVersion")

theorem Rest.revision?_statusPatch (plan : UpgradePlan) (status : Status) :
    revision? (statusPatch plan status) = some (plan.metadata.resourceVersion.elim .null .str) := by
  rfl

/-- a status that a pass writes is for the plan that it has read, and it is what the step of the
upgrade leaves -/
theorem Controller.written_of_yields {ctx : Context} {suffix : String} {t : Trace}
    {r : Reconciliation} {plan : UpgradePlan} {status : Status}
    {answer : Except UpgradeError Unit} (h : (reconcile ctx suffix).Yields t r)
    (hmem : ⟨.patchStatus plan status, answer⟩ ∈ t) :
    ∃ u outcome, (Upgrade.step ctx suffix).Yields ctx.plan.statusOr u outcome status := by
  cases course_of_yields h with
  | finalize _ hf => cases cleans_of_finalize hf _ hmem
  | advance _ _ hs =>
    obtain hmem | hlast := List.mem_append.mp hmem
    · cases Upgrade.spares_of_yields hs _ hmem
    · obtain ⟨_, rfl⟩ := Call.patchStatus.inj (congrArg Exchange.call (List.mem_singleton.mp hlast))
      exact ⟨_, _, hs⟩
  | guard => cases congrArg Exchange.call (List.mem_singleton.mp hmem)

theorem Controller.reconcile_yields {ctx : Context} {suffix : String} {t : Trace}
    {outcome : Except UpgradeError Requeue} {status : Status}
    (hstays : ctx.plan.metadata.isTerminating = false) (hguarded : isGuarded ctx = true)
    (h : (Upgrade.step ctx suffix).Yields ctx.plan.statusOr t outcome status)
    (answer : Except UpgradeError Unit) :
    (reconcile ctx suffix).Yields (t ++ [⟨.patchStatus ctx.plan status, answer⟩])
      { result := UpgradeError.join outcome answer
        progress := some (ctx.plan.statusOr, status) } := by
  unfold reconcile
  rw [hstays, hguarded]
  refine (Program.yields_bind ..).mpr ⟨(outcome, status), t, _, rfl, h, ?_⟩
  exact ⟨answer, [], rfl, rfl, rfl⟩

/-- the API server gives a plan that it stores a version of its own -/
def Fresh (past : List UpgradePlan) (plan : UpgradePlan) : Prop :=
  ∃ v, plan.metadata.resourceVersion = some v ∧
    ∀ old ∈ past, old.metadata.resourceVersion ≠ some v

/-- a change that names the current version comes from a pass that has read it -/
theorem Fresh.read_eq {plan read : UpgradePlan} {past : List UpgradePlan} (h : Fresh past plan)
    (hmem : read ∈ plan :: past)
    (haccepted : some (read.metadata.resourceVersion.elim .null Json.str) =
      plan.metadata.resourceVersion.map Json.str) : read = plan := by
  obtain ⟨v, hv, hother⟩ := h
  rw [hv] at haccepted
  obtain rfl | hold := List.mem_cons.mp hmem
  · rfl
  · cases hread : read.metadata.resourceVersion with
    | none =>
      rw [hread] at haccepted
      cases haccepted
    | some v' =>
      rw [hread] at haccepted
      cases haccepted
      exact absurd hread (hother read hold)

/-- the stored versions of a plan, the current one first -/
inductive History : List UpgradePlan → Prop
  | created {plan} : Admission.create plan = .ok () → plan.status = none → Fresh [] plan →
      History [plan]
  /-- what the plan asks for is changed, while the plan is not being deleted -/
  | edited {plan past new} : History (plan :: past) → Admission.update plan new = .ok () →
      new.metadata.isTerminating = false → new.status = plan.status → Fresh (plan :: past) new →
      History (new :: plan :: past)
  /-- a pass that has read some version writes its status, and names the current version -/
  | written {plan past new ctx suffix t r status answer} : History (plan :: past) →
      ctx.plan ∈ plan :: past → (Controller.reconcile ctx suffix).Yields t r →
      ⟨.patchStatus ctx.plan status, answer⟩ ∈ t →
      Rest.revision? (Rest.statusPatch ctx.plan status) =
        plan.metadata.resourceVersion.map Json.str →
      new.spec = plan.spec → new.status = some status → Fresh (plan :: past) new →
      History (new :: plan :: past)
  /-- nothing but the metadata changes, such as the finalizers -/
  | touched {plan past new} : History (plan :: past) → new.spec = plan.spec →
      new.status = plan.status → Fresh (plan :: past) new → History (new :: plan :: past)

/-- a release by its version comes after another one -/
def Later (newer older : String) : Prop :=
  ∃ v w, Admission.releaseVersion newer = .ok v ∧ Admission.releaseVersion older = .ok w ∧
    v.order w = .gt

theorem Later.trans {a b c : String} (hab : Later a b) (hbc : Later b c) : Later a c := by
  obtain ⟨u, v, hu, hv, huv⟩ := hab
  obtain ⟨v', w, hv', hw, hvw⟩ := hbc
  rw [hv] at hv'
  cases hv'
  exact ⟨u, w, hu, hw, SemVer.order_trans huv hvw⟩

/-- the plan asks for the release that it has reached, or for a later one -/
structure Standing (plan : UpgradePlan) : Prop where
  requested : ∃ v, Admission.releaseVersion plan.spec.releaseVersion = .ok v
  reached : ∀ release, plan.statusOr.lastSuccessfulRelease = some release →
    plan.spec.releaseVersion = release ∨ Later plan.spec.releaseVersion release

/-- the release that has been reached stays, or gives way to a later one -/
def Forward (newer older : UpgradePlan) : Prop :=
  ∀ release, older.statusOr.lastSuccessfulRelease = some release →
    ∃ next, newer.statusOr.lastSuccessfulRelease = some next ∧
      (next = release ∨ Later next release)

theorem Forward.trans {a b c : UpgradePlan} (hab : Forward a b) (hbc : Forward b c) :
    Forward a c := by
  intro release hrelease
  obtain ⟨between, hbetween, hlater⟩ := hbc release hrelease
  obtain ⟨next, hnext, hlater'⟩ := hab between hbetween
  refine ⟨next, hnext, ?_⟩
  obtain rfl | hlater := hlater
  · exact hlater'
  obtain rfl | hlater' := hlater'
  · exact .inr hlater
  · exact .inr (hlater'.trans hlater)

theorem Forward.of_status_eq {new plan : UpgradePlan} (h : new.status = plan.status) :
    Forward new plan := by
  intro release hrelease
  rw [UpgradePlan.statusOr, ← h] at hrelease
  exact ⟨release, hrelease, .inl rfl⟩

/-- what goes forward from the newest version goes forward from all -/
theorem pairwise_forward {new plan : UpgradePlan} {past : List UpgradePlan}
    (hnew : Forward new plan) (h : (plan :: past).Pairwise Forward) :
    (new :: plan :: past).Pairwise Forward := by
  refine List.Pairwise.cons (fun old hold => ?_) h
  obtain rfl | hold := List.mem_cons.mp hold
  · exact hnew
  · exact hnew.trans (List.rel_of_pairwise_cons h hold)

namespace Standing
variable {plan new : UpgradePlan} (h : Standing plan)
include h

theorem parses {release : String} (hreached : plan.statusOr.lastSuccessfulRelease = some release) :
    ∃ w, Admission.releaseVersion release = .ok w := by
  obtain he | ⟨_, w, _, hw, _⟩ := h.reached release hreached
  · rw [← he]
    exact h.requested
  · exact ⟨w, hw⟩

theorem edited (hupdate : Admission.update plan new = .ok ())
    (hstays : new.metadata.isTerminating = false) (hstatus : new.status = plan.status) :
    Standing new := by
  obtain ⟨_, v, hv, hadvanced⟩ := Admission.accepted_of_update hupdate hstays
  refine ⟨⟨v, hv⟩, fun release hrelease => .inr ?_⟩
  have hreached : plan.statusOr.lastSuccessfulRelease = some release := by
    rwa [UpgradePlan.statusOr, hstatus] at hrelease
  obtain ⟨w, hw⟩ := h.parses hreached
  obtain ⟨w', hw', horder⟩ := hadvanced release (Admission.reached?_eq hreached hw)
  exact ⟨v, w', hv, hw', horder⟩

/-- noting the release that the plan asks for keeps the standing -/
theorem noted (hspec : new.spec = plan.spec)
    (hnoted : new.statusOr.lastSuccessfulRelease = plan.statusOr.lastSuccessfulRelease ∨
      new.statusOr.lastSuccessfulRelease = some plan.spec.releaseVersion) : Standing new := by
  refine ⟨hspec ▸ h.requested, fun release hrelease => ?_⟩
  rw [hspec]
  obtain hkept | hreached := hnoted
  · exact h.reached release (hkept ▸ hrelease)
  · rw [hreached] at hrelease
    exact .inl (Option.some.inj hrelease)

/-- the release that the plan asks for is the one that has been reached, or a later one -/
theorem forward
    (hnoted : new.statusOr.lastSuccessfulRelease = plan.statusOr.lastSuccessfulRelease ∨
      new.statusOr.lastSuccessfulRelease = some plan.spec.releaseVersion) : Forward new plan := by
  intro release hrelease
  obtain hkept | hreached := hnoted
  · exact ⟨release, hkept.trans hrelease, .inl rfl⟩
  · exact ⟨_, hreached, h.reached release hrelease⟩

end Standing

namespace History
variable {plan : UpgradePlan} {past : List UpgradePlan}

theorem fresh (h : History (plan :: past)) : Fresh past plan := by
  cases h with
  | created _ _ hfresh => exact hfresh
  | edited _ _ _ _ hfresh => exact hfresh
  | written _ _ _ _ _ _ _ hfresh => exact hfresh
  | touched _ _ _ hfresh => exact hfresh

theorem read_current (h : History (plan :: past)) {read : UpgradePlan} {status : Status}
    (hmem : read ∈ plan :: past)
    (haccepted : Rest.revision? (Rest.statusPatch read status) =
      plan.metadata.resourceVersion.map Json.str) : read = plan := by
  rw [Rest.revision?_statusPatch] at haccepted
  exact h.fresh.read_eq hmem haccepted

/-- a status that has been accepted keeps the release that has been reached, or notes the one that
the plan asks for -/
theorem written_release (h : History (plan :: past)) {ctx : Context} {suffix : String} {t : Trace}
    {r : Reconciliation} {status : Status} {answer : Except UpgradeError Unit}
    (hmem : ctx.plan ∈ plan :: past) (hpass : (Controller.reconcile ctx suffix).Yields t r)
    (hcall : ⟨.patchStatus ctx.plan status, answer⟩ ∈ t)
    (haccepted : Rest.revision? (Rest.statusPatch ctx.plan status) =
      plan.metadata.resourceVersion.map Json.str) :
    status.lastSuccessfulRelease = plan.statusOr.lastSuccessfulRelease ∨
      status.lastSuccessfulRelease = some plan.spec.releaseVersion := by
  obtain ⟨_, _, hs⟩ := Controller.written_of_yields hpass hcall
  rw [← h.read_current hmem haccepted]
  exact Upgrade.lastSuccessfulRelease_of_yields hs

variable {versions : List UpgradePlan}

/-- in every stored version the plan asks for the release that it has reached, or for a later one -/
theorem standing (h : History versions) : ∀ plan ∈ versions, Standing plan := by
  induction h with
  | @created plan hcreate hnone _ =>
    intro p hp
    rw [List.mem_singleton.mp hp]
    refine ⟨Admission.requested_of_create hcreate, fun release hrelease => ?_⟩
    rw [UpgradePlan.statusOr, hnone] at hrelease
    cases hrelease
  | @edited plan past new _ hupdate hstays hstatus _ ih =>
    intro p hp
    obtain rfl | hold := List.mem_cons.mp hp
    · exact (ih plan List.mem_cons_self).edited hupdate hstays hstatus
    · exact ih p hold
  | @written plan past new ctx suffix t r status answer hprev hread hpass hcall haccepted hspec
      hstatus _ ih =>
    intro p hp
    obtain rfl | hold := List.mem_cons.mp hp
    · -- the pass has read the current version, so nothing that was reached in between is lost
      refine (ih plan List.mem_cons_self).noted hspec ?_
      rw [UpgradePlan.statusOr, hstatus]
      exact hprev.written_release hread hpass hcall haccepted
    · exact ih p hold
  | @touched plan past new _ hspec hstatus _ ih =>
    intro p hp
    obtain rfl | hold := List.mem_cons.mp hp
    · refine (ih plan List.mem_cons_self).noted hspec (.inl ?_)
      rw [UpgradePlan.statusOr, hstatus]
      rfl
    · exact ih p hold

/-- in every history, however edits and passes that have read old versions follow each other: of any
two stored versions, the newer one has reached the release that the older one had reached, or one
with a later version -/
theorem releases_forward (h : History versions) : versions.Pairwise Forward := by
  induction h with
  | created => exact List.pairwise_singleton Forward _
  | edited _ _ _ hstatus _ ih => exact pairwise_forward (.of_status_eq hstatus) ih
  | @written plan past new ctx suffix t r status answer hprev hread hpass hcall haccepted hspec
      hstatus _ ih =>
    have hnew : new.statusOr = status := by rw [UpgradePlan.statusOr, hstatus]; rfl
    refine pairwise_forward ((hprev.standing plan List.mem_cons_self).forward ?_) ih
    rw [hnew]
    exact hprev.written_release hread hpass hcall haccepted
  | touched _ _ hstatus _ ih => exact pairwise_forward (.of_status_eq hstatus) ih

end History

namespace OneNode

def reachedLater : Status := { nodesDoneLater with lastSuccessfulRelease := some "v3.2.0" }

theorem complete_later_yields :
    (Upgrade.step (contextAt (editedAt "10" nodesDoneLater)) "ffffffffff").Yields nodesDoneLater
      [foundLater, ⟨.publishEvent (editedAt "10" nodesDoneLater)
        ⟨.normal, "UpgradeCompleted", "Upgrade to release v3.2.0 completed"⟩, .ok ()⟩]
      (.ok none) reachedLater :=
  ⟨.ok [{ spec := laterRelease }], _, rfl, .ok (), _, rfl, rfl, rfl⟩

/-- the plan as it has been created -/
def created : UpgradePlan :=
  { planAt "0" none with metadata := { (planAt "0" none).metadata with finalizers := none } }

/-- the plan reaches one release after the other -/
def versions : List UpgradePlan :=
  [editedAt "11" reachedLater, editedAt "10" nodesDoneLater, editedAt "9" systemDoneLater,
    editedAt "8" restarted, editedAt "7" reached, planAt "6" reached, planAt "5" metalDone,
    planAt "4" nodesDone, planAt "3" systemDone, planAt "2" started, planAt "1" none, created]

/-- a pass reads the current version and writes its status -/
theorem written {plan new : UpgradePlan} {past : List UpgradePlan} {suffix v : String} {t : Trace}
    {outcome : Except UpgradeError Requeue} {status : Status} (h : History (plan :: past))
    (hs : (Upgrade.step (contextAt plan) suffix).Yields plan.statusOr t outcome status)
    (hstays : plan.metadata.isTerminating = false)
    (hguarded : Controller.isGuarded (contextAt plan) = true) (hspec : new.spec = plan.spec)
    (hstatus : new.status = some status) (hv : new.metadata.resourceVersion = some v)
    (hfresh : ∀ old ∈ plan :: past, old.metadata.resourceVersion ≠ some v) :
    History (new :: plan :: past) := by
  have hpass := Controller.reconcile_yields hstays hguarded hs (.ok ())
  refine .written h List.mem_cons_self hpass (List.mem_append_right _ List.mem_cons_self) ?_ hspec
    hstatus ⟨v, hv, hfresh⟩
  obtain ⟨w, hw, _⟩ := h.fresh
  show Rest.revision? (Rest.statusPatch plan status) = _
  rw [Rest.revision?_statusPatch, hw]
  rfl

theorem history : History versions := by
  have h₀ : History (versions.drop 11) := .created rfl rfl ⟨"0", rfl, by decide⟩
  have h₁ : History (versions.drop 10) := .touched h₀ rfl rfl ⟨"1", rfl, by decide⟩
  have h₂ : History (versions.drop 9) :=
    written h₁ (start_yields "1") rfl rfl rfl rfl rfl (by decide)
  have h₃ : History (versions.drop 8) :=
    written h₂ (system_step_yields "2") rfl rfl rfl rfl rfl (by decide)
  have h₄ : History (versions.drop 7) :=
    written h₃ (distribution_step_yields "3") rfl rfl rfl rfl rfl (by decide)
  have h₅ : History (versions.drop 6) :=
    written h₄ (metal_step_yields "4") rfl rfl rfl rfl rfl (by decide)
  have h₆ : History (versions.drop 5) :=
    written h₅ (complete_step_yields "5") rfl rfl rfl rfl rfl (by decide)
  have h₇ : History (versions.drop 4) := .edited h₆ update_later rfl rfl ⟨"7", rfl, by decide⟩
  have h₈ : History (versions.drop 3) :=
    written h₇ (restart_yields "7") rfl rfl rfl rfl rfl (by decide)
  have h₉ : History (versions.drop 2) :=
    written h₈ (system_later_yields "8") rfl rfl rfl rfl rfl (by decide)
  have h₁₀ : History (versions.drop 1) :=
    written h₉ (distribution_later_yields "9") rfl rfl rfl rfl rfl (by decide)
  exact written h₁₀ complete_later_yields rfl rfl rfl rfl rfl (by decide)

end OneNode

theorem History.releases_forward_oneNode :
    (OneNode.versions.filterMap fun plan => plan.statusOr.lastSuccessfulRelease) =
      "v3.2.0" :: List.replicate 5 "3.1.0" ∧ OneNode.versions.Pairwise Forward :=
  ⟨rfl, History.releases_forward OneNode.history⟩

end ReleaseUpgrade
