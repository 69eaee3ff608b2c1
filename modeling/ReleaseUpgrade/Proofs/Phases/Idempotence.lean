import ReleaseUpgrade.Proofs.Cluster.Still
import ReleaseUpgrade.Proofs.Phases.Attempt
import ReleaseUpgrade.Proofs.Phases.Report

/-!
# Passes at rest

A pass that does not ask for the next one at once leaves what has its turn open, so the next pass has
the same turn.  If the cluster has not changed in between, that pass does and reports the same again.

* `Target.repeats`        a step of what has its turn can be done again from the status that it leaves;
* `repeats_of_yields`     so can a pass;
* `idempotent_at_rest`    on a cluster that does not change, it is done again in this way;
* `run_twice`             on a cluster in memory, if the pass puts nothing into it.
-/

namespace ReleaseUpgrade

namespace Step
variable {α : Type}

/-- a step that has ended can be done again from the status that it leaves -/
theorem Reports.again {now later : Instant} {type : String} {lax : Prop} {Q : α → Report → Prop}
    {s s' : Step α} {before after : Status} {t : Trace} {r : Except UpgradeError α}
    (hs : Reports now later type lax Q s s') (h : s.Yields before t r after) :
    ∃ report, Meets lax Q r report ∧ after = before.noted now type report ∧
      s'.Yields after t r after := by
  obtain ⟨report, hQ, rfl, hagain⟩ := hs _ _ _ _ h
  have h' := hagain (before.noted now type report) (Status.namingSuffix_noted ..)
  rw [Status.noted_noted] at h'
  exact ⟨report, hQ, rfl, h'⟩

end Step

namespace Status
variable {s : Status} {now : Instant} {type : String} {report : Report}

/-- a condition that is not true stays so if it is not reported to be true -/
theorem isSucceeded_noted (hopen : s.isSucceeded type = false)
    (hreport : ∀ reason message, report = some (reason, message) → reason.status ≠ .isTrue) :
    (s.noted now type report).isSucceeded type = false := by
  obtain _ | ⟨reason, message⟩ := report
  · exact hopen
  · refine Bool.eq_false_iff.mpr fun hs => ?_
    exact hreport reason message rfl ((isSucceeded_setCondition ..).mp hs)

/-- a condition that is not finished stays so if it is not reported to be finished -/
theorem isFinished_noted (hopen : s.isFinished type = false)
    (hreport : ∀ reason message, report = some (reason, message) →
      Admission.locks reason = true) :
    (s.noted now type report).isFinished type = false := by
  obtain _ | ⟨reason, message⟩ := report
  · exact hopen
  · show (s.setCondition now type reason message).isFinished type = false
    rw [isFinished_setCondition, hreport reason message rfl]
    rfl

theorem isSucceeded_noted_of_ne {other : String} (h : other ≠ type) :
    (s.noted now type report).isSucceeded other = s.isSucceeded other := by
  rw [isSucceeded, isSucceeded, condition?_noted_of_ne _ _ _ _ h]

theorem isFinished_noted_of_ne {other : String} (h : other ≠ type) :
    (s.noted now type report).isFinished other = s.isFinished other := by
  rw [isFinished, isFinished, condition?_noted_of_ne _ _ _ _ h]

end Status

namespace Upgrade

section
variable {ctx : Context} {before after : Status} {t : Trace} {requeue : Requeue}

/-- once the release has been reached, the end has nothing to tell -/
theorem complete_yields_of_reached
    (h : before.lastSuccessfulRelease = some ctx.plan.spec.releaseVersion) :
    (complete ctx).Yields before [] (.ok none) before := by
  refine (Step.yields_bind_status ..).mpr ?_
  rw [h, if_neg (by simp)]
  exact (Step.yields_pure ..).mpr ⟨rfl, rfl, rfl⟩

/-- the first workload that is not finished has its turn until it is -/
theorem turn_noted {workloads : List ReleaseChart} {w : ReleaseChart} {now : Instant}
    {report : Report} (hturn : Turn before workloads w)
    (hopen : (before.noted now (Status.workloadUpgraded w.prettyName) report).isFinished
      (Status.workloadUpgraded w.prettyName) = false) :
    Turn (before.noted now (Status.workloadUpgraded w.prettyName) report) workloads w := by
  obtain ⟨hw, pre, post, hsplit, hpre⟩ := hturn
  refine ⟨hopen, pre, post, hsplit, fun v hv => ?_⟩
  have hne : Status.workloadUpgraded v.prettyName ≠ Status.workloadUpgraded w.prettyName := by
    intro he
    rw [← he, hpre v hv] at hw
    cases hw
  rw [Status.isFinished_noted_of_ne hne]
  exact hpre v hv

/-- what has its turn after a step can be done at another time with calls of the step, and with the
answers to them; it ends as the step has ended and changes nothing -/
def Target.Repeats (ctx : Context) (release : ReleaseSpec) (later : Instant) (t : Trace)
    (requeue : Requeue) (before after : Status) : Prop :=
  after.observedGeneration = before.observedGeneration ∧ ∃ u, u ⊆ t ∧
    ((target after release.components.workloads).step (ctx.at later) release).Yields after u
      (.ok requeue) after

section
variable {release : ReleaseSpec} (later : Instant)

theorem Target.repeats_system (hos : before.isSucceeded Status.osUpgraded = false)
    (h : (Target.system.step ctx release).Yields before t (.ok requeue) after)
    (hne : requeue ≠ .immediately) : Repeats ctx release later t requeue before after := by
  obtain ⟨report, hopens, rfl, hagain⟩ := (SystemPhase.reports_step ctx later _ _).again h
  have hopen : (before.noted ctx.now Status.osUpgraded report).isSucceeded Status.osUpgraded =
      false := Status.isSucceeded_noted hos (hopens hne)
  refine ⟨Status.observedGeneration_noted .., t, List.Subset.refl t, ?_⟩
  rw [target_of_system hopen]
  exact hagain

theorem Target.repeats_distribution (hos : before.isSucceeded Status.osUpgraded = true)
    (hk : before.isSucceeded Status.kubernetesUpgraded = false)
    (h : (Target.distribution.step ctx release).Yields before t (.ok requeue) after)
    (hne : requeue ≠ .immediately) : Repeats ctx release later t requeue before after := by
  obtain ⟨report, hopens, rfl, hagain⟩ := (DistributionPhase.reports_step ctx later _).again h
  have hopen : (before.noted ctx.now Status.kubernetesUpgraded report).isSucceeded
      Status.kubernetesUpgraded = false := Status.isSucceeded_noted hk (hopens hne)
  have hdone : (before.noted ctx.now Status.kubernetesUpgraded report).isSucceeded
      Status.osUpgraded = true := by
    rw [Status.isSucceeded_noted_of_ne (by decide)]
    exact hos
  refine ⟨Status.observedGeneration_noted .., t, List.Subset.refl t, ?_⟩
  rw [target_of_distribution hdone hopen]
  exact hagain

theorem Target.repeats_workload {w : ReleaseChart}
    (hos : before.isSucceeded Status.osUpgraded = true)
    (hk : before.isSucceeded Status.kubernetesUpgraded = true)
    (hturn : Turn before release.components.workloads w)
    (h : ((Target.workload w).step ctx release).Yields before t (.ok requeue) after)
    (hne : requeue ≠ .immediately) : Repeats ctx release later t requeue before after := by
  obtain ⟨report, hopens, rfl, hagain⟩ := (Workload.reports_step ctx later w).again h
  -- the conditions of the nodes are true, so they are not that of the workload
  have hkept {type : String} (hs : before.isSucceeded type = true) :
      (before.noted ctx.now (Status.workloadUpgraded w.prettyName) report).isSucceeded type =
        true := by
    have hne : type ≠ Status.workloadUpgraded w.prettyName := by
      rintro rfl
      have hopen := hturn.1
      rw [Status.isFinished_of_isSucceeded hs] at hopen
      cases hopen
    rw [Status.isSucceeded_noted_of_ne hne]
    exact hs
  have hopen : Turn (before.noted ctx.now (Status.workloadUpgraded w.prettyName) report)
      release.components.workloads w :=
    turn_noted hturn (Status.isFinished_noted hturn.1 (hopens hne))
  refine ⟨Status.observedGeneration_noted .., t, List.Subset.refl t, ?_⟩
  rw [target_of_workload (hkept hos) (hkept hk) (openWorkload_of_turn hopen)]
  exact hagain

/-- the release has been reached by then, so the event about the end is not published again -/
theorem Target.repeats_complete
    (ht : target before release.components.workloads = .complete)
    (h : (Target.complete.step ctx release).Yields before t (.ok requeue) after) :
    Repeats ctx release later t requeue before after := by
  obtain ⟨hr, rfl, _⟩ := complete_of_yields h
  cases hr
  refine ⟨rfl, [], List.nil_subset t, ?_⟩
  have hsame : target { before with lastSuccessfulRelease := some ctx.plan.spec.releaseVersion }
      release.components.workloads = .complete := ht
  rw [hsame]
  show (Upgrade.complete (ctx.at later)).Yields _ _ _ _
  exact complete_yields_of_reached rfl

/-- a step of what has its turn leaves it open unless it is to be repeated at once -/
theorem Target.repeats
    (h : ((target before release.components.workloads).step ctx release).Yields before t
      (.ok requeue) after) (hne : requeue ≠ .immediately) :
    Repeats ctx release later t requeue before after := by
  obtain ⟨hos, ht⟩ | ⟨hos, ⟨hk, ht⟩ | ⟨hk, ⟨w, hw, ht⟩ | ⟨_, ht⟩⟩⟩ :=
    target_cases before release.components.workloads
  · rw [ht] at h
    exact repeats_system later hos h hne
  · rw [ht] at h
    exact repeats_distribution later hos hk h hne
  · rw [ht] at h
    exact repeats_workload later hos hk (turn_of_openWorkload hw) h hne
  · have hend := h
    rw [ht] at hend
    exact repeats_complete later ht hend

end

/-- a pass that does not ask for the next one at once can be done again at another time, from the
status that it leaves and with the same answers; it ends in the same way and changes nothing -/
theorem repeats_of_yields {suffix : String}
    (h : (step ctx suffix).Yields before t (.ok requeue) after) (hne : requeue ≠ .immediately)
    (later : Instant) (suffix' : String) :
    ∃ u, u ⊆ t ∧ (step (ctx.at later) suffix').Yields after u (.ok requeue) after := by
  obtain ⟨_, _, he, _⟩ | ⟨manifest?, u, v, rfl, hresolve, hrest⟩ := (Step.yields_bind_lift ..).mp h
  · cases he
  cases manifest? with
  | none =>
    -- the manifest is missing again, so its job is created again with the same answers
    obtain ⟨_, _, he, _⟩ | ⟨_, _, _, rfl, hi, hlast⟩ := (Step.yields_bind_lift ..).mp hrest
    · cases he
    obtain ⟨rfl, hr, rfl⟩ := (Step.yields_pure ..).mp hlast
    refine ⟨_, List.Subset.refl _, (Step.yields_bind_lift ..).mpr (.inr ?_)⟩
    refine ⟨none, u, _, rfl, hresolve, (Step.yields_bind_lift ..).mpr (.inr ?_)⟩
    exact ⟨(), _, [], rfl, hi, (Step.yields_pure ..).mpr ⟨rfl, hr, rfl⟩⟩
  | some m =>
    have hrest := (Step.yields_bind_status ..).mp hrest
    split at hrest
    · obtain ⟨_, hr, _⟩ := Start.step_yields_iff.mp hrest
      exact absurd (Except.ok.inj hr) hne
    · rename_i hstarted
      obtain ⟨hobs, w, hsub, hagain⟩ :=
        Target.repeats later ((advance_yields_iff m.spec).mp hrest) hne
      refine ⟨u ++ w, ?_, (Step.yields_bind_lift ..).mpr (.inr ?_)⟩
      · exact List.append_subset.mpr
          ⟨List.subset_append_left u v, List.subset_append_of_subset_right u hsub⟩
      refine ⟨some m, u, w, rfl, hresolve, (Step.yields_bind_status ..).mpr ?_⟩
      rw [hobs, if_neg (by exact hstarted)]
      exact (advance_yields_iff m.spec).mpr hagain

/-- a pass on a cluster that does not change: if it ends well, does not ask for the next one at once
and creates and replaces nothing, then the next pass, whenever it comes, asks for the same delay,
creates and replaces nothing and leaves the whole status as it is; it makes no call that the first
one has not made -/
theorem idempotent_at_rest {answers : Answers} {suffix : String}
    (h : ((step ctx suffix).outcome before).on answers = (t, .ok requeue, after))
    (hne : requeue ≠ .immediately) (hidle : t.Idle) (later : Instant) (suffix' : String) :
    ∃ u, ((step (ctx.at later) suffix').outcome after).on answers = (u, .ok requeue, after) ∧
      u.Idle ∧ u ⊆ t := by
  obtain ⟨hyields, hfrom⟩ := Program.on_eq_iff.mp h
  obtain ⟨u, hsub, hagain⟩ := repeats_of_yields hyields hne later suffix'
  refine ⟨u, Program.on_eq_iff.mpr ⟨hagain, fun x hx => hfrom x (hsub hx)⟩, ?_, hsub⟩
  exact fun x hx => hidle x (hsub hx)

theorem deletes_of_yields {suffix : String} {r : Except UpgradeError Requeue}
    (h : (step ctx suffix).Yields before t r after) : ∀ x ∈ t, x.call.deletes = false := by
  have hall : t.All fun c => !c.deletes :=
    (guarded_of_yields h).all (fun c hc => by rw [Call.deletes_eq_false hc]; rfl)
      fun past c hc => by rw [hc.deletes_eq_false]; rfl
  exact fun x hx => by simpa using hall x hx

/-- a cluster in memory into which a pass puts nothing answers like one that does not change -/
theorem run_eq_on {s : Store} {suffix : String} {r : Except UpgradeError Requeue}
    (h : ((step ctx suffix).outcome before).on s.answers = (t, r, after)) (hidle : t.Idle) :
    ((step ctx suffix).outcome before).run Store.answer s = ((r, after), s) := by
  obtain ⟨hyields, _⟩ := Program.on_eq_iff.mp h
  have hrun := Store.run_eq_on (p := (step ctx suffix).outcome before) (s := s)
  rw [h] at hrun
  exact hrun hidle (deletes_of_yields hyields) (spares_of_yields hyields)

/-- the same on a cluster in memory: both passes leave the cluster as it is, and the second one
leaves the status as it is -/
theorem run_twice {s : Store} {suffix : String}
    (h : ((step ctx suffix).outcome before).on s.answers = (t, .ok requeue, after))
    (hne : requeue ≠ .immediately) (hidle : t.Idle) (later : Instant) (suffix' : String) :
    ((step ctx suffix).outcome before).run Store.answer s = ((.ok requeue, after), s) ∧
      ((step (ctx.at later) suffix').outcome after).run Store.answer s =
        ((.ok requeue, after), s) := by
  obtain ⟨hyields, hfrom⟩ := Program.on_eq_iff.mp h
  obtain ⟨u, hsub, hagain⟩ := repeats_of_yields hyields hne later suffix'
  refine ⟨run_eq_on h hidle, run_eq_on (t := u) ?_ fun x hx => hidle x (hsub hx)⟩
  exact Program.on_eq_iff.mpr ⟨hagain, fun x hx => hfrom x (hsub hx)⟩

end

end Upgrade

namespace OneNode

/-- the node before its operating system has been upgraded -/
def oldNode : Node :=
  { node with
    status := some {
      conditions := some [{ type := "Ready", status := "True" }]
      info := some {
        architecture := "x86_64"
        kubeletVersion := "v1.30.3+rke2r1"
        osImage := "SUSE Linux Micro 5.5" } } }

def heldSecret : Secret where
  metadata := { name := some "os-upgrade-secret-0a1b2c3d4e", ns := some "cattle-system" }

def heldPlan : NodePlan where
  metadata := {
    name := some "control-plane-sl-micro-6-0-0a1b2c3d4e"
    ns := some "cattle-system" }

/-- all that the upgrade of the operating system needs has been created, and the node is waited
for -/
def waitingStore : Store where
  manifests := [{ metadata := { ns := some "lifecycle-system" }, spec := release }]
  nodes := [oldNode]
  secrets := [heldSecret]
  nodePlans := [heldPlan]

def waiting : Status :=
  started.setCondition ⟨0, 0⟩ Status.osUpgraded .inProgress
    "Control plane nodes are being upgraded"

def waitingTrace : Trace :=
  [.listed .releaseManifest (some "lifecycle-system") waitingStore.manifests,
    .listed .node none [oldNode],
    .got .secret "cattle-system" "os-upgrade-secret-0a1b2c3d4e" (some heldSecret),
    .got .nodePlan "cattle-system" "control-plane-sl-micro-6-0-0a1b2c3d4e" (some heldPlan)]

theorem waiting_on :
    ((Upgrade.step (contextAt (planAt "2" started)) "ffffffffff").outcome started).on
      waitingStore.answers = (waitingTrace, .ok (some 60000), waiting) := rfl

end OneNode

theorem Upgrade.idempotent_at_rest_oneNode :
    ∃ u : Trace,
      ((Upgrade.step ((OneNode.contextAt (OneNode.planAt "2" OneNode.started)).at ⟨60, 0⟩)
        "eeeeeeeeee").outcome OneNode.waiting).on OneNode.waitingStore.answers =
          (u, .ok (some 60000), OneNode.waiting) ∧ u.Idle ∧ u ⊆ OneNode.waitingTrace :=
  Upgrade.idempotent_at_rest OneNode.waiting_on nofun (by decide) ⟨60, 0⟩ "eeeeeeeeee"

end ReleaseUpgrade
