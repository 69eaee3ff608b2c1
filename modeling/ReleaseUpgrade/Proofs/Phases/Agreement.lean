import ReleaseUpgrade.Proofs.Admission
import ReleaseUpgrade.Proofs.Phases.Attempt

/-!
# The phase that is reported is the phase that is worked on

The phase that a status reports comes from all the conditions that it records, those of earlier
releases included; what a pass works on comes from the workloads of the release.  Both agree in every
status that passes and edits lead to.

* `Agreement`            once an attempt has been started, the components of the release have their
                         conditions and every other condition is finished; before that, all are;
* `Reachable`            the plans that passes and edits lead to;
* `Reachable.agreement`  all of them agree;
* `Reachable.works_as_reported`   so a pass works on what the status reports.
-/

namespace ReleaseUpgrade

namespace Upgrade

/-- the conditions of a status fit the release and the generation of its plan -/
structure Agreement (release : ReleaseSpec) (generation : Int) (s : Status) : Prop where
  sound : s.Sound
  bounded : s.observedGeneration ≤ generation
  settled : s.observedGeneration ≠ generation → ∀ c ∈ s.conditions, c.isFinished = true
  recorded : s.observedGeneration = generation → ∀ type ∈ Start.types release, type ∈ s.types
  foreign : s.observedGeneration = generation →
    ∀ c ∈ s.conditions, c.type ∉ Start.types release → c.isFinished = true

/-- the manifest that a pass finds is the one that the release has -/
def Pinned (release : String → ReleaseSpec) (ctx : Context) (t : Trace) : Prop :=
  ∀ m, ManifestPhase.Resolved ctx t (some m) → m.spec = release ctx.plan.spec.releaseVersion

/-- the plans that passes and edits lead to from one without a status; the manifest of each release
is always the same -/
inductive Reachable (release : String → ReleaseSpec) : UpgradePlan → Prop
  | new {plan} : plan.statusOr = {} → 1 ≤ plan.generation → Reachable release plan
  /-- a pass, the status of which is written -/
  | pass {ctx suffix t r after plan} : Reachable release ctx.plan →
      (step ctx suffix).Yields ctx.plan.statusOr t r after → Pinned release ctx t →
      plan.spec = ctx.plan.spec → plan.generation = ctx.plan.generation →
      plan.statusOr = after → Reachable release plan
  /-- nothing but the metadata changes; so it does when the status of a pass is lost -/
  | touched {old plan} : Reachable release old → plan.spec = old.spec →
      plan.generation = old.generation → plan.statusOr = old.statusOr → Reachable release plan
  | edited {old plan} : Reachable release old → Admission.update old plan = .ok () →
      plan.metadata.isTerminating = false → plan.statusOr = old.statusOr →
      old.generation < plan.generation → Reachable release plan

namespace Agreement

section
variable {release : ReleaseSpec} {generation : Int} {ctx : Context} {before after : Status}

/-- a start makes the components of the release pending; all other conditions were finished -/
theorem start {suffix : String} (now : Instant) (h : Agreement release generation before)
    (hne : before.observedGeneration ≠ generation) :
    Agreement release generation (Start.status now generation release suffix before) := by
  by_cases hsuffix : before.namingSuffix = some suffix
  · rwa [Start.status_of_used now generation release before hsuffix]
  have hobs := Start.observedGeneration_status now generation release before hsuffix
  refine ⟨Start.sound_status now generation release before h.sound, ?_, ?_, ?_, ?_⟩
  · exact Int.le_of_eq hobs
  · exact fun hne' => absurd hobs hne'
  · exact fun _ type htype => Start.recorded_status now generation release before hsuffix htype
  · intro _ c hc hforeign
    obtain hold | htype := Start.mem_or_status now generation release before hsuffix hc
    · exact h.settled hne c hold
    · exact absurd htype hforeign

theorem changes {target : Target} (h : Agreement release generation before)
    (hobs : before.observedGeneration = generation)
    (htype : ∀ type, target.type? = some type → type ∈ Start.types release)
    (hc : target.Changes ctx before after) : Agreement release generation after := by
  have hobs' : after.observedGeneration = generation := hc.observedGeneration_eq.trans hobs
  refine ⟨hc.sound h.sound, Int.le_of_eq hobs', fun hne => absurd hobs' hne, ?_, ?_⟩
  · exact fun _ type hmem => hc.mem_types (h.recorded hobs type hmem)
  · intro _ c hmem hforeign
    obtain hold | hown := hc.mem_or hmem
    · exact h.foreign hobs c hold hforeign
    · exact absurd (htype c.type hown) hforeign

/-- an edit is accepted only when every condition is finished, and the attempt for it has not been
started -/
theorem edited {old new : UpgradePlan} {release' : ReleaseSpec} {generation' : Int}
    (h : Agreement release generation old.statusOr) (ha : Admission.Accepted old new)
    (hstatus : new.statusOr = old.statusOr) (hlt : generation < generation') :
    Agreement release' generation' new.statusOr := by
  rw [hstatus]
  have hbounded := h.bounded
  have hne : old.statusOr.observedGeneration ≠ generation' := by omega
  refine ⟨h.sound, by omega, ?_, fun he => absurd he hne, fun he => absurd he hne⟩
  intro _ c hc
  have hunlocked : Admission.locks c.reason = false := ha.unlocked c (by rwa [hstatus])
  rw [Condition.isFinished_eq (h.sound.paired c hc), hunlocked]
  rfl

end

theorem step {release : String → ReleaseSpec} {ctx : Context} {suffix : String} {t : Trace}
    {r : Except UpgradeError Requeue} {before after : Status}
    (h : Agreement (release ctx.plan.spec.releaseVersion) ctx.plan.generation before)
    (hpin : Pinned release ctx t) (hs : (Upgrade.step ctx suffix).Yields before t r after) :
    Agreement (release ctx.plan.spec.releaseVersion) ctx.plan.generation after := by
  cases effect_of_yields hs with
  | keep => exact h
  | start m hresolved hne =>
    rw [← hpin m hresolved] at h ⊢
    exact h.start ctx.now hne
  | dispatch hd =>
    have hchanges := hd.changes
    cases hd with
    | intro m _ hresolved hobs _ =>
      rw [← hpin m (hresolved.append _)] at h ⊢
      exact h.changes hobs (fun type => type_mem_types) hchanges

end Agreement

namespace Reachable

theorem agreement {release : String → ReleaseSpec} {plan : UpgradePlan}
    (h : Reachable release plan) :
    Agreement (release plan.spec.releaseVersion) plan.generation plan.statusOr := by
  induction h with
  | @new plan hstatus hgeneration =>
    rw [hstatus]
    have hne : (0 : Int) ≠ plan.generation := by omega
    refine ⟨.empty, ?_, fun _ c hc => absurd hc List.not_mem_nil, fun he => absurd he hne,
      fun he => absurd he hne⟩
    show (0 : Int) ≤ plan.generation
    omega
  | pass _ hs hpin hspec hgeneration hstatus ih =>
    rw [hspec, hgeneration, hstatus]
    exact ih.step hpin hs
  | touched _ hspec hgeneration hstatus ih =>
    rw [hspec, hgeneration, hstatus]
    exact ih
  | edited _ hupdate hstays hstatus hlt ih =>
    exact ih.edited (Admission.accepted_of_update hupdate hstays) hstatus hlt

end Reachable

section
variable {release : ReleaseSpec} {generation : Int} {s : Status}
  (h : Agreement release generation s) (hobs : s.observedGeneration = generation)
include h hobs

/-- once the nodes are done, all workloads of the release are finished exactly if all conditions are,
those of earlier releases included -/
theorem openWorkload_eq_none_iff (hos : s.isSucceeded Status.osUpgraded = true)
    (hk : s.isSucceeded Status.kubernetesUpgraded = true) :
    (∀ c ∈ s.conditions, c.isFinished = true) ↔
      openWorkload? s release.components.workloads = none := by
  constructor
  · intro hall
    refine openWorkload_of_finished fun w hw => ?_
    have htype : Status.workloadUpgraded w.prettyName ∈ Start.types release :=
      Start.mem_types_iff.mpr (.inr (.inr ⟨w, hw, rfl⟩))
    obtain ⟨c, hc, hctype⟩ := Status.mem_types_iff.mp (h.recorded hobs _ htype)
    rw [← hctype, h.sound.isFinished_eq hc]
    exact hall c hc
  · intro hnone c hc
    by_cases htype : c.type ∈ Start.types release
    · rw [← h.sound.isFinished_eq hc]
      obtain he | he | ⟨w, hw, he⟩ := Start.mem_types_iff.mp htype
      · rw [he]
        exact Status.isFinished_of_isSucceeded hos
      · rw [he]
        exact Status.isFinished_of_isSucceeded hk
      · rw [he]
        exact finished_of_openWorkload hnone w hw
    · exact h.foreign hobs c hc htype

theorem phase_target :
    (target s release.components.workloads).phase = s.activePhase := by
  have hnonempty : s.conditions.isEmpty = false := by
    have hos : Status.osUpgraded ∈ s.types := h.recorded hobs _ (Start.mem_types_iff.mpr (.inl rfl))
    obtain ⟨c, hc, _⟩ := Status.mem_types_iff.mp hos
    exact List.isEmpty_eq_false_iff_exists_mem.mpr ⟨c, hc⟩
  unfold Status.activePhase
  rw [hnonempty]
  obtain ⟨hos, ht⟩ | ⟨hos, ⟨hk, ht⟩ | ⟨hk, hopen⟩⟩ := target_cases s release.components.workloads
  · rw [ht, hos]
    rfl
  · rw [ht, hos, hk]
    rfl
  -- the status looks at all conditions, what has its turn only at those of the release
  have hany : (s.conditions.any fun c => !s.isFinished c.type) = false ↔
      openWorkload? s release.components.workloads = none := by
    rw [← openWorkload_eq_none_iff h hobs hos hk, List.any_eq_false]
    refine forall₂_congr fun c hc => ?_
    rw [h.sound.isFinished_eq hc, Bool.not_eq_true', Bool.not_eq_false]
  obtain ⟨w, hw, ht⟩ | ⟨hnone, ht⟩ := hopen
  · have hopen : (s.conditions.any fun c => !s.isFinished c.type) = true := by
      refine Bool.not_eq_false _ ▸ fun he => ?_
      rw [hany.mp he] at hw
      cases hw
    rw [ht, hos, hk, hopen]
    rfl
  · rw [ht, hos, hk, hany.mpr hnone]
    rfl

end

section
variable {release : String → ReleaseSpec} {ctx : Context} (h : Reachable release ctx.plan)
include h

/-- the last release changes only when all conditions are finished -/
theorem Reachable.finished_of_reached {suffix : String} {t : Trace}
    {r : Except UpgradeError Requeue} {after : Status}
    (hs : (step ctx suffix).Yields ctx.plan.statusOr t r after) (hpin : Pinned release ctx t)
    (hne : after.lastSuccessfulRelease ≠ ctx.plan.statusOr.lastSuccessfulRelease) :
    ∀ c ∈ after.conditions, c.isFinished = true := by
  cases effect_of_yields hs with
  | keep => exact absurd rfl hne
  | start m => exact absurd (Start.lastSuccessfulRelease_status ..) hne
  | @dispatch turn _ hd =>
    have hchanges := hd.changes
    have hcomplete : turn = .complete :=
      Classical.not_not.mp fun hother => hne (hchanges.lastSuccessfulRelease_eq hother)
    cases hd with
    | intro m _ hresolved hobs _ =>
      obtain ⟨hos, hk, hnone⟩ := of_target_complete hcomplete
      rw [hcomplete] at hchanges
      rw [hchanges.conditions_of_complete]
      have hspec := hpin m (hresolved.append _)
      exact (openWorkload_eq_none_iff (hspec ▸ h.agreement) hobs hos hk).mpr hnone

/-- in every plan that passes and edits lead to: once the manifest has been found and the attempt has
been started, a pass does exactly what the phase that the status reports does, which is never the
start; and whenever a pass changes the last release, all conditions are finished, those of earlier
releases included -/
theorem Reachable.works_as_reported (suffix : String) :
    (∀ (manifests : List ReleaseManifest) (m : ReleaseManifest),
      manifests.find? (fun m => m.spec.releaseVersion = ctx.plan.spec.releaseVersion) = some m →
      m.spec = release ctx.plan.spec.releaseVersion →
      ctx.plan.statusOr.observedGeneration = ctx.plan.generation →
      let turn := target ctx.plan.statusOr m.spec.components.workloads
      turn.phase = ctx.plan.statusOr.activePhase ∧
        ctx.plan.statusOr.activePhase ≠ .starting ∧
        ∀ t r after,
          (step ctx suffix).Yields ctx.plan.statusOr
            (.listed .releaseManifest (some (ManifestPhase.planNamespace ctx)) manifests :: t) r
            after ↔ (turn.step ctx m.spec).Yields ctx.plan.statusOr t r after) ∧
    ∀ t r after, (step ctx suffix).Yields ctx.plan.statusOr t r after → Pinned release ctx t →
      after.lastSuccessfulRelease ≠ ctx.plan.statusOr.lastSuccessfulRelease →
      ∀ c ∈ after.conditions, c.isFinished = true := by
  refine ⟨fun manifests m hfind hspec hobs => ?_, fun t r after hs hpin hne => ?_⟩
  · have hphase := phase_target (hspec ▸ h.agreement) hobs
    refine ⟨hphase, ?_, fun t r after => step_yields_iff hfind hobs⟩
    rw [← hphase]
    exact Target.phase_ne_starting _
  · exact h.finished_of_reached hs hpin hne

end

end Upgrade

namespace OneNode

/-- a later release, without workloads -/
def laterRelease : ReleaseSpec where
  releaseVersion := "v3.2.0"
  components := { operatingSystem := os, kubernetes := targets }

/-- the release of a version -/
def releaseOf (version : String) : ReleaseSpec :=
  if version = "3.1.0" then release else laterRelease

/-- the plan after an edit that asks for the later release -/
def editedAt (revision : String) (status : Option Status) : UpgradePlan :=
  { planAt revision status with
    metadata := { (planAt revision status).metadata with generation := some 2 }
    spec := { releaseVersion := "v3.2.0" } }

def restarted : Status := Start.status ⟨0, 0⟩ 2 laterRelease "5f6a7b8c9d" reached

def systemDoneLater : Status :=
  restarted.setCondition ⟨0, 0⟩ Status.osUpgraded .succeeded "All cluster nodes are upgraded"

def nodesDoneLater : Status :=
  systemDoneLater.setCondition ⟨0, 0⟩ Status.kubernetesUpgraded .succeeded
    "All cluster nodes are upgraded"

section
variable (revision : String)

/-- the manifest of the later release has been found -/
abbrev foundLater : Exchange :=
  .listed .releaseManifest (some "lifecycle-system") [{ spec := laterRelease }]

theorem restart_yields :
    (Upgrade.step (contextAt (editedAt revision reached)) "5f6a7b8c9d").Yields reached [foundLater]
      (.ok .immediately) restarted :=
  ⟨.ok [{ spec := laterRelease }], _, rfl, rfl, rfl⟩

theorem system_later_yields :
    (Upgrade.step (contextAt (editedAt revision restarted)) "ffffffffff").Yields restarted
      [foundLater, .listed .node none [node],
        .got .secret "cattle-system" "os-upgrade-secret-5f6a7b8c9d" (some {}),
        .got .nodePlan "cattle-system" "control-plane-sl-micro-6-0-5f6a7b8c9d" (some {})]
      (.ok .immediately) systemDoneLater :=
  ⟨.ok [{ spec := laterRelease }], _, rfl, .ok [node], _, rfl, .ok (some {}), _, rfl, .ok (some {}),
    _, rfl, rfl, rfl⟩

theorem distribution_later_yields :
    (Upgrade.step (contextAt (editedAt revision systemDoneLater)) "ffffffffff").Yields
      systemDoneLater
      [foundLater, .listed .node none [node],
        .got .nodePlan "cattle-system" "control-plane-v1.30.3-rke2r1-5f6a7b8c9d" (some {}),
        .got .helmChart "kube-system" "rke2-coredns" none]
      (.ok .immediately) nodesDoneLater :=
  ⟨.ok [{ spec := laterRelease }], _, rfl, .ok [node], _, rfl, .ok (some {}), _, rfl, .ok none, _,
    rfl, rfl, rfl⟩

end

theorem update_later : Admission.update (planAt "6" reached) (editedAt "7" reached) = .ok () := rfl

/-- the first attempt comes to its end, the plan is edited, and the nodes follow to the later
release; the condition of the workload that it does not have any more is still there -/
theorem reachable_later : Upgrade.Reachable releaseOf (editedAt "10" nodesDoneLater) := by
  have h₁ : Upgrade.Reachable releaseOf (planAt "1" none) := .new rfl (by decide)
  have h₂ : Upgrade.Reachable releaseOf (planAt "2" started) :=
    .pass h₁ (start_yields "1") (fun _ => spec_of_resolved (by simp)) rfl rfl rfl
  have h₃ : Upgrade.Reachable releaseOf (planAt "3" systemDone) :=
    .pass h₂ (system_step_yields "2") (fun _ => spec_of_resolved (by simp)) rfl rfl rfl
  have h₄ : Upgrade.Reachable releaseOf (planAt "4" nodesDone) :=
    .pass h₃ (distribution_step_yields "3") (fun _ => spec_of_resolved (by simp)) rfl rfl rfl
  have h₅ : Upgrade.Reachable releaseOf (planAt "5" metalDone) :=
    .pass h₄ (metal_step_yields "4") (fun _ => spec_of_resolved (by simp)) rfl rfl rfl
  have h₆ : Upgrade.Reachable releaseOf (planAt "6" reached) :=
    .pass h₅ (complete_step_yields "5") (fun _ => spec_of_resolved (by simp)) rfl rfl rfl
  have h₇ : Upgrade.Reachable releaseOf (editedAt "7" reached) :=
    .edited h₆ update_later rfl rfl (by decide)
  have h₈ : Upgrade.Reachable releaseOf (editedAt "8" restarted) :=
    .pass h₇ (restart_yields "7") (fun _ => spec_of_resolved (by simp)) rfl rfl rfl
  have h₉ : Upgrade.Reachable releaseOf (editedAt "9" systemDoneLater) :=
    .pass h₈ (system_later_yields "8") (fun _ => spec_of_resolved (by simp)) rfl rfl rfl
  exact .pass h₉ (distribution_later_yields "9") (fun _ => spec_of_resolved (by simp)) rfl rfl rfl

end OneNode

theorem Upgrade.Reachable.works_as_reported_oneNode :
    OneNode.nodesDoneLater.activePhase = .completed ∧
      "Metal3Upgraded" ∈ OneNode.nodesDoneLater.types ∧
      ∀ t r after,
        (Upgrade.step (OneNode.contextAt (OneNode.editedAt "10" OneNode.nodesDoneLater))
          "ffffffffff").Yields OneNode.nodesDoneLater (OneNode.foundLater :: t) r after ↔
        (Upgrade.complete (OneNode.contextAt (OneNode.editedAt "10" OneNode.nodesDoneLater))).Yields
          OneNode.nodesDoneLater t r after := by
  have hreachable : Upgrade.Reachable OneNode.releaseOf
      (OneNode.contextAt (OneNode.editedAt "10" OneNode.nodesDoneLater)).plan :=
    OneNode.reachable_later
  obtain ⟨hphase, _, hiff⟩ := (Upgrade.Reachable.works_as_reported hreachable "ffffffffff").1
    [{ spec := OneNode.laterRelease }] { spec := OneNode.laterRelease } rfl rfl rfl
  exact ⟨hphase.symm, by decide, hiff⟩

end ReleaseUpgrade
