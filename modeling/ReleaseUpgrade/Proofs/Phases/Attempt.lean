import ReleaseUpgrade.Proofs.Phases.Convergence
import ReleaseUpgrade.Proofs.Phases.Dispatch

/-!
# Workloads that an attempt reaches

How far an attempt has come is known from its conditions alone, and the type of the condition of a
workload is its name without blanks.  So an attempt that comes to its end has worked on a workload
exactly if no earlier one has the same type, and neither has a phase of the nodes.

* `Round`, `Attempt`           the passes over one generation of a plan;
* `Keyed`                      the type of the workload's condition tells of no other component;
* `keyed_of_target`            only such a workload is ever worked on;
* `Attempt.finished_of_keyed`  if one is finished, some pass has worked on it and left it so;
* `Attempt.finishes_iff_keyed` at the end these are all workloads that have been worked on.
-/

namespace ReleaseUpgrade

namespace Status

theorem workloadUpgraded_inj {a b : String} :
    workloadUpgraded a = workloadUpgraded b ↔ Text.compact a = Text.compact b :=
  String.append_left_inj "Upgraded"

theorem workloadUpgraded_eq_osUpgraded {a : String} :
    workloadUpgraded a = osUpgraded ↔ Text.compact a = "OS" := by
  have hos : osUpgraded = "OS" ++ "Upgraded" := by decide
  rw [hos]
  exact String.append_left_inj "Upgraded"

theorem workloadUpgraded_eq_kubernetesUpgraded {a : String} :
    workloadUpgraded a = kubernetesUpgraded ↔ Text.compact a = "Kubernetes" := by
  have hk : kubernetesUpgraded = "Kubernetes" ++ "Upgraded" := by decide
  rw [hk]
  exact String.append_left_inj "Upgraded"

end Status

namespace Upgrade

/-- the workload is the first one with its name, blanks aside, and the name is not that of the
operating system or of the distribution -/
structure Keyed (workloads : List ReleaseChart) (w : ReleaseChart) : Prop where
  first : workloads.find? (fun v => Text.compact v.prettyName = Text.compact w.prettyName) = some w
  ne_system : Text.compact w.prettyName ≠ "OS"
  ne_distribution : Text.compact w.prettyName ≠ "Kubernetes"

section
variable {before : Status} {workloads : List ReleaseChart} {v w : ReleaseChart}

/-- a workload that has its turn is the first one with its name -/
theorem first_of_openWorkload (h : openWorkload? before workloads = some w) :
    workloads.find? (fun v => Text.compact v.prettyName = Text.compact w.prettyName) = some w := by
  obtain ⟨hw, pre, post, hsplit, hpre⟩ := turn_of_openWorkload h
  refine List.find?_eq_some_iff_append.mpr ⟨decide_eq_true rfl, pre, post, hsplit, fun u hu => ?_⟩
  rw [Bool.not_eq_true', decide_eq_false_iff_not]
  intro hname
  have hu : before.isFinished (Status.workloadUpgraded u.prettyName) = true := hpre u hu
  rw [Status.workloadUpgraded_inj.mpr hname, hw] at hu
  cases hu

/-- a workload that has its turn shares its condition neither with an earlier one nor with the nodes,
which are done by then -/
theorem keyed_of_target (h : target before workloads = .workload w) : Keyed workloads w := by
  obtain ⟨hos, hk, hw⟩ := of_target_workload h
  obtain ⟨hopen, _⟩ := turn_of_openWorkload hw
  refine ⟨first_of_openWorkload hw, fun hname => ?_, fun hname => ?_⟩
  · rw [Status.workloadUpgraded_eq_osUpgraded.mpr hname,
      Status.isFinished_of_isSucceeded hos] at hopen
    cases hopen
  · rw [Status.workloadUpgraded_eq_kubernetesUpgraded.mpr hname,
      Status.isFinished_of_isSucceeded hk] at hopen
    cases hopen

theorem target_of_type (hw : Keyed workloads w)
    (h : (target before workloads).type? = some (Status.workloadUpgraded w.prettyName)) :
    target before workloads = .workload w := by
  obtain ⟨_, ht⟩ | ⟨_, ⟨_, ht⟩ | ⟨_, ⟨v, hv, ht⟩ | ⟨_, ht⟩⟩⟩ := target_cases before workloads
  · rw [ht] at h
    exact absurd (Status.workloadUpgraded_eq_osUpgraded.mp (Option.some.inj h).symm) hw.ne_system
  · rw [ht] at h
    exact absurd (Status.workloadUpgraded_eq_kubernetesUpgraded.mp (Option.some.inj h).symm)
      hw.ne_distribution
  · rw [ht] at h
    have hname := Status.workloadUpgraded_inj.mp (Option.some.inj h)
    have hfirst := first_of_openWorkload hv
    rw [hname, hw.first] at hfirst
    rw [ht, Option.some.inj hfirst]
  · rw [ht] at h
    cases h

end

/-- a pass: what it starts from, what it does and the status that it leaves -/
structure Round where
  ctx : Context
  suffix : String
  before : Status
  trace : Trace
  outcome : Except UpgradeError Requeue
  after : Status
  ran : (step ctx suffix).Yields before trace outcome after

namespace Round

/-- the pass works on a target -/
def WorksOn (round : Round) (target : Target) : Prop :=
  Dispatched round.ctx round.before target round.trace round.outcome round.after

/-- the pass keeps the status, or starts the attempt, or works on a target -/
theorem effect (round : Round) : round.after = round.before ∨
    (∃ m, ManifestPhase.Resolved round.ctx round.trace (some m) ∧
      round.before.observedGeneration ≠ round.ctx.plan.generation ∧
      round.after = Start.status round.ctx.now round.ctx.plan.generation m.spec round.suffix
        round.before) ∨
    ∃ target, round.WorksOn target := by
  obtain ⟨ctx, suffix, before, trace, outcome, after, ran⟩ := round
  cases effect_of_yields ran with
  | keep => exact .inl rfl
  | start m hresolved hne => exact .inr (.inl ⟨m, hresolved, hne, rfl⟩)
  | dispatch hd => exact .inr (.inr ⟨_, hd⟩)

/-- the pass works on a workload and leaves it finished -/
def Finishes (round : Round) (w : ReleaseChart) : Prop :=
  round.WorksOn (.workload w) ∧
    round.after.isFinished (Status.workloadUpgraded w.prettyName) = true

end Round

/-- passes over one generation of a plan, one after the other, with one manifest; the status that a
pass leaves is written or lost -/
inductive Attempt (release : ReleaseSpec) (generation : Int) (start : Status) :
    List Round → Status → Prop
  | nil : Attempt release generation start [] start
  | pass {rounds next} (round : Round) : Attempt release generation start rounds round.before →
      round.ctx.plan.generation = generation →
      (∀ m, ManifestPhase.Resolved round.ctx round.trace (some m) → m.spec = release) →
      next = round.after ∨ next = round.before →
      Attempt release generation start (rounds ++ [round]) next

section
variable {release : ReleaseSpec} {generation : Int} {start current : Status}
  {rounds : List Round} {w : ReleaseChart}

/-- the manifest of a pass that works on a target is the one that it has found -/
theorem Round.WorksOn.target_eq {round : Round} {turn : Target} (h : round.WorksOn turn)
    (hpin : ∀ m, ManifestPhase.Resolved round.ctx round.trace (some m) → m.spec = release) :
    turn = target round.before release.components.workloads ∧
      round.before.observedGeneration = round.ctx.plan.generation := by
  obtain ⟨ctx, suffix, before, trace, outcome, after, ran⟩ := round
  cases h with
  | intro m _ hresolved hobs _ =>
    rw [← hpin m (hresolved.append _)]
    exact ⟨rfl, hobs⟩

namespace Attempt

/-- the passes of an attempt all find the manifest of the release -/
theorem pinned (h : Attempt release generation start rounds current) {round : Round}
    (hmem : round ∈ rounds) :
    ∀ m, ManifestPhase.Resolved round.ctx round.trace (some m) → m.spec = release := by
  induction h with
  | nil => cases hmem
  | pass last _ _ hpin _ ih =>
    obtain hmem | hlast := List.mem_append.mp hmem
    · exact ih hmem
    · rw [List.mem_singleton.mp hlast]
      exact hpin

theorem keyed_of_finishes (h : Attempt release generation start rounds current) {round : Round}
    (hmem : round ∈ rounds) (hw : round.Finishes w) : Keyed release.components.workloads w :=
  keyed_of_target (hw.1.target_eq (h.pinned hmem)).1.symm

/-- once the attempt has been started, a workload is finished only if a pass has worked on it and
has left it so -/
theorem finished_of_keyed (h : Attempt release generation start rounds current)
    (hstart : start.observedGeneration ≠ generation) (hw : Keyed release.components.workloads w)
    (hobs : current.observedGeneration = generation)
    (hfinished : current.isFinished (Status.workloadUpgraded w.prettyName) = true) :
    ∃ round ∈ rounds, round.Finishes w := by
  induction h with
  | nil => exact absurd hobs hstart
  | @pass rounds next round hprev hgeneration hpin hnext ih =>
    have earlier (hold : ∃ round ∈ rounds, round.Finishes w) :
        ∃ round' ∈ rounds ++ [round], round'.Finishes w := by
      obtain ⟨round', hmem, hround'⟩ := hold
      exact ⟨round', List.mem_append_left _ hmem, hround'⟩
    obtain rfl | rfl := hnext
    case inr => exact earlier (ih hobs hfinished)
    obtain hkept | ⟨m, hresolved, hne, hafter⟩ | ⟨turn, hturn⟩ := round.effect
    · rw [hkept] at hobs hfinished
      exact earlier (ih hobs hfinished)
    · -- the start makes all workloads of the release pending
      obtain hused | hunused := Classical.em (round.before.namingSuffix = some round.suffix)
      · rw [hafter, Start.status_of_used _ _ _ _ hused, ← hgeneration] at hobs
        exact absurd hobs hne
      · rw [hafter, hpin m hresolved, Start.isFinished_status _ _ _ _ hunused] at hfinished
        · cases hfinished
        · exact Start.mem_types_iff.mpr (.inr (.inr ⟨w, List.mem_of_find?_eq_some hw.first, rfl⟩))
    · obtain ⟨rfl, hstarted⟩ := hturn.target_eq hpin
      by_cases htype : (target round.before release.components.workloads).type? =
          some (Status.workloadUpgraded w.prettyName)
      · rw [target_of_type hw htype] at hturn
        exact ⟨round, List.mem_append_right _ (List.mem_singleton.mpr rfl), hturn, hfinished⟩
      · rw [hturn.changes.isFinished_eq htype] at hfinished
        exact earlier (ih (hstarted.trans hgeneration) hfinished)

/-- when a pass comes to the end, every workload is finished that has a condition of its own, so some
pass has worked on it -/
theorem finishes_of_keyed (h : Attempt release generation start rounds current)
    (hstart : start.observedGeneration ≠ generation) {last : Round} (hmem : last ∈ rounds)
    (hdone : last.WorksOn .complete) (hw : Keyed release.components.workloads w) :
    ∃ round ∈ rounds, round.Finishes w := by
  induction h with
  | nil => cases hmem
  | @pass rounds next round hprev hgeneration hpin hnext ih =>
    suffices hfound : ∃ round ∈ rounds, round.Finishes w by
      obtain ⟨round', hmem', hround'⟩ := hfound
      exact ⟨round', List.mem_append_left _ hmem', hround'⟩
    obtain hmem | hlast := List.mem_append.mp hmem
    · exact ih hmem
    rw [List.mem_singleton.mp hlast] at hdone
    obtain ⟨hturn, hobs⟩ := hdone.target_eq hpin
    obtain ⟨_, _, hnone⟩ := of_target_complete hturn.symm
    refine hprev.finished_of_keyed hstart hw (hobs.trans hgeneration) ?_
    exact finished_of_openWorkload hnone w (List.mem_of_find?_eq_some hw.first)

/-- in an attempt that comes to its end, whatever the cluster answers and whichever statuses are
lost: the requested release is noted as reached, and the workloads that some pass has worked on and
left finished are those that are the first of their name, blanks aside, and are not called as the
operating system or the distribution is -/
theorem finishes_iff_keyed (h : Attempt release generation start rounds current)
    (hstart : start.observedGeneration ≠ generation) {last : Round} (hmem : last ∈ rounds)
    (hdone : last.WorksOn .complete) :
    last.after.lastSuccessfulRelease = some last.ctx.plan.spec.releaseVersion ∧
      ∀ w ∈ release.components.workloads, (∃ round ∈ rounds, round.Finishes w) ↔
        Keyed release.components.workloads w := by
  refine ⟨hdone.changes.lastSuccessfulRelease_of_complete, fun w _ => ⟨?_, fun hw => ?_⟩⟩
  · rintro ⟨round, hround, hw⟩
    exact h.keyed_of_finishes hround hw
  · exact h.finishes_of_keyed hstart hmem hdone hw

end Attempt

end

end Upgrade

namespace OneNode

/-- two workloads whose names differ in a blank only -/
def metal : ReleaseChart :=
  { releaseName := "metal3", name := "metal3", version := "0.8.0", prettyName := "Metal 3" }

def metalAgain : ReleaseChart :=
  { releaseName := "metal3-ui", name := "metal3-ui", version := "0.8.0", prettyName := "Metal3" }

def release : ReleaseSpec where
  releaseVersion := "3.1.0"
  components := { operatingSystem := os, kubernetes := targets, workloads := [metal, metalAgain] }

/-- the plan in one of its stored versions -/
def planAt (revision : String) (status : Option Status) : UpgradePlan where
  metadata := {
    name := some "upgrade"
    ns := some "lifecycle-system"
    generation := some 1
    resourceVersion := some revision
    finalizers := some ["lifecycle.ruo.io/finalizer"] }
  spec := { releaseVersion := "3.1.0" }
  status

def contextAt (plan : UpgradePlan) : Context := { settings := {}, plan, now := ⟨0, 0⟩ }

def started : Status := Start.status ⟨0, 0⟩ 1 release "0a1b2c3d4e" {}

def systemDone : Status :=
  started.setCondition ⟨0, 0⟩ Status.osUpgraded .succeeded "All cluster nodes are upgraded"

def nodesDone : Status :=
  systemDone.setCondition ⟨0, 0⟩ Status.kubernetesUpgraded .succeeded
    "All cluster nodes are upgraded"

def metalDone : Status :=
  nodesDone.setCondition ⟨0, 0⟩ "Metal3Upgraded" .skipped "Chart metal3 is not installed"

def reached : Status := { metalDone with lastSuccessfulRelease := some "3.1.0" }

/-- a pass that lists one manifest finds no other -/
theorem spec_of_resolved {ctx : Context} {release : ReleaseSpec} {t : Trace} {m : ReleaseManifest}
    (hrest : ∀ x ∈ t, ∀ ns manifests, x ≠ .listed .releaseManifest ns manifests)
    (h : ManifestPhase.Resolved ctx
      (.listed .releaseManifest (some (ManifestPhase.planNamespace ctx)) [{ spec := release }] :: t)
      (some m)) : m.spec = release := by
  obtain ⟨manifests, hmem, hfind⟩ := h
  obtain he | hmem := List.mem_cons.mp hmem
  · cases he
    rw [List.mem_singleton.mp (List.mem_of_find?_eq_some hfind)]
  · exact absurd rfl (hrest _ hmem _ _)

section
variable (revision : String)

/-- the manifest has been found -/
abbrev found : Exchange := .listed .releaseManifest (some "lifecycle-system") [{ spec := release }]

theorem start_yields :
    (Upgrade.step (contextAt (planAt revision none)) "0a1b2c3d4e").Yields {} [found]
      (.ok .immediately) started :=
  ⟨.ok [{ spec := release }], _, rfl, rfl, rfl⟩

theorem system_step_yields :
    (Upgrade.step (contextAt (planAt revision started)) "ffffffffff").Yields started
      [found, .listed .node none [node],
        .got .secret "cattle-system" "os-upgrade-secret-0a1b2c3d4e" (some {}),
        .got .nodePlan "cattle-system" "control-plane-sl-micro-6-0-0a1b2c3d4e" (some {})]
      (.ok .immediately) systemDone :=
  ⟨.ok [{ spec := release }], _, rfl, .ok [node], _, rfl, .ok (some {}), _, rfl, .ok (some {}), _,
    rfl, rfl, rfl⟩

theorem distribution_step_yields :
    (Upgrade.step (contextAt (planAt revision systemDone)) "ffffffffff").Yields systemDone
      [found, .listed .node none [node],
        .got .nodePlan "cattle-system" "control-plane-v1.30.3-rke2r1-0a1b2c3d4e" (some {}),
        .got .helmChart "kube-system" "rke2-coredns" none]
      (.ok .immediately) nodesDone :=
  ⟨.ok [{ spec := release }], _, rfl, .ok [node], _, rfl, .ok (some {}), _, rfl, .ok none, _, rfl,
    rfl, rfl⟩

theorem metal_step_yields :
    (Upgrade.step (contextAt (planAt revision nodesDone)) "ffffffffff").Yields nodesDone
      [found, .listed .helmChart none [], .found "metal3" none] (.ok .immediately) metalDone :=
  ⟨.ok [{ spec := release }], _, rfl, .ok [], _, rfl, .ok none, _, rfl, rfl, rfl⟩

theorem complete_step_yields :
    (Upgrade.step (contextAt (planAt revision metalDone)) "ffffffffff").Yields metalDone
      [found, ⟨.publishEvent (planAt revision metalDone)
        ⟨.normal, "UpgradeCompleted", "Upgrade to release 3.1.0 completed"⟩, .ok ()⟩]
      (.ok none) reached :=
  ⟨.ok [{ spec := release }], _, rfl, .ok (), _, rfl, rfl, rfl⟩

end

def startRound : Upgrade.Round := ⟨_, _, _, _, _, _, start_yields "1"⟩

def systemRound : Upgrade.Round := ⟨_, _, _, _, _, _, system_step_yields "2"⟩

def distributionRound : Upgrade.Round := ⟨_, _, _, _, _, _, distribution_step_yields "3"⟩

def metalRound : Upgrade.Round := ⟨_, _, _, _, _, _, metal_step_yields "4"⟩

def completeRound : Upgrade.Round := ⟨_, _, _, _, _, _, complete_step_yields "5"⟩

/-- the passes of an attempt that comes to its end -/
def rounds : List Upgrade.Round :=
  [startRound, systemRound, distributionRound, metalRound, completeRound]

theorem attempt : Upgrade.Attempt release 1 {} rounds reached := by
  have h₁ : Upgrade.Attempt release 1 {} [startRound] started :=
    .pass startRound .nil rfl (fun _ => spec_of_resolved (by simp)) (.inl rfl)
  have h₂ : Upgrade.Attempt release 1 {} [startRound, systemRound] systemDone :=
    .pass systemRound h₁ rfl (fun _ => spec_of_resolved (by simp)) (.inl rfl)
  have h₃ : Upgrade.Attempt release 1 {} [startRound, systemRound, distributionRound] nodesDone :=
    .pass distributionRound h₂ rfl (fun _ => spec_of_resolved (by simp)) (.inl rfl)
  have h₄ : Upgrade.Attempt release 1 {} [startRound, systemRound, distributionRound, metalRound]
      metalDone :=
    .pass metalRound h₃ rfl (fun _ => spec_of_resolved (by simp)) (.inl rfl)
  exact .pass completeRound h₄ rfl (fun _ => spec_of_resolved (by simp)) (.inl rfl)

theorem complete_worksOn : completeRound.WorksOn .complete :=
  .intro { spec := release } (u := [found]) (Trace.quiet_single rfl)
    ⟨[{ spec := release }], List.mem_cons_self, rfl⟩ rfl
    ⟨.ok (), _, rfl, rfl, rfl⟩

theorem not_keyed_metalAgain : ¬Upgrade.Keyed release.components.workloads metalAgain := by
  intro h
  have hfirst : some metal = some metalAgain := h.first
  exact absurd (congrArg (Option.map ReleaseChart.releaseName) hfirst) (by decide)

end OneNode

theorem Upgrade.Attempt.finishes_iff_keyed_oneNode :
    (∃ round ∈ OneNode.rounds, round.Finishes OneNode.metal) ∧
      ¬∃ round ∈ OneNode.rounds, round.Finishes OneNode.metalAgain := by
  have hlast : OneNode.completeRound ∈ OneNode.rounds :=
    List.mem_of_getLast? (l := OneNode.rounds) rfl
  obtain ⟨_, hiff⟩ := Upgrade.Attempt.finishes_iff_keyed OneNode.attempt (by decide) hlast
    OneNode.complete_worksOn
  refine ⟨(hiff OneNode.metal List.mem_cons_self).mpr ⟨rfl, by decide, by decide⟩, fun h => ?_⟩
  have hmem : OneNode.metalAgain ∈ OneNode.release.components.workloads :=
    List.mem_cons_of_mem _ List.mem_cons_self
  exact OneNode.not_keyed_metalAgain ((hiff OneNode.metalAgain hmem).mp h)

/-- two workloads whose names differ in a blank share one condition, so an attempt can come to its
end with no pass that has worked on the second one -/
theorem Upgrade.Attempt.workload_lost :
    ¬∀ (release : ReleaseSpec) (generation : Int) (start current : Status)
      (rounds : List Upgrade.Round) (last : Upgrade.Round),
      (release.components.workloads.map (·.prettyName)).Nodup →
      start.observedGeneration ≠ generation →
      Upgrade.Attempt release generation start rounds current → last ∈ rounds →
      last.WorksOn .complete →
      ∀ w ∈ release.components.workloads, ∃ round ∈ rounds, round.Finishes w := by
  intro h
  have hlast : OneNode.completeRound ∈ OneNode.rounds :=
    List.mem_of_getLast? (l := OneNode.rounds) rfl
  obtain ⟨round, hmem, hw⟩ := h OneNode.release 1 {} OneNode.reached OneNode.rounds
    OneNode.completeRound (by decide) (by decide) OneNode.attempt hlast OneNode.complete_worksOn
    OneNode.metalAgain (List.mem_cons_of_mem _ List.mem_cons_self)
  exact OneNode.not_keyed_metalAgain (OneNode.attempt.keyed_of_finishes hmem hw)

end ReleaseUpgrade
