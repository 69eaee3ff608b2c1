import ReleaseUpgrade.Proofs.Phases.Frame
import ReleaseUpgrade.Proofs.Phases.Run
import ReleaseUpgrade.Proofs.Phases.Start

/-!
# What has its turn

Once the manifest is there and the attempt has been started, the status alone says what a pass works
on, and the pass then does what that phase does.

* `Target`, `target`          what a pass works on, and what has its turn in a status;
* `step_yields_iff`           the traces of such a pass are those of its target;
* `Target.Changes`            what a target changes in the status;
* `effect_of_yields`          every pass keeps the status, or starts the attempt, or is such a pass.
-/

namespace ReleaseUpgrade

/-- how many times what the plan asks for has been changed -/
def UpgradePlan.generation (p : UpgradePlan) : Int := p.metadata.generation.getD 0

namespace Upgrade

/-- what a pass works on while an attempt is under way -/
inductive Target where
  | system
  | distribution
  | workload (w : ReleaseChart)
  | complete

namespace Target

/-- the phase that the target is worked on in -/
def phase : Target → Phase
  | .system => .operatingSystem
  | .distribution => .kubernetes
  | .workload _ => .workloads
  | .complete => .completed

/-- the type of the condition of the target -/
def type? : Target → Option String
  | .system => some Status.osUpgraded
  | .distribution => some Status.kubernetesUpgraded
  | .workload w => some (Status.workloadUpgraded w.prettyName)
  | .complete => none

theorem phase_ne_starting (target : Target) : target.phase ≠ .starting := by
  cases target <;> exact fun h => nomatch h

/-- a step of the target -/
def step (ctx : Context) (release : ReleaseSpec) : Target → Step Requeue
  | .system => SystemPhase.step ctx release.releaseVersion release.components.operatingSystem
  | .distribution => DistributionPhase.step ctx release.components.kubernetes
  | .workload w => Workload.step ctx w
  | .complete => Upgrade.complete ctx

end Target

/-- what has its turn -/
def target (status : Status) (workloads : List ReleaseChart) : Target :=
  if !status.isSucceeded Status.osUpgraded then .system
  else if !status.isSucceeded Status.kubernetesUpgraded then .distribution
  else
    match openWorkload? status workloads with
    | some w => .workload w
    | none => .complete

section
variable {before : Status} {workloads : List ReleaseChart}

theorem target_of_system (h : before.isSucceeded Status.osUpgraded = false) :
    target before workloads = .system := by
  rw [target, h]
  rfl

theorem target_of_distribution (hos : before.isSucceeded Status.osUpgraded = true)
    (h : before.isSucceeded Status.kubernetesUpgraded = false) :
    target before workloads = .distribution := by
  rw [target, hos, h]
  rfl

theorem target_of_workload {w : ReleaseChart} (hos : before.isSucceeded Status.osUpgraded = true)
    (hk : before.isSucceeded Status.kubernetesUpgraded = true)
    (h : openWorkload? before workloads = some w) : target before workloads = .workload w := by
  rw [target, hos, hk, h]
  rfl

theorem target_of_complete (hos : before.isSucceeded Status.osUpgraded = true)
    (hk : before.isSucceeded Status.kubernetesUpgraded = true)
    (h : openWorkload? before workloads = none) : target before workloads = .complete := by
  rw [target, hos, hk, h]
  rfl

/-- what has its turn is told by which conditions are true and which are finished -/
theorem target_cases (before : Status) (workloads : List ReleaseChart) :
    (before.isSucceeded Status.osUpgraded = false ∧ target before workloads = .system) ∨
      before.isSucceeded Status.osUpgraded = true ∧
        ((before.isSucceeded Status.kubernetesUpgraded = false ∧
            target before workloads = .distribution) ∨
          before.isSucceeded Status.kubernetesUpgraded = true ∧
            ((∃ w, openWorkload? before workloads = some w ∧
                target before workloads = .workload w) ∨
              openWorkload? before workloads = none ∧ target before workloads = .complete)) := by
  cases hos : before.isSucceeded Status.osUpgraded with
  | false => exact .inl ⟨rfl, target_of_system hos⟩
  | true =>
    refine .inr ⟨rfl, ?_⟩
    cases hk : before.isSucceeded Status.kubernetesUpgraded with
    | false => exact .inl ⟨rfl, target_of_distribution hos hk⟩
    | true =>
      refine .inr ⟨rfl, ?_⟩
      cases hopen : openWorkload? before workloads with
      | some w => exact .inl ⟨w, rfl, target_of_workload hos hk hopen⟩
      | none => exact .inr ⟨rfl, target_of_complete hos hk hopen⟩

/-- a workload has its turn once the nodes are done and it is the first one that is left -/
theorem of_target_workload {w : ReleaseChart} (h : target before workloads = .workload w) :
    before.isSucceeded Status.osUpgraded = true ∧
      before.isSucceeded Status.kubernetesUpgraded = true ∧
      openWorkload? before workloads = some w := by
  obtain ⟨_, ht⟩ | ⟨hos, ⟨_, ht⟩ | ⟨hk, ⟨v, hv, ht⟩ | ⟨_, ht⟩⟩⟩ := target_cases before workloads
  · rw [ht] at h
    cases h
  · rw [ht] at h
    cases h
  · rw [ht] at h
    cases h
    exact ⟨hos, hk, hv⟩
  · rw [ht] at h
    cases h

/-- the end has its turn once the nodes are done and no workload is left -/
theorem of_target_complete (h : target before workloads = .complete) :
    before.isSucceeded Status.osUpgraded = true ∧
      before.isSucceeded Status.kubernetesUpgraded = true ∧
      openWorkload? before workloads = none := by
  obtain ⟨_, ht⟩ | ⟨hos, ⟨_, ht⟩ | ⟨hk, ⟨_, _, ht⟩ | ⟨hnone, _⟩⟩⟩ := target_cases before workloads
  · rw [ht] at h
    cases h
  · rw [ht] at h
    cases h
  · rw [ht] at h
    cases h
  · exact ⟨hos, hk, hnone⟩

/-- the condition of the target is one of those of the release -/
theorem type_mem_types {release : ReleaseSpec} {type : String}
    (h : (target before release.components.workloads).type? = some type) :
    type ∈ Start.types release := by
  rw [Start.mem_types_iff]
  obtain ⟨_, ht⟩ | ⟨_, ⟨_, ht⟩ | ⟨_, ⟨w, hw, ht⟩ | ⟨_, ht⟩⟩⟩ :=
    target_cases before release.components.workloads
  · rw [ht] at h
    exact .inl (Option.some.inj h).symm
  · rw [ht] at h
    exact .inr (.inl (Option.some.inj h).symm)
  · rw [ht] at h
    exact .inr (.inr ⟨w, List.mem_of_find?_eq_some hw, (Option.some.inj h).symm⟩)
  · rw [ht] at h
    cases h

end

section
variable {ctx : Context} {before after : Status} {t : Trace} {r : Except UpgradeError Requeue}

/-- an attempt that is under way does a step of what has its turn -/
theorem advance_yields_iff (release : ReleaseSpec) :
    (advance ctx release).Yields before t r after ↔
      ((target before release.components.workloads).step ctx release).Yields before t r after := by
  unfold advance
  rw [Step.yields_bind_status]
  obtain ⟨hos, ht⟩ | ⟨hos, ⟨hk, ht⟩ | ⟨hk, ⟨w, hw, ht⟩ | ⟨hw, ht⟩⟩⟩ :=
    target_cases before release.components.workloads
  · rw [ht, hos]
    rfl
  · rw [ht, hos, hk]
    rfl
  · rw [ht, hos, hk, hw]
    rfl
  · rw [ht, hos, hk, hw]
    rfl

/-- the manifests are listed, and one of them is what the plan asks for or none is -/
theorem resolve_yields_iff (manifest? : Except UpgradeError (Option ReleaseManifest)) :
    (ManifestPhase.resolve ctx).Yields t manifest? ↔
      (∃ e, t = [⟨.list .releaseManifest (some (ManifestPhase.planNamespace ctx)), .error e⟩] ∧
        manifest? = .error e) ∨
      ∃ manifests : List ReleaseManifest,
        t = [.listed .releaseManifest (some (ManifestPhase.planNamespace ctx)) manifests] ∧
          manifest? = .ok (manifests.find? fun m =>
            m.spec.releaseVersion = ctx.plan.spec.releaseVersion) := by
  unfold ManifestPhase.resolve
  rw [Action.yields_bind_list]
  refine or_congr_right (exists_congr fun manifests => ?_)
  simp only [Action.yields_pure]
  constructor
  · rintro ⟨_, rfl, rfl, rfl⟩
    exact ⟨rfl, rfl⟩
  · rintro ⟨rfl, rfl⟩
    exact ⟨[], rfl, rfl, rfl⟩

/-- once the manifest has been found and the attempt has been started, the traces of a pass are
those of what has its turn -/
theorem step_yields_iff {suffix : String} {manifests : List ReleaseManifest} {m : ReleaseManifest}
    (hfind : manifests.find? (fun m => m.spec.releaseVersion = ctx.plan.spec.releaseVersion) =
      some m)
    (hobs : before.observedGeneration = ctx.plan.generation) :
    (step ctx suffix).Yields before
        (.listed .releaseManifest (some (ManifestPhase.planNamespace ctx)) manifests :: t) r after ↔
      ((target before m.spec.components.workloads).step ctx m.spec).Yields before t r after := by
  have hgoes : ¬(before.observedGeneration != ctx.plan.metadata.generation.getD 0) = true :=
    fun h => bne_iff_ne.mp h hobs
  rw [← advance_yields_iff]
  unfold step
  rw [Step.yields_bind_lift]
  constructor
  · rintro (⟨_, h, _⟩ | ⟨manifest?, u, v, heq, h, hrest⟩)
    · obtain ⟨_, he, _⟩ | ⟨_, _, he⟩ := (resolve_yields_iff _).mp h
      · cases he
      · cases he
    obtain ⟨_, _, he⟩ | ⟨_, rfl, he⟩ := (resolve_yields_iff _).mp h
    · cases he
    cases heq
    rw [hfind] at he
    cases he
    have hrest := (Step.yields_bind_status ..).mp hrest
    rwa [if_neg hgoes] at hrest
  · intro h
    refine .inr ⟨some m, [_], t, rfl, (resolve_yields_iff _).mpr (.inr ⟨manifests, rfl, ?_⟩), ?_⟩
    · rw [hfind]
    · refine (Step.yields_bind_status ..).mpr ?_
      rwa [if_neg hgoes]

/-- the release is reached in the status, and at most an event is published -/
theorem reached_of_complete (h : (complete ctx).Yields before t r after) :
    t.All Call.sparesPlan ∧
      after = { before with lastSuccessfulRelease := some ctx.plan.spec.releaseVersion } := by
  obtain ⟨_, hafter, rfl | ⟨_, _, rfl⟩⟩ := complete_of_yields h
  · exact ⟨Trace.all_nil, hafter⟩
  · exact ⟨Trace.all_single rfl, hafter⟩

end

/-- what a step of a target changes: its condition; the end changes only the release that has been
reached -/
inductive Target.Changes (ctx : Context) (before : Status) : Target → Status → Prop
  | rewrite {target type after} : Target.type? target = some type →
      Status.Rewritten ctx.now type before after → Changes ctx before target after
  | complete : Changes ctx before .complete
      { before with lastSuccessfulRelease := some ctx.plan.spec.releaseVersion }

namespace Target

section
variable {ctx : Context} {before after : Status} {t : Trace} {r : Except UpgradeError Requeue}
  {target : Target}

/-- a step of a target that is not the end makes ordinary calls and sets its condition -/
theorem rewrites_of_yields {release : ReleaseSpec}
    (h : (target.step ctx release).Yields before t r after) (hne : target ≠ .complete) :
    t.All Call.isOrdinary ∧
      ∃ type, target.type? = some type ∧ Status.Rewritten ctx.now type before after := by
  cases target with
  | system =>
    obtain ⟨hordinary, hr⟩ := SystemPhase.rewrites_step ctx _ _ _ _ _ _ h
    exact ⟨hordinary, _, rfl, hr⟩
  | distribution =>
    obtain ⟨hordinary, hr⟩ := DistributionPhase.rewrites_step ctx _ _ _ _ _ h
    exact ⟨hordinary, _, rfl, hr⟩
  | workload w =>
    obtain ⟨hordinary, hr⟩ := Workload.rewrites_step ctx w _ _ _ _ h
    exact ⟨hordinary, _, rfl, hr⟩
  | complete => exact absurd rfl hne

/-- a step of a target changes what it may, and it does not write to the plan -/
theorem changes_of_yields {release : ReleaseSpec}
    (h : (target.step ctx release).Yields before t r after) :
    t.All Call.sparesPlan ∧ target.Changes ctx before after := by
  by_cases hend : target = .complete
  · subst hend
    obtain ⟨hspares, rfl⟩ := reached_of_complete h
    exact ⟨hspares, .complete⟩
  · obtain ⟨hordinary, type, htype, hr⟩ := rewrites_of_yields h hend
    exact ⟨hordinary.mono fun _ hc => (Call.isOrdinary_iff.mp hc).1, .rewrite htype hr⟩

namespace Changes

theorem observedGeneration_eq (h : target.Changes ctx before after) :
    after.observedGeneration = before.observedGeneration := by
  cases h with
  | rewrite _ hr => exact hr.observedGeneration_eq
  | complete => rfl

theorem sound (h : target.Changes ctx before after) (hs : before.Sound) : after.Sound := by
  cases h with
  | rewrite _ hr => exact hr.sound hs
  | complete => exact ⟨hs.nodup, hs.paired⟩

theorem mem_types (h : target.Changes ctx before after) {type : String}
    (hmem : type ∈ before.types) : type ∈ after.types := by
  cases h with
  | rewrite _ hr => exact hr.mem_types hmem
  | complete => exact hmem

theorem mem_or (h : target.Changes ctx before after) {c : Condition}
    (hc : c ∈ after.conditions) : c ∈ before.conditions ∨ target.type? = some c.type := by
  cases h with
  | rewrite htype hr =>
    obtain hold | hown := hr.mem_or hc
    · exact .inl hold
    · exact .inr (hown ▸ htype)
  | complete => exact .inl hc

theorem condition?_eq (h : target.Changes ctx before after) {type : String}
    (hne : target.type? ≠ some type) : after.condition? type = before.condition? type := by
  cases h with
  | rewrite htype hr =>
    refine hr.condition?_of_ne fun he => hne ?_
    rw [he, htype]
  | complete => rfl

theorem isFinished_eq (h : target.Changes ctx before after) {type : String}
    (hne : target.type? ≠ some type) : after.isFinished type = before.isFinished type := by
  rw [Status.isFinished, Status.isFinished, h.condition?_eq hne]

theorem namingSuffix_eq (h : target.Changes ctx before after) :
    after.namingSuffix = before.namingSuffix := by
  cases h with
  | rewrite _ hr => exact hr.namingSuffix_eq
  | complete => rfl

theorem oneSet (h : target.Changes ctx before after) :
    after.conditions = before.conditions ∨
      ∃ type, target.type? = some type ∧
        Status.OneSet type before.conditions after.conditions := by
  cases h with
  | rewrite htype hr => exact hr.oneSet.imp_right fun hset => ⟨_, htype, hset⟩
  | complete => exact .inl rfl

theorem lastSuccessfulRelease_of_complete (h : Changes ctx before .complete after) :
    after.lastSuccessfulRelease = some ctx.plan.spec.releaseVersion := by
  cases h with
  | rewrite htype _ => cases htype
  | complete => rfl

theorem conditions_of_complete (h : Changes ctx before .complete after) :
    after.conditions = before.conditions := by
  cases h with
  | rewrite htype _ => cases htype
  | complete => rfl

theorem lastSuccessfulRelease_eq (h : target.Changes ctx before after) (hne : target ≠ .complete) :
    after.lastSuccessfulRelease = before.lastSuccessfulRelease := by
  cases h with
  | rewrite _ hr => exact hr.lastSuccessfulRelease_eq
  | complete => exact absurd rfl hne

end Changes

end

end Target

/-- a pass that works on a target: the manifest has been found, the attempt has been started, and
the target has its turn -/
inductive Dispatched (ctx : Context) (before : Status) :
    Target → Trace → Except UpgradeError Requeue → Status → Prop
  | intro (m) {u v r after} : u.Quiet → ManifestPhase.Resolved ctx u (some m) →
      before.observedGeneration = ctx.plan.generation →
      ((target before m.spec.components.workloads).step ctx m.spec).Yields before v r after →
      Dispatched ctx before (target before m.spec.components.workloads) (u ++ v) r after

/-- a pass keeps the status, or starts the attempt, or works on what has its turn -/
inductive Effect (ctx : Context) (before : Status) (suffix : String) (t : Trace)
    (r : Except UpgradeError Requeue) : Status → Prop
  | keep : Effect ctx before suffix t r before
  | start (m) : ManifestPhase.Resolved ctx t (some m) →
      before.observedGeneration ≠ ctx.plan.generation →
      Effect ctx before suffix t r (Start.status ctx.now ctx.plan.generation m.spec suffix before)
  | dispatch {target after} : Dispatched ctx before target t r after →
      Effect ctx before suffix t r after

section
variable {ctx : Context} {before after : Status} {t : Trace} {r : Except UpgradeError Requeue}

theorem Dispatched.changes {target : Target} (h : Dispatched ctx before target t r after) :
    target.Changes ctx before after := by
  cases h with
  | intro m _ _ _ hs => exact (Target.changes_of_yields hs).2

/-- a step of what has its turn is what the phases do -/
theorem Advance.target_yields {release : ReleaseSpec}
    (h : Advance ctx before release.components release.releaseVersion t r after) :
    ((target before release.components.workloads).step ctx release).Yields before t r after := by
  cases h with
  | system hos hs => rwa [target_of_system hos]
  | distribution hos hk hd => rwa [target_of_distribution hos hk]
  | workload w hos hk hturn hw => rwa [target_of_workload hos hk (openWorkload_of_turn hturn)]
  | complete hos hk hall hc => rwa [target_of_complete hos hk (openWorkload_of_finished hall)]

theorem effect_of_yields {suffix : String} (h : (step ctx suffix).Yields before t r after) :
    Effect ctx before suffix t r after := by
  cases course_of_yields h with
  | unresolved | install => exact .keep
  | start m _ hresolved hne => exact .start m hresolved hne
  | advance m hquiet hresolved hobs hadvance =>
    exact .dispatch (.intro m hquiet hresolved hobs hadvance.target_yields)

/-- a pass makes ordinary calls and keeps the release that has been reached, or it comes to the end
after ordinary calls -/
theorem calls_of_yields {suffix : String} (h : (step ctx suffix).Yields before t r after) :
    (t.All Call.isOrdinary ∧ after.lastSuccessfulRelease = before.lastSuccessfulRelease) ∨
      ∃ u v, t = u ++ v ∧ u.All Call.isOrdinary ∧ (complete ctx).Yields before v r after := by
  have resolves {u x} (h : (ManifestPhase.resolve ctx).Yields u x) : u.All Call.isOrdinary :=
    ManifestPhase.spares_resolve ctx u x h
  obtain ⟨e, hresolve, _, rfl⟩ | ⟨manifest?, u, v, rfl, hresolve, hrest⟩ :=
    (Step.yields_bind_lift ..).mp h
  · exact .inl ⟨resolves hresolve, rfl⟩
  have hu := resolves hresolve
  cases manifest? with
  | none =>
    obtain ⟨_, hi, _, rfl⟩ | ⟨_, w, _, rfl, hi, hlast⟩ := (Step.yields_bind_lift ..).mp hrest
    · exact .inl ⟨(Trace.all_append u v).mpr ⟨hu, ManifestPhase.spares_install ctx _ _ hi⟩, rfl⟩
    · obtain ⟨rfl, _, rfl⟩ := (Step.yields_pure ..).mp hlast
      rw [List.append_nil]
      exact .inl ⟨(Trace.all_append u w).mpr ⟨hu, ManifestPhase.spares_install ctx _ _ hi⟩, rfl⟩
  | some m =>
    have hrest := (Step.yields_bind_status ..).mp hrest
    split at hrest
    · obtain ⟨rfl, _, rfl⟩ := Start.step_yields_iff.mp hrest
      rw [List.append_nil]
      exact .inl ⟨hu, Start.lastSuccessfulRelease_status ..⟩
    · have hstep := (advance_yields_iff m.spec).mp hrest
      by_cases hend : target before m.spec.components.workloads = .complete
      · rw [hend] at hstep
        exact .inr ⟨u, v, rfl, hu, hstep⟩
      · obtain ⟨hv, _, _, hr⟩ := Target.rewrites_of_yields hstep hend
        exact .inl ⟨(Trace.all_append u v).mpr ⟨hu, hv⟩, hr.lastSuccessfulRelease_eq⟩

/-- no pass writes to the plan before it ends -/
theorem spares_of_yields {suffix : String} (h : (step ctx suffix).Yields before t r after) :
    t.All Call.sparesPlan := by
  obtain ⟨hordinary, _⟩ | ⟨u, v, rfl, hu, hend⟩ := calls_of_yields h
  · exact hordinary.mono fun _ hc => (Call.isOrdinary_iff.mp hc).1
  · refine (Trace.all_append u v).mpr ⟨?_, (reached_of_complete hend).1⟩
    exact hu.mono fun _ hc => (Call.isOrdinary_iff.mp hc).1

/-- a pass notes no release as reached but the one that the plan asks for -/
theorem lastSuccessfulRelease_of_yields {suffix : String}
    (h : (step ctx suffix).Yields before t r after) :
    after.lastSuccessfulRelease = before.lastSuccessfulRelease ∨
      after.lastSuccessfulRelease = some ctx.plan.spec.releaseVersion := by
  cases effect_of_yields h with
  | keep => exact .inl rfl
  | start m => exact .inl (Start.lastSuccessfulRelease_status ..)
  | dispatch hd =>
    cases hd.changes with
    | rewrite _ hr => exact .inl hr.lastSuccessfulRelease_eq
    | complete => exact .inr rfl

end

end Upgrade

end ReleaseUpgrade
