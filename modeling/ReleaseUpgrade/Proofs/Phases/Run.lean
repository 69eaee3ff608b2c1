import ReleaseUpgrade.Phases.Run
import ReleaseUpgrade.Proofs.Phases.Distribution
import ReleaseUpgrade.Proofs.Phases.Manifest
import ReleaseUpgrade.Proofs.Phases.Start
import ReleaseUpgrade.Proofs.Phases.System
import ReleaseUpgrade.Proofs.Phases.Workload

/-!
# The course of a pass

A pass does one step of one phase; which one, the manifest and the status before the pass decide.

* `Course`       the traces of a pass, by the phase that has its turn;
* `Licensed`     what a pass may write, and when, `guarded_of_yields`.
-/

namespace ReleaseUpgrade.Upgrade

section
variable (ctx : Context) (before : Status)

/-- the generation of the plan that a pass is about -/
def generation : Int := ctx.plan.metadata.generation.getD 0

/-- the workload has its turn: those before it are finished, and it is not -/
def Turn (workloads : List ReleaseChart) (w : ReleaseChart) : Prop :=
  before.isFinished (Status.workloadUpgraded w.prettyName) = false ∧
    ∃ pre post, workloads = pre ++ w :: post ∧
      ∀ v ∈ pre, before.isFinished (Status.workloadUpgraded v.prettyName) = true

/-- the traces of an attempt that is under way -/
inductive Advance (components : Components) (releaseVersion : String) :
    Trace → Except UpgradeError Requeue → Status → Prop
  | system {t r after} : before.isSucceeded Status.osUpgraded = false →
      (SystemPhase.step ctx releaseVersion components.operatingSystem).Yields before t r after →
      Advance components releaseVersion t r after
  | distribution {t r after} : before.isSucceeded Status.osUpgraded = true →
      before.isSucceeded Status.kubernetesUpgraded = false →
      (DistributionPhase.step ctx components.kubernetes).Yields before t r after →
      Advance components releaseVersion t r after
  | workload (w) {t r after} : before.isSucceeded Status.osUpgraded = true →
      before.isSucceeded Status.kubernetesUpgraded = true → Turn before components.workloads w →
      (Workload.step ctx w).Yields before t r after → Advance components releaseVersion t r after
  | complete {t r after} : before.isSucceeded Status.osUpgraded = true →
      before.isSucceeded Status.kubernetesUpgraded = true →
      (∀ w ∈ components.workloads,
        before.isFinished (Status.workloadUpgraded w.prettyName) = true) →
      (complete ctx).Yields before t r after → Advance components releaseVersion t r after

/-- the traces of a pass -/
inductive Course (suffix : String) : Trace → Except UpgradeError Requeue → Status → Prop
  | unresolved {t e} : t.Quiet → Course suffix t (.error e) before
  | install {t u r} : t.Quiet → ManifestPhase.Resolved ctx t none →
      (ManifestPhase.install ctx).Yields u r →
      Course suffix (t ++ u) (r.map fun _ => none) before
  | start (m) {t} : t.Quiet → ManifestPhase.Resolved ctx t (some m) →
      before.observedGeneration ≠ generation ctx →
      Course suffix t (.ok .immediately)
        (Start.status ctx.now (generation ctx) m.spec suffix before)
  | advance (m) {t u r after} : t.Quiet → ManifestPhase.Resolved ctx t (some m) →
      before.observedGeneration = generation ctx →
      Advance ctx before m.spec.components m.spec.releaseVersion u r after →
      Course suffix (t ++ u) r after

end

section
variable {ctx : Context} {before after : Status} {t : Trace} {r : Except UpgradeError Requeue}

theorem turn_of_openWorkload {workloads : List ReleaseChart} {w : ReleaseChart}
    (h : openWorkload? before workloads = some w) : Turn before workloads w := by
  obtain ⟨hw, pre, post, hsplit, hpre⟩ := List.find?_eq_some_iff_append.mp h
  refine ⟨by simpa using hw, pre, post, hsplit, fun v hv => ?_⟩
  simpa using hpre v hv

theorem finished_of_openWorkload {workloads : List ReleaseChart}
    (h : openWorkload? before workloads = none) :
    ∀ w ∈ workloads, before.isFinished (Status.workloadUpgraded w.prettyName) = true := by
  intro w hw
  simpa using List.find?_eq_none.mp h w hw

theorem openWorkload_of_turn {workloads : List ReleaseChart} {w : ReleaseChart}
    (h : Turn before workloads w) : openWorkload? before workloads = some w := by
  obtain ⟨hw, pre, post, hsplit, hpre⟩ := h
  refine List.find?_eq_some_iff_append.mpr ⟨by simpa using hw, pre, post, hsplit, fun v hv => ?_⟩
  simpa using hpre v hv

theorem openWorkload_of_finished {workloads : List ReleaseChart}
    (h : ∀ w ∈ workloads, before.isFinished (Status.workloadUpgraded w.prettyName) = true) :
    openWorkload? before workloads = none := by
  refine List.find?_eq_none.mpr fun w hw => ?_
  simpa using h w hw

theorem advance_of_yields {release : ReleaseSpec}
    (h : (advance ctx release).Yields before t r after) :
    Advance ctx before release.components release.releaseVersion t r after := by
  have h := (Step.yields_bind_status ..).mp h
  split at h
  · rename_i hos
    exact .system (by simpa using hos) h
  rename_i hos
  have hos : before.isSucceeded Status.osUpgraded = true := by simpa using hos
  split at h
  · rename_i hk
    exact .distribution hos (by simpa using hk) h
  rename_i hk
  have hk : before.isSucceeded Status.kubernetesUpgraded = true := by simpa using hk
  split at h
  · rename_i w hopen
    exact .workload w hos hk (turn_of_openWorkload hopen) h
  · rename_i hnone
    exact .complete hos hk (finished_of_openWorkload hnone) h

theorem course_of_yields {suffix : String} (h : (step ctx suffix).Yields before t r after) :
    Course ctx before suffix t r after := by
  obtain ⟨e, hresolve, rfl, rfl⟩ | ⟨manifest?, u, v, rfl, hresolve, hrest⟩ :=
    (Step.yields_bind_lift ..).mp h
  · exact .unresolved (ManifestPhase.resolved_of_yields hresolve).1
  obtain ⟨hquiet, hresolved⟩ := ManifestPhase.resolved_of_yields hresolve
  cases manifest? with
  | none =>
    obtain ⟨e, hi, rfl, rfl⟩ | ⟨_, _, _, rfl, hi, hlast⟩ := (Step.yields_bind_lift ..).mp hrest
    · exact .install (r := .error e) hquiet (hresolved _ rfl) hi
    · obtain ⟨rfl, rfl, rfl⟩ := (Step.yields_pure ..).mp hlast
      rw [List.append_nil]
      exact .install (r := .ok ()) hquiet (hresolved _ rfl) hi
  | some m =>
    have hrest := (Step.yields_bind_status ..).mp hrest
    split at hrest
    · rename_i hne
      obtain ⟨rfl, rfl, rfl⟩ := Start.step_yields_iff.mp hrest
      rw [List.append_nil]
      exact .start m hquiet (hresolved _ rfl) (bne_iff_ne.mp hne)
    · rename_i heq
      have heq : before.observedGeneration = generation ctx :=
        Classical.not_not.mp fun hne => heq (bne_iff_ne.mpr hne)
      exact .advance m hquiet (hresolved _ rfl) heq (advance_of_yields hrest)

/-- the end of an attempt notes its release and publishes at most an event -/
theorem complete_of_yields (h : (complete ctx).Yields before t r after) :
    r = .ok none ∧
      after = { before with lastSuccessfulRelease := some ctx.plan.spec.releaseVersion } ∧
      (t = [] ∨ ∃ event answer, t = [⟨.publishEvent ctx.plan event, answer⟩]) := by
  have h := (Step.yields_bind_status ..).mp h
  split at h
  · have h := (Step.yields_bind_modify ..).mp h
    obtain ⟨_, hp, _⟩ | ⟨_, u, v, rfl, hp, hlast⟩ := (Step.yields_bind_lift ..).mp h
    · obtain ⟨_, _, he⟩ := (Action.yields_publish ..).mp hp
      cases he
    · obtain ⟨answer, rfl, _⟩ := (Action.yields_publish ..).mp hp
      obtain ⟨rfl, hr, hafter⟩ := (Step.yields_pure ..).mp hlast
      exact ⟨hr, hafter, .inr ⟨_, answer, rfl⟩⟩
  · rename_i heq
    obtain ⟨rfl, hr, hafter⟩ := (Step.yields_pure ..).mp h
    have heq : before.lastSuccessfulRelease = some ctx.plan.spec.releaseVersion := by
      simpa using heq
    rw [← heq]
    exact ⟨hr, hafter, .inl rfl⟩

theorem quiet_of_complete (h : (complete ctx).Yields before t r after) : t.Quiet := by
  obtain ⟨_, _, rfl | ⟨_, _, rfl⟩⟩ := complete_of_yields h
  · exact Trace.quiet_nil
  · exact Trace.quiet_single rfl

end

/-- what a pass may write after what went before -/
inductive Licensed (ctx : Context) (before : Status) (past : Trace) : Call → Prop
  | install : ManifestPhase.Resolved ctx past none →
      Licensed ctx before past (.create .job (ManifestPhase.job ctx))
  | system (m) {c} : ManifestPhase.Resolved ctx past (some m) →
      before.isSucceeded Status.osUpgraded = false →
      SystemPhase.Allowed ctx m.spec.releaseVersion m.spec.components.operatingSystem before past
        c → Licensed ctx before past c
  | distribution (m) {c} : ManifestPhase.Resolved ctx past (some m) →
      before.isSucceeded Status.osUpgraded = true →
      before.isSucceeded Status.kubernetesUpgraded = false →
      DistributionPhase.Allowed ctx m.spec.components.kubernetes before past c →
      Licensed ctx before past c
  | workload (m w) {c} : ManifestPhase.Resolved ctx past (some m) →
      before.isSucceeded Status.osUpgraded = true →
      before.isSucceeded Status.kubernetesUpgraded = true →
      Turn before m.spec.components.workloads w → Workload.Allowed ctx w past c →
      Licensed ctx before past c

section
variable {ctx : Context} {before after : Status} {t : Trace} {r : Except UpgradeError Requeue}

theorem Licensed.deletes_eq_false {past : Trace} {c : Call} (h : Licensed ctx before past c) :
    c.deletes = false := by
  cases h with
  | install => rfl
  | system _ _ _ hallowed =>
    cases hallowed with
    | secret => rfl
    | plan _ _ _ _ _ _ htier =>
      obtain ⟨_, _, _, _, rfl, _⟩ := htier
      rfl
  | distribution _ _ _ _ hallowed =>
    obtain ⟨_, _, _, _, _, _, _, _, _, rfl, _⟩ := hallowed
    rfl
  | workload _ _ _ _ _ _ hallowed =>
    obtain ⟨_, _, _, _, hwrite⟩ := hallowed
    cases hwrite <;> rfl

theorem guarded_of_yields {suffix : String} (h : (step ctx suffix).Yields before t r after) :
    t.Guarded (Licensed ctx before) := by
  cases course_of_yields h with
  | unresolved hquiet | start _ hquiet _ _ => exact hquiet.guarded
  | install hquiet hresolved hi =>
    refine hquiet.guarded.append (ManifestPhase.creates_of_install hi).guarded fun past c hc => ?_
    rw [hc]
    exact .install (hresolved.append past)
  | advance m hquiet hresolved _ hadvance =>
    cases hadvance with
    | system hos hs =>
      exact hquiet.guarded.append (SystemPhase.course_of_yields hs).guarded fun past _ hc =>
        .system m (hresolved.append past) hos (hc.prepend _)
    | distribution hos hk hd =>
      exact hquiet.guarded.append (DistributionPhase.course_of_yields hd).guarded fun past _ hc =>
        .distribution m (hresolved.append past) hos hk (hc.prepend _)
    | workload w hos hk hturn hw =>
      exact hquiet.guarded.append (Workload.guarded_of_yields hw) fun past _ hc =>
        .workload m w (hresolved.append past) hos hk hturn (hc.prepend _)
    | complete _ _ _ hc => exact hquiet.guarded.append (quiet_of_complete hc).guarded fun _ _ => id

/-- a pass writes at most once, or all that it writes is the job of the manifest -/
theorem writes_of_yields {suffix : String} (h : (step ctx suffix).Yields before t r after)
    (hgen : t.Genuine) : t.Brief True ∨ ManifestPhase.Creates .job (ManifestPhase.job ctx) t := by
  cases course_of_yields h with
  | unresolved hquiet | start _ hquiet _ _ => exact .inl (.inl hquiet)
  | install hquiet _ hi =>
    exact .inr ((ManifestPhase.creates_append _ _).mpr
      ⟨ManifestPhase.creates_of_quiet hquiet, ManifestPhase.creates_of_install hi⟩)
  | advance m hquiet _ _ hadvance =>
    refine .inl (hquiet.append_brief ?_)
    cases hadvance with
    | system _ hs => exact (SystemPhase.course_of_yields hs).brief
    | distribution _ _ hd => exact (DistributionPhase.course_of_yields hd).brief
    | workload w _ _ _ hw =>
      exact Workload.brief_of_yields hw ((Trace.genuine_append _ _).mp hgen).2
    | complete _ _ _ hc => exact .inl (quiet_of_complete hc)

end

end ReleaseUpgrade.Upgrade
