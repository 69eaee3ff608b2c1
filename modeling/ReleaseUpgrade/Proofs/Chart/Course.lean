import ReleaseUpgrade.Chart.Evaluation
import ReleaseUpgrade.Proofs.Cluster.Writes

/-!
# The course of an evaluation

`Evaluation.state` looks at one chart and perhaps writes its chart resource.  Every trace of it is
one of a few, and each of them is a case here with what led to it.

* `Adopted`, `Updated`, `Followed`   the traces of a chart without a chart resource, of one whose
                                     resource has another version, of one whose job is asked;
* `Course`                           the traces of an evaluation, `course_of_yields`;
* `Allowed`                          what an evaluation writes and when, `guarded_of_yields`;
* `brief_of_yields`                  it writes at most once, and then it stops the workload.
-/

namespace ReleaseUpgrade.Evaluation

section
variable (ctx : Context) (chart : ReleaseChart)

/-- the chart resource that takes over an installed release -/
def adoption (installed : HelmRelease) (values : String) : HelmChart :=
  HelmChart.takeOver ctx.settings installed chart values ctx.identity ctx.plan.spec.releaseVersion

/-- the chart resource that is set to the chart of the release -/
def revision (existing : HelmChart) (values : String) : HelmChart :=
  existing.toRelease ctx.settings chart values ctx.identity ctx.plan.spec.releaseVersion

/-- the values of a chart over those that it has already -/
def values (base : BaseValues) : Except UpgradeError String :=
  Values.layered base chart.values (ctx.plan.spec.valuesFor chart.name)

/-- the traces of a chart that is installed without a chart resource -/
inductive Adopted (installed : HelmRelease) : Trace → Except UpgradeError ChartState → Prop
  | current : installed.chartVersion = chart.version →
      Adopted installed [] (.ok .versionAlreadyInstalled)
  | unreadable (e) : installed.chartVersion ≠ chart.version →
      values ctx chart (.config installed.config) = .error e → Adopted installed [] (.error e)
  | refused (text e) : installed.chartVersion ≠ chart.version →
      values ctx chart (.config installed.config) = .ok text →
      Adopted installed [⟨.create .helmChart (adoption ctx chart installed text), .error e⟩]
        (.error e)
  | created (text event answer) : installed.chartVersion ≠ chart.version →
      values ctx chart (.config installed.config) = .ok text →
      Adopted installed [.created .helmChart (adoption ctx chart installed text),
        ⟨.publishEvent ctx.plan event, answer⟩] (.ok .inProgress)

/-- the traces of a chart resource that is set to the chart of the release -/
inductive Updated (existing : HelmChart) : Trace → Except UpgradeError ChartState → Prop
  | unreadable (e) : values ctx chart (.yaml existing.spec.valuesContent) = .error e →
      Updated existing [] (.error e)
  | refused (text e) : values ctx chart (.yaml existing.spec.valuesContent) = .ok text →
      Updated existing [⟨.replace .helmChart (revision ctx chart existing text), .error e⟩]
        (.error e)
  | replaced (text) : values ctx chart (.yaml existing.spec.valuesContent) = .ok text →
      Updated existing [.replaced .helmChart (revision ctx chart existing text)] (.ok .inProgress)

/-- where the job of a chart resource is -/
def jobNamespace (existing : HelmChart) : String :=
  existing.metadata.ns.getD ctx.settings.chartNamespace

/-- the traces of a chart resource whose job is asked -/
inductive Followed (existing : HelmChart) : Trace → Except UpgradeError ChartState → Prop
  | jobless : existing.jobName? = none → Followed existing [] (.ok .unknown)
  | unanswered (name e) : existing.jobName? = some name →
      Followed existing [⟨.get .job (jobNamespace ctx existing) name, .error e⟩] (.error e)
  | missing (name) : existing.jobName? = some name →
      Followed existing [.got .job (jobNamespace ctx existing) name none] (.ok .unknown)
  | seen (name) (job : Job) : existing.jobName? = some name →
      Followed existing [.got .job (jobNamespace ctx existing) name (some job)]
        (.ok (ofOutcome job.outcome?))

theorem adopted_of_yields {installed : HelmRelease} {t : Trace}
    {r : Except UpgradeError ChartState} (h : (adopt ctx chart installed).Yields t r) :
    Adopted ctx chart installed t r := by
  unfold adopt at h
  by_cases hv : installed.chartVersion = chart.version
  · rw [if_pos hv, Action.yields_pure] at h
    obtain ⟨rfl, rfl⟩ := h
    exact .current hv
  · simp only [if_neg hv, Action.yields_bind, Action.yields_pure, Action.yields_ofExcept] at h
    obtain ⟨e, ⟨rfl, he⟩, rfl⟩ | ⟨text, _, _, rfl, ⟨rfl, ht⟩, h⟩ := h
    · exact .unreadable e hv he.symm
    obtain ⟨e, h, rfl⟩ | ⟨_, _, _, rfl, h, rfl, rfl⟩ := h
    · obtain ⟨e, rfl, he⟩ | ⟨_, _, _, _, he⟩ := (Context.yields_create ctx _ _ _ _).mp h
      · cases he
        exact .refused text _ hv ht.symm
      · cases he
    · obtain ⟨_, _, he⟩ | ⟨event, answer, rfl, _, _⟩ := (Context.yields_create ctx _ _ _ _).mp h
      · cases he
      · exact .created text event answer hv ht.symm

theorem updated_of_yields {existing : HelmChart} {t : Trace}
    {r : Except UpgradeError ChartState} (h : (update ctx chart existing).Yields t r) :
    Updated ctx chart existing t r := by
  simp only [update, Action.yields_bind, Action.yields_pure, Action.yields_ofExcept] at h
  obtain ⟨e, ⟨rfl, he⟩, rfl⟩ | ⟨text, _, _, rfl, ⟨rfl, ht⟩, h⟩ := h
  · exact .unreadable e he.symm
  obtain ⟨e, h, rfl⟩ | ⟨_, _, _, rfl, h, rfl, rfl⟩ := h
  · obtain rfl := (Action.yields_replace _ _ _ _).mp h
    exact .refused text e ht.symm
  · obtain rfl := (Action.yields_replace _ _ _ _).mp h
    exact .replaced text ht.symm

/-- values that can be put together are written to the chart resource -/
theorem yields_update {existing : HelmChart} {text : String}
    (h : values ctx chart (.yaml existing.spec.valuesContent) = .ok text) :
    (update ctx chart existing).Yields
      [.replaced .helmChart (revision ctx chart existing text)] (.ok .inProgress) := by
  refine (Action.yields_bind ..).mpr (.inr ⟨text, [], _, rfl, ⟨rfl, h.symm⟩, ?_⟩)
  refine (Action.yields_bind ..).mpr (.inr ⟨(), [_], [], rfl, ?_, rfl, rfl⟩)
  exact (Action.yields_replace ..).mpr rfl

/-- an update whose values can be put together is one replacement -/
theorem replaced_of_yields {existing : HelmChart} {text : String} {t : Trace}
    {r : Except UpgradeError ChartState}
    (hvalues : values ctx chart (.yaml existing.spec.valuesContent) = .ok text)
    (h : (update ctx chart existing).Yields t r) :
    ∃ answer, t = [⟨.replace .helmChart (revision ctx chart existing text), answer⟩] := by
  cases updated_of_yields ctx chart h with
  | unreadable e he => cases hvalues.symm.trans he
  | refused text' e htext =>
    cases hvalues.symm.trans htext
    exact ⟨_, rfl⟩
  | replaced text' htext =>
    cases hvalues.symm.trans htext
    exact ⟨_, rfl⟩

theorem followed_of_yields {existing : HelmChart} {t : Trace}
    {r : Except UpgradeError ChartState} (h : (follow ctx existing).Yields t r) :
    Followed ctx existing t r := by
  unfold follow at h
  cases hn : existing.jobName? with
  | none =>
    rw [hn] at h
    obtain ⟨rfl, rfl⟩ := h
    exact .jobless hn
  | some name =>
    rw [hn] at h
    obtain ⟨e, rfl, rfl⟩ | ⟨found, _, rfl, hrest⟩ := (Action.yields_bind_get ..).mp h
    · exact .unanswered name e hn
    cases found with
    | none =>
      obtain ⟨rfl, rfl⟩ := (Action.yields_pure ..).mp hrest
      exact .missing name hn
    | some job =>
      obtain ⟨rfl, rfl⟩ := (Action.yields_pure ..).mp hrest
      exact .seen name job hn

end

/-- the traces of an evaluation -/
inductive Course (ctx : Context) (resources : List HelmChart) (chart : ReleaseChart) :
    Trace → Except UpgradeError ChartState → Prop
  | unanswered (e) : Course ctx resources chart [⟨.latestRelease chart.releaseName, .error e⟩]
      (.error e)
  | absent : Course ctx resources chart [.found chart.releaseName none] (.ok .notInstalled)
  | ambiguous (installed e) : resource? chart.releaseName resources = .error e →
      Course ctx resources chart [.found chart.releaseName (some installed)] (.error e)
  | adopted (installed) {t r} : resource? chart.releaseName resources = .ok none →
      Adopted ctx chart installed t r →
      Course ctx resources chart (.found chart.releaseName (some installed) :: t) r
  | updated (installed existing) {t r} :
      resource? chart.releaseName resources = .ok (some existing) →
      existing.spec.version ≠ chart.version → Updated ctx chart existing t r →
      Course ctx resources chart (.found chart.releaseName (some installed) :: t) r
  | foreign (installed existing) :
      resource? chart.releaseName resources = .ok (some existing) →
      existing.spec.version = chart.version →
      existing.metadata.noted? ctx.settings.keys.release ≠ some ctx.plan.spec.releaseVersion →
      Course ctx resources chart [.found chart.releaseName (some installed)]
        (.ok .versionAlreadyInstalled)
  | followed (installed existing) {t r} :
      resource? chart.releaseName resources = .ok (some existing) →
      existing.spec.version = chart.version →
      existing.metadata.noted? ctx.settings.keys.release = some ctx.plan.spec.releaseVersion →
      Followed ctx existing t r →
      Course ctx resources chart (.found chart.releaseName (some installed) :: t) r

section
variable {ctx : Context} {resources : List HelmChart} {chart : ReleaseChart} {t : Trace}
  {r : Except UpgradeError ChartState}

theorem course_of_yields (h : (state ctx resources chart).Yields t r) :
    Course ctx resources chart t r := by
  simp only [state, Action.yields_bind, Action.yields_latestRelease] at h
  obtain ⟨e, rfl, rfl⟩ | ⟨found, _, _, rfl, rfl, h⟩ := h
  · exact .unanswered e
  cases found with
  | none =>
    obtain ⟨rfl, rfl⟩ := h
    exact .absent
  | some installed =>
    simp only [Action.yields_bind, Action.yields_ofExcept] at h
    obtain ⟨e, ⟨rfl, he⟩, rfl⟩ | ⟨existing?, _, t, rfl, ⟨rfl, hx⟩, h⟩ := h
    · exact .ambiguous installed e he.symm
    cases existing? with
    | none => exact .adopted installed hx.symm (adopted_of_yields ctx chart h)
    | some existing =>
      simp only [advance] at h
      split at h
      · rename_i hv
        exact .updated installed existing hx.symm (bne_iff_ne.mp hv)
          (updated_of_yields ctx chart h)
      rename_i hv
      have hv : existing.spec.version = chart.version := by simpa using hv
      split at h
      · rename_i hn
        obtain ⟨rfl, rfl⟩ := h
        exact .foreign installed existing hx.symm hv (bne_iff_ne.mp hn)
      · rename_i hn
        exact .followed installed existing hx.symm hv (by simpa using hn)
          (followed_of_yields ctx h)

theorem resource?_eq_none {release : String} (h : resource? release resources = .ok none) :
    ∀ c ∈ resources, c.metadata.nameAny ≠ release := by
  intro c hc hname
  have hmem : c ∈ resources.filter fun c => c.metadata.nameAny = release :=
    List.mem_filter.mpr ⟨hc, decide_eq_true hname⟩
  unfold resource? at h
  split at h
  · rename_i hnil
    rw [hnil] at hmem
    cases hmem
  all_goals cases h

theorem resource?_eq_some {release : String} {existing : HelmChart}
    (h : resource? release resources = .ok (some existing)) :
    (resources.filter fun c => c.metadata.nameAny = release) = [existing] := by
  unfold resource? at h
  split at h
  · cases h
  · rename_i hone
    cases h
    exact hone
  · cases h

end

/-- what an evaluation may write after what went before: a chart resource for a release that is
installed without one, or the only one of its name, if that has another version -/
inductive Allowed (ctx : Context) (resources : List HelmChart) (chart : ReleaseChart)
    (past : Trace) : Call → Prop
  | create (installed text) : .found chart.releaseName (some installed) ∈ past →
      resource? chart.releaseName resources = .ok none → installed.chartVersion ≠ chart.version →
      values ctx chart (.config installed.config) = .ok text →
      Allowed ctx resources chart past (.create .helmChart (adoption ctx chart installed text))
  | replace (existing text) : resource? chart.releaseName resources = .ok (some existing) →
      existing.spec.version ≠ chart.version →
      values ctx chart (.yaml existing.spec.valuesContent) = .ok text →
      Allowed ctx resources chart past (.replace .helmChart (revision ctx chart existing text))

section
variable {ctx : Context} {resources : List HelmChart} {chart : ReleaseChart} {t : Trace}
  {r : Except UpgradeError ChartState}

theorem Allowed.prepend {past : Trace} {c : Call} (u : Trace)
    (h : Allowed ctx resources chart past c) : Allowed ctx resources chart (u ++ past) c := by
  cases h with
  | create installed text hmem hnone hv ht =>
    exact .create installed text (List.mem_append_right u hmem) hnone hv ht
  | replace existing text hsome hv ht => exact .replace existing text hsome hv ht

theorem Followed.quiet {existing : HelmChart} (h : Followed ctx existing t r) : t.Quiet := by
  cases h with
  | jobless => exact Trace.quiet_nil
  | unanswered | missing | seen => exact Trace.quiet_single rfl

theorem guarded_of_yields (h : (state ctx resources chart).Yields t r) :
    t.Guarded (Allowed ctx resources chart) := by
  cases course_of_yields h with
  | unanswered | absent | ambiguous | foreign => exact ⟨nofun, trivial⟩
  | adopted installed hnone hadopted =>
    refine ⟨nofun, ?_⟩
    cases hadopted with
    | current | unreadable => trivial
    | refused text _ hv ht =>
      exact ⟨fun _ => .create installed text List.mem_cons_self hnone hv ht, trivial⟩
    | created text _ _ hv ht =>
      exact ⟨fun _ => .create installed text List.mem_cons_self hnone hv ht,
        nofun, trivial⟩
  | updated installed existing hsome hv hupdated =>
    refine ⟨nofun, ?_⟩
    cases hupdated with
    | unreadable => trivial
    | refused text _ ht => exact ⟨fun _ => .replace existing text hsome hv ht, trivial⟩
    | replaced text ht => exact ⟨fun _ => .replace existing text hsome hv ht, trivial⟩
  | followed installed existing _ _ _ hfollowed =>
    exact ⟨nofun, hfollowed.quiet.guarded⟩

/-- an evaluation that has written stops what it is part of -/
def Stopping (r : Except UpgradeError ChartState) : Prop :=
  r = .ok .inProgress ∨ ∃ e, (∀ release, e ≠ .multipleHelmCharts release) ∧ r = .error e

/-- an evaluation writes at most once, and then it is in progress or has failed -/
theorem brief_of_yields (h : (state ctx resources chart).Yields t r) (hgen : t.Genuine) :
    t.Brief (Stopping r) := by
  cases course_of_yields h with
  | unanswered | absent | ambiguous | foreign =>
    exact .inl (Trace.quiet_single rfl)
  | adopted installed _ hadopted =>
    cases hadopted with
    | current | unreadable => exact .inl (Trace.quiet_single rfl)
    | refused text e =>
      refine .inr ⟨rfl, .inr ⟨e, fun release he => ?_, rfl⟩⟩
      exact hgen _ (List.mem_cons_of_mem _ List.mem_cons_self) release (by rw [he])
    | created => exact .inr ⟨rfl, .inl rfl⟩
  | updated installed existing _ _ hupdated =>
    cases hupdated with
    | unreadable => exact .inl (Trace.quiet_single rfl)
    | refused text e =>
      refine .inr ⟨rfl, .inr ⟨e, fun release he => ?_, rfl⟩⟩
      exact hgen _ (List.mem_cons_of_mem _ List.mem_cons_self) release (by rw [he])
    | replaced => exact .inr ⟨rfl, .inl rfl⟩
  | followed _ _ _ _ _ hfollowed => exact .inl ((Trace.quiet_cons _ _).mpr ⟨rfl, hfollowed.quiet⟩)

end

end ReleaseUpgrade.Evaluation
