import ReleaseUpgrade.Proofs.Phases.Workload

/-!
# Charts that count as done

An evaluation finds a chart done, and a workload goes on to what comes after it.  Whether the
version of the chart is really installed by then depends on where the evaluation took its answer
from.

* `Evaluation.Credited`    the answer comes from the chart resource, not from what is installed;
* `Evaluation.isDone_iff`  a chart is done if it is credited, or if its version is installed and it
                           has no chart resource;
* `Trace.lookups`          what the cluster said about installed releases, one answer for each chart
                           that is evaluated;
* `Workload.Vouched`       the version of a chart is installed, or the chart is credited; so it is
                           with all that a workload has passed, `Workload.vouched_of_yields`.
-/

namespace ReleaseUpgrade

/-- the latest release of a name has been asked for, with this answer -/
def Exchange.lookup? : Exchange → Option (String × Except UpgradeError (Option HelmRelease))
  | ⟨.latestRelease name, answer⟩ => some (name, answer)
  | _ => none

/-- what has been asked about installed releases, with the answers -/
def Trace.lookups (t : Trace) : List (String × Except UpgradeError (Option HelmRelease)) :=
  t.filterMap Exchange.lookup?

theorem Trace.lookups_append (u v : Trace) : lookups (u ++ v) = lookups u ++ lookups v :=
  List.filterMap_append

namespace Evaluation

/-- the answer of the cluster names a release with the version of the chart -/
def Installed (chart : ReleaseChart)
    (lookup : String × Except UpgradeError (Option HelmRelease)) : Prop :=
  ∃ installed, lookup = (chart.releaseName, .ok (some installed)) ∧
    installed.chartVersion = chart.version

/-- the chart resource has the version of the chart; and either it was last set for another release,
or its job is complete -/
inductive Credited (ctx : Context) (resources : List HelmChart) (chart : ReleaseChart)
    (t : Trace) : Prop
  | foreign (existing) : resource? chart.releaseName resources = .ok (some existing) →
      existing.spec.version = chart.version →
      existing.metadata.noted? ctx.settings.keys.release ≠ some ctx.plan.spec.releaseVersion →
      Credited ctx resources chart t
  | complete (existing name) (job : Job) :
      resource? chart.releaseName resources = .ok (some existing) →
      existing.spec.version = chart.version →
      existing.metadata.noted? ctx.settings.keys.release = some ctx.plan.spec.releaseVersion →
      existing.jobName? = some name →
      .got .job (jobNamespace ctx existing) name (some job) ∈ t →
      job.outcome? = some .complete → Credited ctx resources chart t

section
variable {ctx : Context} {resources : List HelmChart} {chart : ReleaseChart} {t : Trace}

theorem Credited.mono {u : Trace} (h : Credited ctx resources chart t) (hsub : ∀ x ∈ t, x ∈ u) :
    Credited ctx resources chart u := by
  cases h with
  | foreign existing hsome hv hn => exact .foreign existing hsome hv hn
  | complete existing name job hsome hv hn hname hjob hdone =>
    exact .complete existing name job hsome hv hn hname (hsub _ hjob) hdone

/-- an evaluation asks once about installed releases, and first of all -/
theorem lookups_of_yields {r : Except UpgradeError ChartState}
    (h : (state ctx resources chart).Yields t r) :
    ∃ answer, t.lookups = [(chart.releaseName, answer)] := by
  cases course_of_yields h with
  | unanswered | absent | ambiguous | foreign => exact ⟨_, rfl⟩
  | adopted _ _ h => cases h <;> exact ⟨_, rfl⟩
  | updated _ _ _ _ h => cases h <;> exact ⟨_, rfl⟩
  | followed _ _ _ _ _ h => cases h <;> exact ⟨_, rfl⟩

theorem lookups_of_found {installed : Option HelmRelease} {r : Except UpgradeError ChartState}
    (h : (state ctx resources chart).Yields (.found chart.releaseName installed :: t) r) :
    Trace.lookups (.found chart.releaseName installed :: t) =
      [(chart.releaseName, .ok installed)] := by
  obtain ⟨answer, hl⟩ := lookups_of_yields h
  have hl : (chart.releaseName, .ok installed) :: t.lookups = [(chart.releaseName, answer)] := hl
  show (chart.releaseName, .ok installed) :: t.lookups = _
  rw [(List.cons.inj hl).2]

theorem ofOutcome_isDone (outcome? : Option JobOutcome) :
    (ofOutcome outcome?).isDone = true ↔ outcome? = some .complete := by
  cases outcome? with
  | none => exact ⟨nofun, nofun⟩
  | some outcome =>
    cases outcome with
    | complete => exact ⟨fun _ => rfl, fun _ => rfl⟩
    | failed => exact ⟨nofun, nofun⟩

theorem not_credited_of_none (hnone : resource? chart.releaseName resources = .ok none) :
    ¬Credited ctx resources chart t := by
  rintro (⟨_, hsome, _⟩ | ⟨_, _, _, hsome, _⟩) <;> (rw [hnone] at hsome; cases hsome)

theorem not_credited_of_ne {existing : HelmChart}
    (hsome : resource? chart.releaseName resources = .ok (some existing))
    (hv : existing.spec.version ≠ chart.version) : ¬Credited ctx resources chart t := by
  rintro (⟨_, h, hsame, _⟩ | ⟨_, _, _, h, hsame, _⟩) <;>
    (rw [hsome] at h; cases h; exact hv hsame)

/-- a chart resource that was last set for the release gives credit if its job is complete -/
theorem credited_iff_complete {existing : HelmChart}
    (hsome : resource? chart.releaseName resources = .ok (some existing))
    (hv : existing.spec.version = chart.version)
    (hn : existing.metadata.noted? ctx.settings.keys.release = some ctx.plan.spec.releaseVersion) :
    Credited ctx resources chart t ↔ ∃ name, ∃ job : Job, existing.jobName? = some name ∧
      .got .job (jobNamespace ctx existing) name (some job) ∈ t ∧
      job.outcome? = some .complete := by
  constructor
  · rintro (⟨_, h, _, hne⟩ | ⟨_, name, job, h, _, _, hname, hjob, hdone⟩) <;>
      (rw [hsome] at h; cases h)
    · exact absurd hn hne
    · exact ⟨name, job, hname, hjob, hdone⟩
  · rintro ⟨name, job, hname, hjob, hdone⟩
    exact .complete existing name job hsome hv hn hname hjob hdone

/-- the job of a chart resource decides whether it is done -/
theorem Followed.isDone_iff {existing : HelmChart} {s : ChartState}
    (h : Followed ctx existing t (.ok s)) :
    s.isDone = true ↔ ∃ name, ∃ job : Job, existing.jobName? = some name ∧
      .got .job (jobNamespace ctx existing) name (some job) ∈ t ∧
      job.outcome? = some .complete := by
  cases h with
  | jobless hnone =>
    refine ⟨nofun, ?_⟩
    rintro ⟨_, _, hname, _⟩
    rw [hnone] at hname
    cases hname
  | missing name hsome =>
    refine ⟨nofun, ?_⟩
    rintro ⟨_, job, _, hjob, _⟩
    cases List.mem_singleton.mp hjob
  | seen name job hname =>
    rw [ofOutcome_isDone]
    constructor
    · exact fun hdone => ⟨name, job, hname, List.mem_singleton_self _, hdone⟩
    · rintro ⟨_, _, _, hjob, hdone⟩
      cases List.mem_singleton.mp hjob
      exact hdone

/-- a chart is done if it is credited, or if it has no chart resource and its version is installed;
that a release is installed at all is certain -/
theorem isDone_iff {s : ChartState} (h : (state ctx resources chart).Yields t (.ok s)) :
    s.isDone = true ↔
      ∃ installed, t.lookups = [(chart.releaseName, .ok (some installed))] ∧
        (Credited ctx resources chart t ∨ resource? chart.releaseName resources = .ok none ∧
          installed.chartVersion = chart.version) := by
  -- the trace begins with the only lookup, so that is the release that is spoken of
  have key {installed : HelmRelease} {t : Trace} {P : HelmRelease → Prop}
      (h : (state ctx resources chart).Yields
        (.found chart.releaseName (some installed) :: t) (.ok s)) :
      (∃ i, Trace.lookups (.found chart.releaseName (some installed) :: t) =
        [(chart.releaseName, .ok (some i))] ∧ P i) ↔ P installed := by
    rw [lookups_of_found h]
    constructor
    · rintro ⟨i, he, hi⟩
      cases he
      exact hi
    · exact fun hi => ⟨installed, rfl, hi⟩
  cases course_of_yields h with
  | absent =>
    refine ⟨nofun, ?_⟩
    rintro ⟨_, he, _⟩
    cases he
  | adopted installed hnone hadopted =>
    rw [key h, or_iff_right (not_credited_of_none hnone)]
    cases hadopted with
    | current hv => exact ⟨fun _ => ⟨hnone, hv⟩, fun _ => rfl⟩
    | created _ _ _ hv => exact ⟨nofun, fun h => absurd h.2 hv⟩
  | updated installed existing hsome hv hupdated =>
    cases hupdated with
    | replaced =>
      rw [key h, or_iff_right (not_credited_of_ne hsome hv), hsome]
      exact ⟨nofun, nofun⟩
  | foreign installed existing hsome hv hn =>
    rw [key h]
    exact ⟨fun _ => .inl (.foreign existing hsome hv hn), fun _ => rfl⟩
  | followed installed existing hsome hv hn hfollowed =>
    rw [key h, or_iff_left (by rw [hsome]; exact nofun), credited_iff_complete hsome hv hn,
      hfollowed.isDone_iff]
    constructor
    · rintro ⟨name, job, hname, hjob, hdone⟩
      exact ⟨name, job, hname, List.mem_cons_of_mem _ hjob, hdone⟩
    · rintro ⟨name, job, hname, hjob, hdone⟩
      obtain he | hjob := List.mem_cons.mp hjob
      · cases he
      · exact ⟨name, job, hname, hjob, hdone⟩

/-- a release with another version is installed, but the chart is credited -/
def Overstated (ctx : Context) (resources : List HelmChart) (chart : ReleaseChart) (t : Trace) :
    Prop :=
  ∃ installed, t.lookups = [(chart.releaseName, .ok (some installed))] ∧
    installed.chartVersion ≠ chart.version ∧ Credited ctx resources chart t

/-- that a chart is done tells that its version is installed, unless the evaluation overstates it -/
theorem sound_iff {s : ChartState} (h : (state ctx resources chart).Yields t (.ok s)) :
    (s.isDone = true → ∃ l, t.lookups = [l] ∧ Installed chart l) ↔
      ¬Overstated ctx resources chart t := by
  rw [isDone_iff h]
  constructor
  · rintro hsound ⟨installed, hl, hv, hcredit⟩
    obtain ⟨l, hl', _, rfl, hv'⟩ := hsound ⟨installed, hl, .inl hcredit⟩
    rw [hl] at hl'
    cases hl'
    exact hv hv'
  · rintro hsound ⟨installed, hl, hcase⟩
    refine ⟨_, hl, installed, rfl, ?_⟩
    obtain hcredit | ⟨_, hv⟩ := hcase
    · exact Classical.byContradiction fun hv => hsound ⟨installed, hl, hv, hcredit⟩
    · exact hv

end

end Evaluation

namespace Workload
variable {ctx : Context} {condition : String} {resources : List HelmChart}
  {cs : List ReleaseChart} {before after : Status} {t : Trace}

/-- the answer about a chart names a release; it has the version of the chart, or the chart is
credited -/
def Vouched (ctx : Context) (resources : List HelmChart) (t : Trace) (chart : ReleaseChart)
    (lookup : String × Except UpgradeError (Option HelmRelease)) : Prop :=
  ∃ installed, lookup = (chart.releaseName, .ok (some installed)) ∧
    (installed.chartVersion = chart.version ∨ Evaluation.Credited ctx resources chart t)

theorem Vouched.mono {u : Trace} {chart : ReleaseChart}
    {lookup : String × Except UpgradeError (Option HelmRelease)}
    (h : Vouched ctx resources t chart lookup) (hsub : ∀ x ∈ t, x ∈ u) :
    Vouched ctx resources u chart lookup := by
  obtain ⟨installed, hl, hcase⟩ := h
  exact ⟨installed, hl, hcase.imp_right fun hc => hc.mono hsub⟩

theorem Walk.length_lookups (h : Walk ctx resources cs t) : t.lookups.length = cs.length := by
  induction h with
  | nil => rfl
  | cons chart rest s h _ _ ih =>
    obtain ⟨answer, hl⟩ := Evaluation.lookups_of_yields h
    rw [Trace.lookups_append, List.length_append, hl, ih, List.length_cons, Nat.add_comm]
    rfl

/-- each chart of a walk is vouched for by the answer at its place -/
theorem Walk.vouched (h : Walk ctx resources cs t) {j : Nat} {chart : ReleaseChart}
    (hj : cs[j]? = some chart) :
    ∃ l, t.lookups[j]? = some l ∧ Vouched ctx resources t chart l := by
  induction h generalizing j with
  | nil => cases hj
  | cons first rest s h hdone _ ih =>
    rename_i u v _
    obtain ⟨installed, hl, hcase⟩ := (Evaluation.isDone_iff h).mp hdone
    rw [Trace.lookups_append, hl]
    cases j with
    | zero =>
      cases hj
      refine ⟨_, rfl, installed, rfl, ?_⟩
      obtain hcredit | ⟨_, hv⟩ := hcase
      · exact .inr (hcredit.mono fun x hx => List.mem_append_left v hx)
      · exact .inl hv
    | succ j =>
      obtain ⟨l, hj, hl⟩ := ih hj
      exact ⟨l, hj, hl.mono fun x hx => List.mem_append_right u hx⟩

theorem Walk.vouched_append {u v : Trace} (h : Walk ctx resources cs u) {j : Nat}
    {chart : ReleaseChart} (hj : cs[j]? = some chart) :
    ∃ l, (u ++ v).lookups[j]? = some l ∧ Vouched ctx resources (u ++ v) chart l := by
  obtain ⟨l, hl, hv⟩ := h.vouched hj
  refine ⟨l, ?_, hv.mono fun x hx => List.mem_append_left v hx⟩
  obtain ⟨hlt, _⟩ := List.getElem?_eq_some_iff.mp hl
  rw [Trace.lookups_append, List.getElem?_append_left hlt]
  exact hl

/-- a step that has passed a chart that the workload cannot do without, or that has set the
condition to true, has found that chart vouched for -/
theorem vouched_of_yields {w : ReleaseChart} {r : Except UpgradeError Requeue} {t : Trace}
    (h : (step ctx w).Yields before (.listed .helmChart none resources :: t) r after) {j : Nat}
    {chart : ReleaseChart} (hj : (w.dependencies ++ [w])[j]? = some chart)
    (hpassed : j + 1 < t.lookups.length ∨
      after.isSucceeded (Status.workloadUpgraded w.prettyName) = true ∧
        before.isSucceeded (Status.workloadUpgraded w.prettyName) = false) :
    ∃ l, t.lookups[j]? = some l ∧ Vouched ctx resources t chart l := by
  obtain ⟨_, he, _, _⟩ | ⟨_, _, he, hu⟩ := step_of_yields h
  · cases he
  cases he
  obtain ⟨pre, next, post, x, hpre, hw, hx, _, hheld⟩ | ⟨v, a, rfl, hw, _⟩ := hu
  · obtain hpassed | ⟨hafter, hbefore⟩ := hpassed
    · obtain ⟨answer, hl⟩ := Evaluation.lookups_of_yields hx
      rw [Trace.lookups_append, List.length_append, hw.length_lookups, hl] at hpassed
      have hlt : j < pre.length := Nat.lt_of_succ_lt_succ hpassed
      rw [hpre, List.getElem?_append_left hlt] at hj
      exact hw.vouched_append hj
    · rw [← hheld.isSucceeded hafter, hafter] at hbefore
      cases hbefore
  · exact hw.vouched_append hj

end Workload

/-- a chart that counts as done has its version, and so has each chart that a pass over a workload
leaves behind, whatever the status before it and whatever the cluster answers; the only exception
is a chart that is credited while another version is installed -/
theorem done_iff_installed_unless_overstated (ctx : Context) :
    (∀ resources chart t s, (Evaluation.state ctx resources chart).Yields t (.ok s) →
      ((s.isDone = true → ∃ l, t.lookups = [l] ∧ Evaluation.Installed chart l) ↔
        ¬Evaluation.Overstated ctx resources chart t)) ∧
    ∀ w resources before (t : Trace) r after,
      (Workload.step ctx w).Yields before (.listed .helmChart none resources :: t) r after →
      ∀ (j : Nat) chart, (w.dependencies ++ [w])[j]? = some chart →
        (j + 1 < t.lookups.length ∨
          after.isSucceeded (Status.workloadUpgraded w.prettyName) = true ∧
            before.isSucceeded (Status.workloadUpgraded w.prettyName) = false) →
        ∃ l, t.lookups[j]? = some l ∧ Workload.Vouched ctx resources t chart l := by
  constructor
  · intro resources chart t s h
    exact Evaluation.sound_iff h
  · intro w resources before t r after h j chart hj hpassed
    exact Workload.vouched_of_yields h hj hpassed

namespace Unfinished

/-- a plan for the release 3.1.0 -/
def context : Context where
  settings := {}
  plan := { spec := { releaseVersion := "3.1.0" } }
  now := ⟨0, 0⟩

/-- a chart of that release -/
def chart : ReleaseChart :=
  { releaseName := "metal3", name := "metal3", version := "0.8.0", prettyName := "Metal3" }

/-- another chart, which depends on it -/
def dependent : ReleaseChart :=
  { releaseName := "rancher", name := "rancher", version := "2.9.3", prettyName := "Rancher"
    dependencies := [chart] }

/-- an older version of the chart is installed -/
def installed : HelmRelease :=
  { name := "metal3", ns := "metal3-system", revision := 1, chartVersion := "0.7.0" }

/-- the chart resource has been set to the version for the release before -/
def resource : HelmChart where
  metadata := {
    name := some "metal3"
    ns := some "kube-system"
    annotations := some [("lifecycle.ruo.io/release", "3.0.0")] }
  spec := { chart := "metal3", version := "0.8.0" }
  status := some { jobName := "helm-install-metal3" }

theorem yields : (Evaluation.state context [resource] chart).Yields
    [.found "metal3" (some installed)] (.ok .versionAlreadyInstalled) :=
  ⟨.ok (some installed), [], rfl, rfl, rfl⟩

theorem dependent_yields : ∃ after, (Workload.step context dependent).Yields {}
    [.listed .helmChart none [resource], .found "metal3" (some installed), .found "rancher" none]
    (.ok Requeue.immediately) after :=
  ⟨_, .ok [resource], _, rfl, .ok (some installed), _, rfl, .ok none, _, rfl, rfl, rfl⟩

end Unfinished

/-- a chart counts as done while an older version is installed -/
theorem done_before_installed :
    ¬∀ ctx resources chart t s, (Evaluation.state ctx resources chart).Yields t (.ok s) →
      s.isDone = true → ∃ l, t.lookups = [l] ∧ Evaluation.Installed chart l := by
  intro hsound
  obtain ⟨l, hl, installed, rfl, hv⟩ := hsound _ _ _ _ _ Unfinished.yields rfl
  cases hl
  exact absurd hv (by decide)

theorem done_iff_installed_unless_overstated_unfinished :
    ¬Evaluation.Overstated Unfinished.context [] Unfinished.chart [.found "metal3" none] ∧
    ∃ l, (Trace.lookups [.found "metal3" (some Unfinished.installed), .found "rancher" none])[0]? =
        some l ∧
      Workload.Vouched Unfinished.context [Unfinished.resource]
        [.found "metal3" (some Unfinished.installed), .found "rancher" none] Unfinished.chart l := by
  refine ⟨?_, ?_⟩
  · refine ((done_iff_installed_unless_overstated Unfinished.context).1 [] Unfinished.chart
      [.found "metal3" none] .notInstalled ⟨.ok none, [], rfl, rfl, rfl⟩).mp ?_
    exact nofun
  · obtain ⟨after, h⟩ := Unfinished.dependent_yields
    exact (done_iff_installed_unless_overstated Unfinished.context).2 Unfinished.dependent _ _ _ _
      after h 0 Unfinished.chart rfl (.inl (by decide))

end ReleaseUpgrade
