import ReleaseUpgrade.Proofs.Phases.Sequence

/-!
# Add-ons and the workload that they belong to

Once a workload and the charts that it depends on are done, its add-ons are to be of no consequence:
what becomes of them is told in events.  So it is, unless the stored release of an add-on or its
values cannot be read.

* `Evaluation.Unreadable`    the stored release of a chart or its values cannot be read;
* `Trace.Answered`           no call has failed;
* `Evaluated.unique`         the calls of evaluations tell what they have found out;
* `step_yields_iff_finish`   after the charts that a workload cannot do without, the add-ons are all
                             that is left of its step;
* `unaffected_iff_readable`  the step ends as that of the workload without add-ons if and only if
                             all of them can be read.
-/

namespace ReleaseUpgrade

/-- no call has failed; events may get lost, and a stored release may be unreadable -/
def Trace.Answered (t : Trace) : Prop :=
  ∀ x ∈ t, ∀ e, x.answer = .error e → x.call.isEvent = true ∨
    ∃ name release fault, x.call = .latestRelease name ∧ e = .helmRelease release fault

namespace Evaluation

/-- what is known of a chart cannot be read, and the error says what: its stored release, or the
values that are installed, that the release sets or that the user sets -/
inductive Unreadable (ctx : Context) (resources : List HelmChart) (chart : ReleaseChart)
    (t : Trace) : UpgradeError → Prop
  | release (name fault) :
      ⟨.latestRelease chart.releaseName, .error (.helmRelease name fault)⟩ ∈ t →
      Unreadable ctx resources chart t (.helmRelease name fault)
  | config (installed e) : .found chart.releaseName (some installed) ∈ t →
      resource? chart.releaseName resources = .ok none → installed.chartVersion ≠ chart.version →
      values ctx chart (.config installed.config) = .error e →
      Unreadable ctx resources chart t e
  | content (installed existing e) : .found chart.releaseName (some installed) ∈ t →
      resource? chart.releaseName resources = .ok (some existing) →
      existing.spec.version ≠ chart.version →
      values ctx chart (.yaml existing.spec.valuesContent) = .error e →
      Unreadable ctx resources chart t e

section
variable {ctx : Context} {resources : List HelmChart} {chart : ReleaseChart} {t : Trace}
  {r : Except UpgradeError ChartState} {e : UpgradeError}

/-- an evaluation asks only about the release of its chart, and gets one answer -/
theorem answer_unique (h : (state ctx resources chart).Yields t r) :
    ∃ known, ∀ (name : String) (answer : Except UpgradeError (Option HelmRelease)),
      ⟨.latestRelease name, answer⟩ ∈ t → name = chart.releaseName ∧ answer = known := by
  obtain ⟨known, hl⟩ := lookups_of_yields h
  refine ⟨known, fun name answer hmem => ?_⟩
  have hlookup : (name, answer) ∈ t.lookups := List.mem_filterMap.mpr ⟨_, hmem, rfl⟩
  rw [hl] at hlookup
  exact Prod.mk.inj (List.mem_singleton.mp hlookup)

theorem error_of_release (h : (state ctx resources chart).Yields t r) {name : String}
    {fault : StorageFault}
    (hmem : ⟨.latestRelease chart.releaseName, .error (.helmRelease name fault)⟩ ∈ t) :
    r = .error (.helmRelease name fault) := by
  obtain ⟨known, honly⟩ := answer_unique h
  obtain ⟨_, rfl⟩ := honly _ _ hmem
  cases course_of_yields h with
  | unanswered =>
    obtain ⟨_, he⟩ := honly _ _ List.mem_cons_self
    cases he
    rfl
  | absent | ambiguous | adopted | updated | foreign | followed =>
    obtain ⟨_, he⟩ := honly _ _ List.mem_cons_self
    cases he

theorem error_of_config (h : (state ctx resources chart).Yields t r) {installed : HelmRelease}
    (hfound : .found chart.releaseName (some installed) ∈ t)
    (hnone : resource? chart.releaseName resources = .ok none)
    (hv : installed.chartVersion ≠ chart.version)
    (hvalues : values ctx chart (.config installed.config) = .error e) : r = .error e := by
  obtain ⟨known, honly⟩ := answer_unique h
  obtain ⟨_, rfl⟩ := honly _ _ hfound
  cases course_of_yields h with
  | unanswered | absent =>
    obtain ⟨_, he⟩ := honly _ _ List.mem_cons_self
    cases he
  | ambiguous _ _ he | updated _ _ he | foreign _ _ he | followed _ _ he =>
    rw [hnone] at he
    cases he
  | adopted _ _ hadopted =>
    obtain ⟨_, he⟩ := honly _ _ List.mem_cons_self
    cases he
    cases hadopted with
    | current hsame => exact absurd hsame hv
    | unreadable _ _ hvalues' =>
      rw [hvalues] at hvalues'
      cases hvalues'
      rfl
    | refused _ _ _ hvalues' | created _ _ _ _ hvalues' =>
      rw [hvalues] at hvalues'
      cases hvalues'

theorem error_of_content (h : (state ctx resources chart).Yields t r) {installed : HelmRelease}
    {existing : HelmChart} (hfound : .found chart.releaseName (some installed) ∈ t)
    (hsome : resource? chart.releaseName resources = .ok (some existing))
    (hv : existing.spec.version ≠ chart.version)
    (hvalues : values ctx chart (.yaml existing.spec.valuesContent) = .error e) :
    r = .error e := by
  cases course_of_yields h with
  | unanswered | absent => cases List.mem_singleton.mp hfound
  | ambiguous _ _ he | adopted _ he =>
    rw [hsome] at he
    cases he
  | foreign _ _ he hsame | followed _ _ he hsame =>
    rw [hsome] at he
    cases he
    exact absurd hsame hv
  | updated _ _ he _ hupdated =>
    rw [hsome] at he
    cases he
    cases hupdated with
    | unreadable _ hvalues' =>
      rw [hvalues] at hvalues'
      cases hvalues'
      rfl
    | refused _ _ hvalues' | replaced _ hvalues' =>
      rw [hvalues] at hvalues'
      cases hvalues'

/-- what cannot be read is the error of the evaluation, and never that of several chart resources -/
theorem error_of_unreadable (h : (state ctx resources chart).Yields t r)
    (hu : Unreadable ctx resources chart t e) :
    r = .error e ∧ ∀ release, e ≠ .multipleHelmCharts release := by
  cases hu with
  | release name fault hmem => exact ⟨error_of_release h hmem, nofun⟩
  | config installed _ hfound hnone hv hvalues =>
    exact ⟨error_of_config h hfound hnone hv hvalues,
      fun release he => values_ne_multiple (he ▸ hvalues)⟩
  | content installed existing _ hfound hsome hv hvalues =>
    exact ⟨error_of_content h hfound hsome hv hvalues,
      fun release he => values_ne_multiple (he ▸ hvalues)⟩

/-- if no call has failed, an evaluation fails because several chart resources are there or because
something cannot be read -/
theorem unreadable_of_error (h : (state ctx resources chart).Yields t (.error e))
    (hcalls : t.Answered) (hne : ∀ release, e ≠ .multipleHelmCharts release) :
    Unreadable ctx resources chart t e := by
  cases fault_of_yields h with
  | refused x _ hx he hevent =>
    obtain hcall | ⟨name, release, fault, hcall, rfl⟩ := hcalls x hx e he
    · rw [hevent] at hcall
      cases hcall
    · obtain ⟨c, answer⟩ := x
      obtain rfl : c = .latestRelease name := hcall
      obtain rfl : answer = .error (.helmRelease release fault) := he
      obtain ⟨known, honly⟩ := answer_unique h
      obtain ⟨rfl, _⟩ := honly _ _ hx
      exact .release release fault hx
  | several => exact absurd rfl (hne _)
  | config installed _ hfound hnone hv hvalues => exact .config installed e hfound hnone hv hvalues
  | content installed existing _ hfound hsome hv hvalues =>
    exact .content installed existing e hfound hsome hv hvalues

end

end Evaluation

namespace Workload

section
variable {ctx : Context} {condition : String} {resources : List HelmChart}
  {event? : Finding → Option Event} {findings more : List Finding} {t u : Trace}

/-- evaluations of one chart with the same calls have found out the same -/
theorem Finding.Holds.unique {f f' : Finding} {u' : Trace} (h : f.Holds ctx resources)
    (h' : f'.Holds ctx resources) (hchart : f.chart = f'.chart)
    (heq : f.calls ++ u = f'.calls ++ u') : f = f' ∧ u = u' := by
  obtain ⟨chart, calls, result⟩ := f
  obtain ⟨chart', calls', result'⟩ := f'
  obtain rfl : chart = chart' := hchart
  obtain ⟨hcalls, hresult, hafter⟩ := Program.Yields.front_unique h h' heq
  obtain rfl : calls = calls' := hcalls
  obtain rfl : result = result' := hresult
  exact ⟨rfl, hafter⟩

/-- every evaluation makes a call -/
theorem Evaluated.eq_nil (h : Evaluated ctx resources event? findings []) : findings = [] := by
  cases findings with
  | nil => rfl
  | cons f rest =>
    have hlookups := h.lookups
    cases hlookups

/-- the calls of evaluations that have been made in the order of some charts tell what has been
found out -/
theorem Evaluated.unique {findings' : List Finding} {cs : List ReleaseChart}
    (h : Evaluated ctx resources event? findings t)
    (h' : Evaluated ctx resources event? findings' t)
    (hcs : findings.map Finding.chart <+: cs) (hcs' : findings'.map Finding.chart <+: cs) :
    findings = findings' := by
  induction h generalizing findings' cs with
  | nil => exact h'.eq_nil.symm
  | @cons f told rest t hf htold hrest ih =>
    generalize ht : f.calls ++ told ++ t = t' at h'
    cases h' with
    | nil => exact (ht ▸ Evaluated.cons f hf htold hrest).eq_nil
    | @cons f' told' rest' t' hf' htold' hrest' =>
      obtain ⟨c, cs, rfl⟩ : ∃ c cs', cs = c :: cs' := by
        cases cs with
        | nil => cases List.prefix_nil.mp hcs
        | cons c cs => exact ⟨c, cs, rfl⟩
      obtain ⟨hc, hrestcs⟩ := List.cons_prefix_cons.mp hcs
      obtain ⟨hc', hrestcs'⟩ := List.cons_prefix_cons.mp hcs'
      -- the same chart has been evaluated, so with the same calls and the same result
      rw [List.append_assoc, List.append_assoc] at ht
      obtain ⟨rfl, hafter⟩ := hf.unique hf' (hc.trans hc'.symm) ht
      have hlength : told.length = told'.length := by
        rw [← List.length_map Exchange.call, htold, ← htold', List.length_map]
      obtain ⟨_, rfl⟩ := List.append_inj hafter hlength
      rw [ih hrest' hrestcs hrestcs']

end

namespace Trailed
variable {ctx : Context} {condition : String} {cs : List ReleaseChart} {before after : Status}
  {findings : List Finding} {p : Except UpgradeError Progress}

theorem of_passed (h : Trailed ctx condition before cs findings p after)
    (hpassed : ∀ f ∈ findings, Passed f.result) : p = .ok .goesOn ∧ after = before := by
  induction h with
  | nil => exact ⟨rfl, rfl⟩
  | passed f _ _ ih => exact ih (List.forall_mem_cons.mp hpassed).2
  | inProgress f _ hf | unknown f _ hf =>
    have hgoes := hpassed f List.mem_cons_self
    rw [hf] at hgoes
    cases hgoes
  | broken f _ e hf hne =>
    have hgoes := hpassed f List.mem_cons_self
    rw [hf] at hgoes
    obtain ⟨release, he⟩ := hgoes
    exact absurd he (hne release)

theorem of_broken {f : Finding} {e : UpgradeError}
    (h : Trailed ctx condition before cs findings p after) (hf : f ∈ findings)
    (he : f.result = .error e) (hne : ∀ release, e ≠ .multipleHelmCharts release) :
    p = .error e ∧ after = before := by
  induction h with
  | nil => cases hf
  | passed g hpassed _ ih =>
    obtain rfl | hf := List.mem_cons.mp hf
    · rw [he] at hpassed
      obtain ⟨release, he⟩ := hpassed
      exact absurd he (hne release)
    · exact ih hf
  | inProgress g _ hg | unknown g _ hg =>
    obtain rfl := List.mem_singleton.mp hf
    rw [he] at hg
    cases hg
  | broken g _ e' hg =>
    obtain rfl := List.mem_singleton.mp hf
    rw [he] at hg
    cases hg
    exact ⟨rfl, rfl⟩

end Trailed

section
variable {ctx : Context} {condition : String} {resources : List HelmChart}
  {before after : Status} {w : ReleaseChart}

theorem required_yields {chart : ReleaseChart} {s : ChartState} {t : Trace}
    (h : (Evaluation.state ctx resources chart).Yields t (.ok s)) :
    (required ctx condition resources chart).Yields before t (.ok (some s)) before := by
  have hstate : (stateOf ctx resources chart).Yields t (.ok (.ok s)) := by
    refine (Action.yields_recover ..).mpr (.inl ⟨.ok s, ?_, rfl⟩)
    refine (Action.yields_bind ..).mpr (.inr ⟨s, t, [], (List.append_nil t).symm, h, ?_⟩)
    exact ⟨rfl, rfl⟩
  refine (Step.yields_bind_lift ..).mpr (.inr ⟨.ok s, t, [], (List.append_nil t).symm, hstate, ?_⟩)
  exact (Step.yields_pure ..).mpr ⟨rfl, rfl, rfl⟩

/-- a workload gets past the charts that it depends on if they are done -/
theorem dependencies_yields {findings : List Finding} {t : Trace}
    (h : Evaluated ctx resources Finding.silent findings t) (hdone : ∀ f ∈ findings, f.IsDone) :
    (dependencies ctx condition resources (findings.map Finding.chart)).Yields before t
      (.ok .goesOn) before := by
  induction findings generalizing t with
  | nil =>
    cases h
    exact (Step.yields_pure ..).mpr ⟨rfl, rfl, rfl⟩
  | cons f rest ih =>
    obtain ⟨v, rfl, hf, hrest⟩ := h.of_silent rfl
    obtain ⟨⟨s, hs, hisDone⟩, hdone⟩ := List.forall_mem_cons.mp hdone
    have hstate : (Evaluation.state ctx resources f.chart).Yields f.calls (.ok s) := hs ▸ hf
    rw [List.map_cons, dependencies]
    refine (Step.yields_bind_iff (required_yields hstate)).mpr ?_
    simp only [hisDone, if_true]
    exact ih hrest hdone

/-- after the charts that a workload cannot do without, the add-ons are all that is left of its
step -/
theorem step_yields_iff_finish {pre : List Finding} {core : ChartState} {t u v : Trace}
    {r : Except UpgradeError Requeue} (hpre : Evaluated ctx resources Finding.silent pre t)
    (hcharts : pre.map Finding.chart = w.dependencies) (hdone : ∀ f ∈ pre, f.IsDone)
    (hcore : (Evaluation.state ctx resources w).Yields u (.ok core))
    (hisDone : core.isDone = true) :
    (step ctx w).Yields before (.listed .helmChart none resources :: (t ++ (u ++ v))) r after ↔
      (finish ctx (Status.workloadUpgraded w.prettyName) resources w core).Yields before v r
        after := by
  have hlist : (liftM (Action.list .helmChart none) : Step (List HelmChart)).Yields before
      [.listed .helmChart none resources] (.ok resources) before :=
    (Step.yields_lift ..).mpr ⟨(Action.yields_perform ..).mpr rfl, rfl⟩
  have hdeps : (dependencies ctx (Status.workloadUpgraded w.prettyName) resources
      (pre.map Finding.chart)).Yields before t (.ok .goesOn) before :=
    dependencies_yields hpre hdone
  rw [hcharts] at hdeps
  refine (Step.yields_bind_iff hlist).trans ((Step.yields_bind_iff hdeps).trans ?_)
  refine (Step.yields_bind_iff (required_yields hcore)).trans ?_
  have hinstalled : core ≠ .notInstalled := by
    rintro rfl
    cases hisDone
  simp only [hisDone, if_true, hinstalled, decide_false, Bool.false_and, Bool.false_eq_true,
    if_false]

/-- if the charts that a workload cannot do without are done, whatever its add-ons are, they are all
that is left of its step -/
theorem exists_core {required : List Finding} {u : Trace}
    (hrequired : Evaluated ctx resources Finding.silent required u)
    (hcharts : required.map Finding.chart = w.dependencies ++ [w])
    (hdone : ∀ f ∈ required, f.IsDone) :
    ∃ core, core.isDone = true ∧ ∀ before addons v r after,
      (step ctx { w with addons }).Yields before (.listed .helmChart none resources :: (u ++ v)) r
          after ↔
        (finish ctx (Status.workloadUpgraded w.prettyName) resources { w with addons } core).Yields
          before v r after := by
  obtain ⟨pre, last, rfl, hpre, hlast⟩ := List.map_eq_append_iff.mp hcharts
  obtain ⟨f, rfl, rfl⟩ := List.map_eq_singleton_iff.mp hlast
  obtain ⟨hpredone, hfdone⟩ := List.forall_mem_append.mp hdone
  obtain ⟨core, hs, hisDone⟩ := List.forall_mem_singleton.mp hfdone
  obtain ⟨t, _, rfl, hpreev, hfev⟩ := hrequired.of_append
  obtain ⟨rfl, hf⟩ := hfev.of_single rfl
  refine ⟨core, hisDone, fun before addons v r after => ?_⟩
  -- the add-ons of a chart are nothing to its own evaluation
  have hcore : (Evaluation.state ctx resources { f.chart with addons }).Yields f.calls (.ok core) :=
    hs ▸ hf
  rw [List.append_assoc]
  exact step_yields_iff_finish hpreev hpre hpredone hcore hisDone

/-- what is left of the step of a workload without add-ons: its own state becomes the condition -/
theorem finish_yields {core : ChartState} (hisDone : core.isDone = true)
    (hnone : w.addons = []) :
    (finish ctx condition resources w core).Yields before [] (.ok .immediately)
      (before.setCondition ctx.now condition core.reason (core.message w.releaseName)) := by
  have haddons : (addons ctx condition w.releaseName resources w.addons).Yields before []
      (.ok .goesOn) before := by
    rw [hnone]
    exact (Step.yields_pure ..).mpr ⟨rfl, rfl, rfl⟩
  refine (Step.yields_bind_iff haddons).mpr ((Context.yields_bind_setCondition ..).mpr ?_)
  refine (Step.yields_pure ..).mpr ⟨rfl, ?_, rfl⟩
  rw [goesOn_of_isDone hisDone, if_pos rfl]

/-- an add-on that is neither in progress nor unknown is passed over if it can be read -/
theorem passed_of_readable {f : Finding} (hf : f.Holds ctx resources) (hcalls : f.calls.Answered)
    (hinProgress : f.result ≠ .ok .inProgress) (hunknown : f.result ≠ .ok .unknown)
    (hreadable : ∀ e, ¬Evaluation.Unreadable ctx resources f.chart f.calls e) :
    Passed f.result := by
  obtain ⟨chart, calls, result⟩ := f
  cases result with
  | ok s =>
    cases s with
    | inProgress => exact absurd rfl hinProgress
    | unknown => exact absurd rfl hunknown
    | notInstalled | versionAlreadyInstalled | succeeded | failed => rfl
  | error e =>
    by_contra hnot
    have hne : ∀ release, e ≠ .multipleHelmCharts release := fun release he => hnot ⟨release, he⟩
    exact hreadable e (Evaluation.unreadable_of_error hf hcalls hne)

/-- a workload and the charts that it depends on are done, its add-ons are neither in progress nor
unknown, and no call about them has failed.  Then the step ends as that of the workload without
add-ons if and only if the stored release and the values of every add-on can be read; the first one
that cannot be read ends the step with its error, and the condition stays as it was -/
theorem unaffected_iff_readable {required addons : List Finding} {u v : Trace}
    {r : Except UpgradeError Requeue}
    (h : (step ctx w).Yields before (.listed .helmChart none resources :: (u ++ v)) r after)
    (hrequired : Evaluated ctx resources Finding.silent required u)
    (hcharts : required.map Finding.chart = w.dependencies ++ [w])
    (hdone : ∀ f ∈ required, f.IsDone)
    (haddons : Evaluated ctx resources
      (Finding.event? (Status.workloadUpgraded w.prettyName) w.releaseName) addons v)
    (hfirst : addons.map Finding.chart <+: w.addons)
    (hstates : ∀ f ∈ addons, f.result ≠ .ok .inProgress ∧ f.result ≠ .ok .unknown)
    (hcalls : v.Answered) :
    ∃ after₀,
      (step ctx { w with addons := [] }).Yields before (.listed .helmChart none resources :: u)
        (.ok .immediately) after₀ ∧
      ((r = .ok .immediately ∧ after = after₀) ↔
        ∀ f ∈ addons, ∀ e, ¬Evaluation.Unreadable ctx resources f.chart f.calls e) ∧
      ∀ f ∈ addons, ∀ e, Evaluation.Unreadable ctx resources f.chart f.calls e →
        r = .error e ∧ after = before := by
  obtain ⟨core, hisDone, hiff⟩ := exists_core hrequired hcharts hdone
  obtain ⟨findings, p, between, hev, htrail, hend⟩ :=
    finish_course ((hiff before w.addons v r after).mp h)
  obtain rfl := hev.unique haddons htrail.charts_first hfirst
  have broken {f : Finding} {e : UpgradeError} (hf : f ∈ findings)
      (hu : Evaluation.Unreadable ctx resources f.chart f.calls e) :
      r = .error e ∧ after = before := by
    obtain ⟨he, hne⟩ := Evaluation.error_of_unreadable (hev.holds f hf) hu
    obtain ⟨rfl, rfl⟩ := htrail.of_broken hf he hne
    cases hend
    exact ⟨rfl, rfl⟩
  have hwithout := (hiff before [] [] _ _).mpr (finish_yields hisDone rfl)
  rw [List.append_nil] at hwithout
  refine ⟨_, hwithout, ⟨?_, fun hreadable => ?_⟩, fun f hf e hu => broken hf hu⟩
  · rintro ⟨rfl, rfl⟩ f hf e hu
    cases (broken hf hu).1
  · have hpassed : ∀ f ∈ findings, Passed f.result := fun f hf =>
      passed_of_readable (hev.holds f hf) (fun x hx => hcalls x (hev.subset hf x hx))
        (hstates f hf).1 (hstates f hf).2 (hreadable f hf)
    obtain ⟨rfl, rfl⟩ := htrail.of_passed hpassed
    cases hend
    rw [goesOn_of_isDone hisDone]
    exact ⟨rfl, rfl⟩

end

end Workload

namespace Unmergeable

/-- an add-on of a chart -/
def addon : ReleaseChart :=
  { releaseName := "metal3-ui", name := "metal3-ui", version := "1.1.0", prettyName := "Metal3 UI" }

/-- the chart with it -/
def chart : ReleaseChart := { Unfinished.chart with addons := [addon] }

/-- an older version of the add-on is installed -/
def installed : HelmRelease :=
  { name := "metal3-ui", ns := "metal3-system", revision := 1, chartVersion := "1.0.0" }

/-- the chart resource of the add-on; its values are YAML, but no object -/
def resource : HelmChart where
  metadata := { name := some "metal3-ui", ns := some "kube-system" }
  spec := { chart := "metal3-ui", version := "1.0.0", valuesContent := "- a" }

/-- the chart resources of the cluster -/
def resources : List HelmChart := [Unfinished.resource, resource]

/-- the chart counts as done -/
def done : Workload.Finding :=
  ⟨chart, [.found "metal3" (some Unfinished.installed)], .ok .versionAlreadyInstalled⟩

theorem done_evaluated :
    Workload.Evaluated Unfinished.context resources Workload.Finding.silent [done] done.calls :=
  .single ⟨.ok (some Unfinished.installed), [], rfl, rfl, rfl⟩ rfl

/-- the step of the workload without its add-on -/
theorem bare_yields : ∃ after,
    (Workload.step Unfinished.context { chart with addons := [] }).Yields {}
      [.listed .helmChart none resources, .found "metal3" (some Unfinished.installed)]
      (.ok Requeue.immediately) after :=
  ⟨_, .ok resources, _, rfl, .ok (some Unfinished.installed), _, rfl, rfl, rfl⟩

/-- the add-on is not there -/
def missing : Workload.Finding := ⟨addon, [.found "metal3-ui" none], .ok .notInstalled⟩

theorem missing_yields : ∃ event after,
    (Workload.step Unfinished.context chart).Yields {}
      [.listed .helmChart none resources, .found "metal3" (some Unfinished.installed),
        .found "metal3-ui" none, ⟨.publishEvent Unfinished.context.plan event, .ok ()⟩]
      (.ok Requeue.immediately) after ∧
    Workload.Evaluated Unfinished.context resources
      (Workload.Finding.event? (Status.workloadUpgraded chart.prettyName) chart.releaseName)
      [missing]
      (missing.calls ++ [⟨.publishEvent Unfinished.context.plan event, .ok ()⟩] ++ []) :=
  ⟨_, _, ⟨.ok resources, _, rfl, .ok (some Unfinished.installed), _, rfl, .ok none, _, rfl, .ok (),
    _, rfl, rfl, rfl⟩, .cons missing ⟨.ok none, [], rfl, rfl, rfl⟩ rfl .nil⟩

/-- the values of the add-on cannot be put together with those of the release -/
theorem unmergeable_yields : ∃ detail after,
    (Workload.step Unfinished.context chart).Yields {}
      [.listed .helmChart none resources, .found "metal3" (some Unfinished.installed),
        .found "metal3-ui" (some installed)]
      (.error (.chartValues detail)) after ∧
    (Evaluation.state Unfinished.context resources addon).Yields
      [.found "metal3-ui" (some installed)] (.error (.chartValues detail)) :=
  ⟨_, _, ⟨.ok resources, _, rfl, .ok (some Unfinished.installed), _, rfl, .ok (some installed), _,
    rfl, rfl, rfl⟩, .ok (some installed), [], rfl, rfl, rfl⟩

end Unmergeable

/-- an add-on that is not installed leaves the step as it is without it -/
theorem Workload.unaffected_iff_readable_missing : ∃ event after,
    (Workload.step Unfinished.context Unmergeable.chart).Yields {}
      [.listed .helmChart none Unmergeable.resources,
        .found "metal3" (some Unfinished.installed), .found "metal3-ui" none,
        ⟨.publishEvent Unfinished.context.plan event, .ok ()⟩]
      (.ok Requeue.immediately) after ∧
    (Workload.step Unfinished.context { Unmergeable.chart with addons := [] }).Yields {}
      [.listed .helmChart none Unmergeable.resources,
        .found "metal3" (some Unfinished.installed)]
      (.ok Requeue.immediately) after := by
  obtain ⟨event, after, h, haddons⟩ := Unmergeable.missing_yields
  have hreadable : ∀ f ∈ [Unmergeable.missing], ∀ e,
      ¬Evaluation.Unreadable Unfinished.context Unmergeable.resources f.chart f.calls e := by
    refine List.forall_mem_singleton.mpr fun e hu => ?_
    cases (Evaluation.error_of_unreadable (haddons.holds _ (List.mem_singleton_self _)) hu).1
  obtain ⟨after₀, h₀, hiff, _⟩ := Workload.unaffected_iff_readable h Unmergeable.done_evaluated rfl
    (List.forall_mem_singleton.mpr ⟨_, rfl, rfl⟩) haddons List.prefix_rfl
    (List.forall_mem_singleton.mpr ⟨nofun, nofun⟩)
    (List.forall_mem_cons.mpr ⟨fun _ => nofun, List.forall_mem_singleton.mpr fun _ => nofun⟩)
  obtain ⟨_, rfl⟩ := hiff.mpr hreadable
  exact ⟨event, _, h, h₀⟩

/-- an add-on with values that are no object ends the step of a workload that is done -/
theorem Workload.addon_blocks :
    ¬∀ ctx w resources required addons u v before r after,
      (Workload.step ctx w).Yields before (.listed .helmChart none resources :: (u ++ v)) r after →
      Evaluated ctx resources Finding.silent required u →
      required.map Finding.chart = w.dependencies ++ [w] → (∀ f ∈ required, f.IsDone) →
      Evaluated ctx resources
        (Finding.event? (Status.workloadUpgraded w.prettyName) w.releaseName) addons v →
      addons.map Finding.chart <+: w.addons →
      (∀ f ∈ addons, f.result ≠ .ok .inProgress ∧ f.result ≠ .ok .unknown) →
      (∀ x ∈ v, ∀ e, x.answer ≠ .error e) →
      (Workload.step ctx { w with addons := [] }).Yields before
        (.listed .helmChart none resources :: u) r after := by
  intro hsame
  obtain ⟨detail, after, h, hstate⟩ := Unmergeable.unmergeable_yields
  obtain ⟨after₀, h₀⟩ := Unmergeable.bare_yields
  have haddons : Evaluated Unfinished.context Unmergeable.resources
      (Finding.event? (Status.workloadUpgraded Unmergeable.chart.prettyName)
        Unmergeable.chart.releaseName)
      [⟨Unmergeable.addon, [.found "metal3-ui" (some Unmergeable.installed)],
        .error (.chartValues detail)⟩]
      [.found "metal3-ui" (some Unmergeable.installed)] :=
    .single hstate rfl
  have hbare := hsame _ _ _ _ _ _ _ _ _ _ h Unmergeable.done_evaluated rfl
    (List.forall_mem_singleton.mpr ⟨_, rfl, rfl⟩) haddons List.prefix_rfl
    (List.forall_mem_singleton.mpr ⟨nofun, nofun⟩)
    (List.forall_mem_singleton.mpr fun _ => nofun)
  cases (Step.Yields.unique h₀ hbare).1

end ReleaseUpgrade
