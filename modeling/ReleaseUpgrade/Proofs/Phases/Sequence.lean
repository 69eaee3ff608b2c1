import ReleaseUpgrade.Proofs.Chart.Fault
import ReleaseUpgrade.Proofs.Phases.Requeue
import ReleaseUpgrade.Proofs.Phases.Soundness

/-!
# The order of the charts of a workload

A workload goes through the charts that it depends on, its own chart and its add-ons in the order
that the release gives.  It gets past a chart that it cannot do without only if that chart is done,
and where it ends is what its condition tells.

* `Sequenced`              what a step does that ends without an error, from the calls to the time
                           of the next pass;
* `sequenced_of_yields`    every such step does so, unless its condition was finished before.
-/

namespace ReleaseUpgrade

namespace Trace

/-- events ask nothing about installed releases -/
theorem lookups_of_events {plan : UpgradePlan} {events : List Event} {t : Trace}
    (h : t.map Exchange.call = events.map (.publishEvent plan)) : t.lookups = [] := by
  refine List.filterMap_eq_nil_iff.mpr fun x hx => ?_
  obtain ⟨event, hcall⟩ := event_of_mem h hx
  obtain ⟨c, answer⟩ := x
  obtain rfl : c = .publishEvent plan event := hcall
  rfl

end Trace

namespace Workload

/-- the condition of the workload is set -/
def reported (ctx : Context) (w : ReleaseChart) (before : Status) (reason : Reason)
    (message : String) : Status :=
  before.setCondition ctx.now (Status.workloadUpgraded w.prettyName) reason message

/-- a step of a workload that has ended without an error: which charts it has looked at and in which
order, what it has written, what has become of the condition, and when the next pass comes;
`required` are the findings about the charts that the workload depends on and about its own -/
structure Sequenced (ctx : Context) (w : ReleaseChart) (before : Status) (t : Trace)
    (requeue : Requeue) (after : Status) (resources : List HelmChart)
    (required addons : List Finding) : Prop where
  calls : ∃ u v, t = .listed .helmChart none resources :: (u ++ v) ∧
    Evaluated ctx resources Finding.silent required u ∧
    Evaluated ctx resources (Finding.event? (Status.workloadUpgraded w.prettyName) w.releaseName)
      addons v
  inOrder : t.lookups.map Prod.fst <+: (charts w).map (·.releaseName)
  /-- each finding has asked once about installed releases -/
  lookups : t.lookups.map Prod.fst = (required ++ addons).map fun f => f.chart.releaseName
  ordered : (required ++ addons).map Finding.chart <+: charts w
  /-- whatever is written is written by the evaluation of a chart, and for that chart -/
  written : ∀ x ∈ t, x.call.writes = true →
    ∃ f ∈ required ++ addons, x ∈ f.calls ∧
      ∃ past, Evaluation.Allowed ctx resources f.chart past x.call
  /-- nothing is looked at after a chart that the workload cannot do without and that is not done -/
  gated : ∀ f ∈ required.dropLast, f.IsDone
  complete : addons ≠ [] →
    required.map Finding.chart = w.dependencies ++ [w] ∧ ∀ f ∈ required, f.IsDone
  /-- the chart of the workload is left out only after a dependency that is not done -/
  early : required.length ≤ w.dependencies.length →
    ∃ f, required.getLast? = some f ∧ ¬f.IsDone
  undone : ∀ f s, required.getLast? = some f → f.result = .ok s → s.isDone = false →
    required.length ≤ w.dependencies.length ∨ s ≠ .notInstalled ∨ w.dependencies = [] →
    after = reported ctx w before s.reason (s.message f.chart.releaseName)
  missing : ∀ f, required.getLast? = some f → w.dependencies.length < required.length →
    f.result = .ok .notInstalled → w.dependencies ≠ [] →
    after = reported ctx w before .failed ("'" ++ w.releaseName ++
      "' core chart is missing, but dependency charts are present")
  several : ∀ f installed, required.getLast? = some f →
    .found f.chart.releaseName (some installed) ∈ f.calls →
    2 ≤ (Evaluation.backing resources f.chart).length →
    after = reported ctx w before .failed
      (UpgradeError.multipleHelmCharts f.chart.releaseName).message
  /-- the step gets over no other error; and several chart resources are found out only where they
  are, since the cluster itself never answers that -/
  faulty : ∀ f e, required.getLast? = some f → f.result = .error e →
    ∃ release, e = .multipleHelmCharts release ∧ after = reported ctx w before .failed e.message ∧
      (t.Genuine →
        release = f.chart.releaseName ∧ 2 ≤ (Evaluation.backing resources f.chart).length)
  immediate : requeue = Requeue.immediately ↔
    after.isFinished (Status.workloadUpgraded w.prettyName) = true

section
variable {ctx : Context} {condition : String} {resources : List HelmChart}
  {before after : Status} {t : Trace} {findings : List Finding}

/-- each finding has asked once about installed releases -/
theorem Evaluated.lookups {event? : Finding → Option Event}
    (h : Evaluated ctx resources event? findings t) :
    t.lookups.map Prod.fst = findings.map fun f => f.chart.releaseName := by
  induction h with
  | nil => rfl
  | cons f hf htold _ ih =>
    obtain ⟨answer, hl⟩ := Evaluation.lookups_of_yields hf
    rw [Trace.lookups_append, Trace.lookups_append, hl, Trace.lookups_of_events htold,
      List.map_append, List.map_cons, ih]
    rfl

theorem Evaluated.subset {event? : Finding → Option Event}
    (h : Evaluated ctx resources event? findings t) {f : Finding} (hf : f ∈ findings) :
    ∀ x ∈ f.calls, x ∈ t := by
  induction h with
  | nil => cases hf
  | cons g _ _ _ ih =>
    intro x hx
    obtain rfl | hf := List.mem_cons.mp hf
    · exact List.mem_append_left _ (List.mem_append_left _ hx)
    · exact List.mem_append_right _ (ih hf x hx)

/-- what is written while charts are evaluated is written by one of the evaluations -/
theorem Evaluated.written {event? : Finding → Option Event}
    (h : Evaluated ctx resources event? findings t) {x : Exchange} (hx : x ∈ t)
    (hw : x.call.writes = true) :
    ∃ f ∈ findings, x ∈ f.calls ∧ ∃ past, Evaluation.Allowed ctx resources f.chart past x.call := by
  obtain ⟨f, hf, hx⟩ | ⟨event, he⟩ := h.mem_cases hx
  · obtain ⟨past, rest, hcut⟩ := List.append_of_mem hx
    have hguarded := Evaluation.guarded_of_yields (h.holds f hf)
    rw [hcut] at hguarded
    exact ⟨f, hf, hx, past, hguarded.at hw⟩
  · rw [he] at hw
    cases hw

theorem goesOn_of_isDone {s : ChartState} (h : s.isDone = true) : s.goesOn = true := by
  cases s <;> first | rfl | cases h

section
variable {w : ReleaseChart} {requeue : Requeue}

/-- the state of a chart brings the next pass at once if it finishes the condition -/
theorem immediately_iff (s : ChartState) :
    (if s.goesOn then Requeue.immediately else none) = Requeue.immediately ↔
      Admission.locks s.reason = false := by
  rw [locks_reason]
  cases s.goesOn with
  | true => exact ⟨fun _ => rfl, fun _ => rfl⟩
  | false => exact ⟨nofun, nofun⟩

namespace Trailed
variable {cs : List ReleaseChart} {p : Except UpgradeError Progress}

theorem charts_first (h : Trailed ctx condition before cs findings p after) :
    findings.map Finding.chart <+: cs := by
  induction h with
  | nil => exact List.nil_prefix
  | passed f _ _ ih => exact (List.prefix_cons_inj f.chart).mpr ih
  | inProgress f | unknown f | broken f =>
    exact (List.prefix_cons_inj f.chart).mpr List.nil_prefix

/-- an add-on that stops the step neither brings the next pass at once nor finishes the condition -/
theorem of_stops (hpoll : 0 < ctx.settings.nodePollInterval)
    (hopen : before.isFinished condition = false)
    (h : Trailed ctx condition before cs findings (.ok (.stops requeue)) after) :
    requeue ≠ Requeue.immediately ∧ after.isFinished condition = false := by
  generalize hp : Except.ok (Progress.stops requeue) = p at h
  induction h with
  | passed _ _ _ ih => exact ih hp
  | inProgress =>
    cases hp
    exact ⟨Requeue.some_ne_immediately hpoll, Status.isFinished_setCondition ..⟩
  | unknown =>
    cases hp
    exact ⟨Requeue.none_ne_immediately, hopen⟩
  | nil | broken => cases hp

end Trailed

namespace Blocked
variable {f : Finding}

theorem not_isDone {r : Except UpgradeError Requeue}
    (h : Blocked ctx condition before f r after) : ¬f.IsDone := by
  rintro ⟨s, hs, hdone⟩
  cases h with
  | undone s' hs' hnot =>
    rw [hs] at hs'
    cases hs'
    rw [hdone] at hnot
    cases hnot
  | several _ he | broken _ he =>
    rw [hs] at he
    cases he

theorem of_known {r : Except UpgradeError Requeue} {s : ChartState} (hs : f.result = .ok s)
    (h : Blocked ctx condition before f r after) :
    after = before.setCondition ctx.now condition s.reason (s.message f.chart.releaseName) := by
  cases h with
  | undone s' hs' =>
    rw [hs] at hs'
    cases hs'
    rfl
  | several _ he | broken _ he =>
    rw [hs] at he
    cases he

theorem of_error {e : UpgradeError} (he : f.result = .error e)
    (h : Blocked ctx condition before f (.ok requeue) after) :
    ∃ release, e = .multipleHelmCharts release ∧
      after = before.setCondition ctx.now condition .failed e.message := by
  generalize hr : Except.ok requeue = r at h
  cases h with
  | undone _ hs =>
    rw [he] at hs
    cases hs
  | several release he' =>
    rw [he] at he'
    cases he'
    exact ⟨release, rfl, rfl⟩
  | broken => cases hr

/-- where a chart that the workload cannot do without ends the step, that brings the next pass at
once if it finishes the condition -/
theorem immediate (h : Blocked ctx condition before f (.ok requeue) after) :
    requeue = Requeue.immediately ↔ after.isFinished condition = true := by
  generalize hr : Except.ok requeue = r at h
  cases h with
  | undone s =>
    cases hr
    rw [immediately_iff, Status.isFinished_setCondition, Bool.not_eq_true']
  | several =>
    cases hr
    rw [Status.isFinished_setCondition]
    exact ⟨fun _ => rfl, fun _ => rfl⟩
  | broken => cases hr

end Blocked

namespace Course
variable {required addons : List Finding} {r : Except UpgradeError Requeue}

/-- all but the last of the charts that the workload cannot do without are done; the last is one
that the workload depends on, or it is its own chart, and add-ons come only after that -/
theorem shape (h : Course ctx condition w before required addons r after) :
    ∃ pre f, required = pre ++ [f] ∧ (∀ g ∈ pre, g.IsDone) ∧
      ((∃ post, w.dependencies = pre.map Finding.chart ++ f.chart :: post) ∧ ¬f.IsDone ∧
          addons = [] ∨
        pre.map Finding.chart = w.dependencies ∧ f.chart = w ∧
          (addons = [] ∨ f.IsDone ∧ addons.map Finding.chart <+: w.addons)) := by
  cases h with
  | dependency pre f post hdeps hdone hblocked =>
    exact ⟨pre, f, rfl, hdone, .inl ⟨⟨post, hdeps⟩, hblocked.not_isDone, rfl⟩⟩
  | missing pre f hdeps hdone hw | core pre f hdeps hdone hw =>
    exact ⟨pre, f, rfl, hdone, .inr ⟨hdeps, hw, .inl rfl⟩⟩
  | addons pre f s _ hdeps hdone hw hs hisDone htrail =>
    exact ⟨pre, f, rfl, hdone, .inr ⟨hdeps, hw, .inr ⟨⟨s, hs, hisDone⟩, htrail.charts_first⟩⟩⟩

theorem ordered (h : Course ctx condition w before required addons r after) :
    (required ++ addons).map Finding.chart <+: charts w := by
  obtain ⟨pre, f, rfl, _, ⟨⟨post, hdeps⟩, _, rfl⟩ | ⟨hdeps, rfl, haddons⟩⟩ := h.shape
  · rw [List.append_nil, List.map_append, charts, hdeps, List.append_assoc]
    exact (List.prefix_append_right_inj _).mpr ((List.prefix_cons_inj _).mpr List.nil_prefix)
  · rw [List.append_assoc, List.map_append, hdeps, charts]
    refine (List.prefix_append_right_inj _).mpr ((List.prefix_cons_inj _).mpr ?_)
    obtain rfl | ⟨_, hfirst⟩ := haddons
    · exact List.nil_prefix
    · exact hfirst

theorem gated (h : Course ctx condition w before required addons r after) :
    ∀ f ∈ required.dropLast, f.IsDone := by
  obtain ⟨pre, f, rfl, hdone, _⟩ := h.shape
  rwa [List.dropLast_concat]

theorem complete (h : Course ctx condition w before required addons r after) (hne : addons ≠ []) :
    required.map Finding.chart = w.dependencies ++ [w] ∧ ∀ f ∈ required, f.IsDone := by
  obtain ⟨pre, f, rfl, hdone, ⟨_, _, hnil⟩ | ⟨hdeps, hw, hnil | ⟨hf, _⟩⟩⟩ := h.shape
  · exact absurd hnil hne
  · exact absurd hnil hne
  · refine ⟨by rw [List.map_append, hdeps, ← hw]; rfl, List.forall_mem_append.mpr ⟨hdone, ?_⟩⟩
    exact List.forall_mem_singleton.mpr hf

theorem early (h : Course ctx condition w before required addons r after)
    (hle : required.length ≤ w.dependencies.length) :
    ∃ f, required.getLast? = some f ∧ ¬f.IsDone := by
  obtain ⟨pre, f, rfl, _, ⟨_, hnot, _⟩ | ⟨hdeps, _, _⟩⟩ := h.shape
  · exact ⟨f, List.getLast?_concat, hnot⟩
  · have hlen := congrArg List.length hdeps
    rw [List.length_map] at hlen
    rw [List.length_append, List.length_singleton] at hle
    omega

theorem undone {f : Finding} {s : ChartState}
    (h : Course ctx condition w before required addons r after)
    (hlast : required.getLast? = some f) (hs : f.result = .ok s) (hnot : s.isDone = false)
    (hpart : required.length ≤ w.dependencies.length ∨ s ≠ .notInstalled ∨ w.dependencies = []) :
    after = before.setCondition ctx.now condition s.reason (s.message f.chart.releaseName) := by
  cases h with
  | dependency _ _ _ _ _ hblocked | core _ _ _ _ _ _ hblocked =>
    cases List.getLast?_concat.symm.trans hlast
    exact hblocked.of_known hs
  | missing pre _ hdeps _ _ hs' hne =>
    cases List.getLast?_concat.symm.trans hlast
    rw [hs] at hs'
    cases hs'
    have hlen := congrArg List.length hdeps
    rw [List.length_map] at hlen
    rw [List.length_append, List.length_singleton] at hpart
    obtain hle | hstate | hnil := hpart
    · omega
    · exact absurd rfl hstate
    · exact absurd hnil hne
  | addons _ _ s' _ _ _ _ hs' hdone =>
    cases List.getLast?_concat.symm.trans hlast
    rw [hs] at hs'
    cases hs'
    rw [hnot] at hdone
    cases hdone

theorem missing_eq {f : Finding} (h : Course ctx condition w before required addons r after)
    (hlast : required.getLast? = some f) (hlt : w.dependencies.length < required.length)
    (hs : f.result = .ok .notInstalled) (hne : w.dependencies ≠ []) :
    after = before.setCondition ctx.now condition .failed (missingCore w) := by
  cases h with
  | dependency pre _ post hdeps =>
    rw [hdeps] at hlt
    simp only [List.length_append, List.length_map, List.length_cons, List.length_nil] at hlt
    omega
  | missing => rfl
  | core _ _ _ _ _ hnil =>
    cases List.getLast?_concat.symm.trans hlast
    exact absurd (hnil hs) hne
  | addons _ _ s' _ _ _ _ hs' hdone =>
    cases List.getLast?_concat.symm.trans hlast
    rw [hs] at hs'
    cases hs'
    cases hdone

theorem faulty {f : Finding} {e : UpgradeError}
    (h : Course ctx condition w before required addons (.ok requeue) after)
    (hlast : required.getLast? = some f) (he : f.result = .error e) :
    ∃ release, e = .multipleHelmCharts release ∧
      after = before.setCondition ctx.now condition .failed e.message := by
  cases h with
  | dependency _ _ _ _ _ hblocked | core _ _ _ _ _ _ hblocked =>
    cases List.getLast?_concat.symm.trans hlast
    exact hblocked.of_error he
  | missing _ _ _ _ _ hs | addons _ _ _ _ _ _ _ hs =>
    cases List.getLast?_concat.symm.trans hlast
    rw [he] at hs
    cases hs

theorem immediate (hpoll : 0 < ctx.settings.nodePollInterval)
    (hopen : before.isFinished condition = false)
    (h : Course ctx condition w before required addons (.ok requeue) after) :
    requeue = Requeue.immediately ↔ after.isFinished condition = true := by
  generalize hr : Except.ok requeue = r at h
  cases h with
  | dependency _ _ _ _ _ hblocked | core _ _ _ _ _ _ hblocked =>
    subst hr
    exact hblocked.immediate
  | missing =>
    cases hr
    rw [Status.isFinished_setCondition]
    exact ⟨fun _ => rfl, fun _ => rfl⟩
  | addons _ _ s _ _ _ _ _ hdone htrail hend =>
    cases hend with
    | stopped =>
      cases hr
      obtain ⟨hne, hfinished⟩ := htrail.of_stops hpoll hopen
      rw [hfinished]
      exact ⟨fun he => absurd he hne, nofun⟩
    | recorded =>
      cases hr
      rw [immediately_iff, Status.isFinished_setCondition, Bool.not_eq_true']
    | broken => cases hr

end Course

/-- however many charts a workload depends on and however many add-ons it has, whatever the cluster
answers and whatever the status before, as long as the condition has not been finished: a step that
ends without an error goes through the charts in their order, gets past those that it cannot do
without only if they are done, leaves the condition as the one at which it ends tells, and comes
back at once if and only if the condition is finished -/
theorem sequenced_of_yields (hpoll : 0 < ctx.settings.nodePollInterval)
    (hopen : before.isFinished (Status.workloadUpgraded w.prettyName) = false)
    (h : (step ctx w).Yields before t (.ok requeue) after) :
    ∃ resources required addons,
      Sequenced ctx w before t requeue after resources required addons := by
  obtain ⟨_, _, he, _⟩ | ⟨resources, required, addons, u, v, rfl, hu, hv, hcourse⟩ :=
    course_of_yields h
  · cases he
  have subset {f : Finding} (hf : f ∈ required) : ∀ x ∈ f.calls,
      x ∈ Exchange.listed .helmChart none resources :: (u ++ v) := fun x hx =>
    List.mem_cons_of_mem _ (List.mem_append_left v (hu.subset hf x hx))
  have hlookups :
      (Trace.lookups (.listed .helmChart none resources :: (u ++ v))).map Prod.fst =
        (required ++ addons).map fun f => f.chart.releaseName := by
    show (Trace.lookups (u ++ v)).map Prod.fst = _
    rw [Trace.lookups_append, List.map_append, hu.lookups, hv.lookups, List.map_append]
  refine ⟨resources, required, addons,
    { calls := ⟨u, v, rfl, hu, hv⟩
      inOrder := ?_
      lookups := hlookups
      ordered := hcourse.ordered
      written := ?_
      gated := hcourse.gated
      complete := hcourse.complete
      early := hcourse.early
      undone := fun f s => hcourse.undone
      missing := fun f => hcourse.missing_eq
      several := ?_
      faulty := ?_
      immediate := hcourse.immediate hpoll hopen }⟩
  · rw [hlookups]
    have hmap := hcourse.ordered.map (·.releaseName)
    rwa [List.map_map] at hmap
  · intro x hx hw
    obtain rfl | hx := List.mem_cons.mp hx
    · cases hw
    obtain hx | hx := List.mem_append.mp hx
    · obtain ⟨f, hf, hwritten⟩ := hu.written hx hw
      exact ⟨f, List.mem_append_left addons hf, hwritten⟩
    · obtain ⟨f, hf, hwritten⟩ := hv.written hx hw
      exact ⟨f, List.mem_append_right required hf, hwritten⟩
  · intro f installed hlast hfound htwo
    have hf := hu.holds f (List.mem_of_getLast? hlast)
    obtain ⟨_, _, hafter⟩ := hcourse.faulty hlast (Evaluation.several_of_found hf hfound htwo)
    exact hafter
  · intro f e hlast he
    have hf := List.mem_of_getLast? hlast
    obtain ⟨release, rfl, hafter⟩ := hcourse.faulty hlast he
    refine ⟨release, rfl, hafter, fun hgen => ?_⟩
    have hholds : (Evaluation.state ctx resources f.chart).Yields f.calls
        (.error (.multipleHelmCharts release)) := he ▸ hu.holds f hf
    exact Evaluation.several_of_genuine hholds fun x hx => hgen x (subset hf x hx)

end

end

end Workload

/-- the chart that another one depends on counts as done, and that one is missing -/
theorem Workload.sequenced_of_yields_unfinished :
    0 < Unfinished.context.settings.nodePollInterval ∧
    ({} : Status).isFinished "RancherUpgraded" = false ∧
    ∃ after, ∃ resources required addons,
      Sequenced Unfinished.context Unfinished.dependent {}
        [.listed .helmChart none [Unfinished.resource],
          .found "metal3" (some Unfinished.installed), .found "rancher" none]
        Requeue.immediately after resources required addons := by
  obtain ⟨after, h⟩ := Unfinished.dependent_yields
  exact ⟨by decide, rfl, after, sequenced_of_yields (by decide) rfl h⟩

end ReleaseUpgrade
