import ReleaseUpgrade.Phases.Workload
import ReleaseUpgrade.Proofs.Chart.Course

/-!
# What a workload finds out, and how its step ends

A step of a workload evaluates one chart after the other.  What it finds out decides how far it
goes, what becomes of the condition, and when the plan is looked at again.

* `Finding`, `Evaluated`   an evaluation with its calls, and the calls of several in turn;
* `Required`, `Blocked`    what is made of a chart that the workload cannot do without, and how the
                           step ends there;
* `Depended`               the charts that the workload depends on, up to one that is not done;
* `Trailed`, `Concluded`   the add-ons up to the one that ends them, and the end of the step after
                           them;
* `Course`                 the findings of a whole step with its end, `course_of_yields`.
-/

namespace ReleaseUpgrade

/-- calls that are events have nothing else among them -/
theorem Trace.event_of_mem {plan : UpgradePlan} {events : List Event} {t : Trace}
    (h : t.map Exchange.call = events.map (.publishEvent plan)) {x : Exchange} (hx : x ∈ t) :
    ∃ event, x.call = .publishEvent plan event := by
  have hcall := List.mem_map_of_mem hx (f := Exchange.call)
  rw [h] at hcall
  obtain ⟨event, _, hcall⟩ := List.mem_map.mp hcall
  exact ⟨event, hcall.symm⟩

namespace Workload

/-- a chart that has been evaluated, with the calls of the evaluation and what came out -/
structure Finding where
  chart : ReleaseChart
  calls : Trace
  result : Except UpgradeError ChartState

namespace Finding

/-- the chart has been found to have the version of the release -/
def IsDone (f : Finding) : Prop := ∃ s, f.result = .ok s ∧ s.isDone = true

/-- the calls are those of an evaluation of the chart -/
def Holds (ctx : Context) (resources : List HelmChart) (f : Finding) : Prop :=
  (Evaluation.state ctx resources f.chart).Yields f.calls f.result

/-- what users are told of an add-on after its evaluation -/
def event? (condition workload : String) (f : Finding) : Option Event :=
  match f.result with
  | .ok s => addonEvent? condition workload f.chart.releaseName s
  | .error (.multipleHelmCharts release) =>
    some ⟨.warning, condition, (UpgradeError.multipleHelmCharts release).message⟩
  | .error _ => none

/-- what users are told of a chart that the workload cannot do without -/
def silent (_ : Finding) : Option Event := none

theorem event?_eq_none {condition workload : String} {f : Finding} {e : UpgradeError}
    (he : f.result = .error e) (hne : ∀ release, e ≠ .multipleHelmCharts release) :
    f.event? condition workload = none := by
  unfold event?
  rw [he]
  cases e <;> first | rfl | exact absurd rfl (hne _)

end Finding

/-- what a workload makes of an evaluation -/
def verdict : Except UpgradeError ChartState → Except UpgradeError (Except String ChartState)
  | .ok s => .ok (.ok s)
  | .error (.multipleHelmCharts release) => .ok (.error release)
  | .error e => .error e

/-- several evaluations in turn, each followed by what users are told of it -/
inductive Evaluated (ctx : Context) (resources : List HelmChart)
    (event? : Finding → Option Event) : List Finding → Trace → Prop
  | nil : Evaluated ctx resources event? [] []
  | cons (f) {told rest t} : f.Holds ctx resources →
      told.map Exchange.call = (event? f).toList.map (.publishEvent ctx.plan) →
      Evaluated ctx resources event? rest t →
      Evaluated ctx resources event? (f :: rest) (f.calls ++ told ++ t)

section
variable (ctx : Context) (condition : String)

/-- what is made of a chart that the workload cannot do without: it has a state, or several chart
resources fail the condition, or the error ends the step -/
inductive Required (before : Status) (f : Finding) :
    Except UpgradeError (Option ChartState) → Status → Prop
  | known (s) : f.result = .ok s → Required before f (.ok (some s)) before
  | several (release) : f.result = .error (.multipleHelmCharts release) →
      Required before f (.ok none)
        (before.setCondition ctx.now condition .failed
          (UpgradeError.multipleHelmCharts release).message)
  | broken (e) : f.result = .error e → (∀ release, e ≠ .multipleHelmCharts release) →
      Required before f (.error e) before

/-- how the step ends at a chart that the workload cannot do without: the state of the chart becomes
the condition, several chart resources fail it, and any other error leaves it alone -/
inductive Blocked (before : Status) (f : Finding) : Except UpgradeError Requeue → Status → Prop
  | undone (s) : f.result = .ok s → s.isDone = false →
      Blocked before f (.ok (if s.goesOn then .immediately else none))
        (before.setCondition ctx.now condition s.reason (s.message f.chart.releaseName))
  | several (release) : f.result = .error (.multipleHelmCharts release) →
      Blocked before f (.ok .immediately)
        (before.setCondition ctx.now condition .failed
          (UpgradeError.multipleHelmCharts release).message)
  | broken (e) : f.result = .error e → (∀ release, e ≠ .multipleHelmCharts release) →
      Blocked before f (.error e) before

/-- the charts that the workload depends on, up to the first one that is not done -/
inductive Depended (before : Status) (charts : List ReleaseChart) :
    List Finding → Except UpgradeError Progress → Status → Prop
  | done (findings) : findings.map Finding.chart = charts → (∀ f ∈ findings, f.IsDone) →
      Depended before charts findings (.ok .goesOn) before
  | halted (pre f post) {q after} : charts = pre.map Finding.chart ++ f.chart :: post →
      (∀ g ∈ pre, g.IsDone) → Blocked ctx condition before f q after →
      Depended before charts (pre ++ [f]) (q.map .stops) after

/-- an add-on that the step passes over -/
def Passed : Except UpgradeError ChartState → Prop
  | .ok s => s.goesOn = true
  | .error e => ∃ release, e = .multipleHelmCharts release

/-- the add-ons in turn, up to the first one that is not passed over -/
inductive Trailed (before : Status) :
    List ReleaseChart → List Finding → Except UpgradeError Progress → Status → Prop
  | nil : Trailed before [] [] (.ok .goesOn) before
  | passed (f) {rest findings p after} : Passed f.result → Trailed before rest findings p after →
      Trailed before (f.chart :: rest) (f :: findings) p after
  | inProgress (f rest) : f.result = .ok .inProgress →
      Trailed before (f.chart :: rest) [f] (.ok (.stops (some ctx.settings.nodePollInterval)))
        (before.setCondition ctx.now condition .inProgress
          (ChartState.inProgress.message f.chart.releaseName))
  | unknown (f rest) : f.result = .ok .unknown →
      Trailed before (f.chart :: rest) [f] (.ok (.stops none)) before
  | broken (f rest e) : f.result = .error e → (∀ release, e ≠ .multipleHelmCharts release) →
      Trailed before (f.chart :: rest) [f] (.error e) before

/-- the end of the step after the add-ons: unless one of them has stopped it, the state of the chart
of the workload becomes the condition -/
inductive Concluded (w : ReleaseChart) (core : ChartState) (between : Status) :
    Except UpgradeError Progress → Except UpgradeError Requeue → Status → Prop
  | stopped (requeue) : Concluded w core between (.ok (.stops requeue)) (.ok requeue) between
  | recorded : Concluded w core between (.ok .goesOn)
      (.ok (if core.goesOn then .immediately else none))
      (between.setCondition ctx.now condition core.reason (core.message w.releaseName))
  | broken (e) : Concluded w core between (.error e) (.error e) between

/-- that the chart of the workload is missing while charts are there that it depends on -/
def missingCore (w : ReleaseChart) : String :=
  "'" ++ w.releaseName ++ "' core chart is missing, but dependency charts are present"

/-- the findings of a step, about the charts that the workload cannot do without and about its
add-ons, and how the step ends after them -/
inductive Course (w : ReleaseChart) (before : Status) :
    List Finding → List Finding → Except UpgradeError Requeue → Status → Prop
  | dependency (pre f post) {r after} :
      w.dependencies = pre.map Finding.chart ++ f.chart :: post → (∀ g ∈ pre, g.IsDone) →
      Blocked ctx condition before f r after → Course w before (pre ++ [f]) [] r after
  | missing (pre f) : pre.map Finding.chart = w.dependencies → (∀ g ∈ pre, g.IsDone) →
      f.chart = w → f.result = .ok .notInstalled → w.dependencies ≠ [] →
      Course w before (pre ++ [f]) [] (.ok .immediately)
        (before.setCondition ctx.now condition .failed (missingCore w))
  | core (pre f) {r after} : pre.map Finding.chart = w.dependencies → (∀ g ∈ pre, g.IsDone) →
      f.chart = w → (f.result = .ok .notInstalled → w.dependencies = []) →
      Blocked ctx condition before f r after → Course w before (pre ++ [f]) [] r after
  | addons (pre f s findings) {p r between after} : pre.map Finding.chart = w.dependencies →
      (∀ g ∈ pre, g.IsDone) → f.chart = w → f.result = .ok s → s.isDone = true →
      Trailed ctx condition before w.addons findings p between →
      Concluded ctx condition w s between p r after → Course w before (pre ++ [f]) findings r after

end

namespace Evaluated

variable {ctx : Context} {resources : List HelmChart} {event? : Finding → Option Event}
  {findings more : List Finding} {t u : Trace}

theorem single {f : Finding} (h : f.Holds ctx resources) (hsilent : event? f = none) :
    Evaluated ctx resources event? [f] f.calls := by
  have hcons : Evaluated ctx resources event? [f] (f.calls ++ [] ++ []) :=
    .cons f h (by rw [hsilent]; rfl) .nil
  rwa [List.append_nil, List.append_nil] at hcons

theorem append (ht : Evaluated ctx resources event? findings t)
    (hu : Evaluated ctx resources event? more u) :
    Evaluated ctx resources event? (findings ++ more) (t ++ u) := by
  induction ht with
  | nil => exact hu
  | cons f h htold _ ih =>
    rw [List.append_assoc]
    exact .cons f h htold ih

theorem holds (ht : Evaluated ctx resources event? findings t) :
    ∀ f ∈ findings, f.Holds ctx resources := by
  induction ht with
  | nil => exact fun _ h => absurd h List.not_mem_nil
  | cons f h _ _ ih => exact List.forall_mem_cons.mpr ⟨h, ih⟩

theorem of_append (h : Evaluated ctx resources event? (findings ++ more) t) :
    ∃ u v, t = u ++ v ∧ Evaluated ctx resources event? findings u ∧
      Evaluated ctx resources event? more v := by
  induction findings generalizing t with
  | nil => exact ⟨[], t, rfl, .nil, h⟩
  | cons f rest ih =>
    cases h with
    | cons _ hf htold hrest =>
      obtain ⟨u, v, rfl, hu, hv⟩ := ih hrest
      exact ⟨_, v, (List.append_assoc ..).symm, .cons f hf htold hu, hv⟩

/-- if nothing is told of the first chart, the next one comes right after it -/
theorem of_silent {f : Finding} (h : Evaluated ctx resources event? (f :: findings) t)
    (hsilent : event? f = none) :
    ∃ v, t = f.calls ++ v ∧ f.Holds ctx resources ∧ Evaluated ctx resources event? findings v := by
  cases h with
  | cons _ hf htold hrest =>
    rw [hsilent] at htold
    obtain rfl := List.map_eq_nil_iff.mp htold
    rw [List.append_nil]
    exact ⟨_, rfl, hf, hrest⟩

/-- the calls of a single chart of which nothing is told -/
theorem of_single {f : Finding} (h : Evaluated ctx resources event? [f] t)
    (hsilent : event? f = none) : t = f.calls ∧ f.Holds ctx resources := by
  obtain ⟨_, rfl, hf, hnil⟩ := h.of_silent hsilent
  cases hnil
  exact ⟨List.append_nil _, hf⟩

/-- an exchange is part of an evaluation, or users are told something by it -/
theorem mem_cases (ht : Evaluated ctx resources event? findings t) {x : Exchange} (hx : x ∈ t) :
    (∃ f ∈ findings, x ∈ f.calls) ∨ ∃ event, x.call = .publishEvent ctx.plan event := by
  induction ht with
  | nil => cases hx
  | cons f h htold _ ih =>
    obtain hx | hx := List.mem_append.mp hx
    · obtain hx | hx := List.mem_append.mp hx
      · exact .inl ⟨f, List.mem_cons_self, hx⟩
      · exact .inr (Trace.event_of_mem htold hx)
    · refine (ih hx).imp_left ?_
      rintro ⟨g, hg, hx⟩
      exact ⟨g, List.mem_cons_of_mem f hg, hx⟩

end Evaluated

section
variable {ctx : Context} {condition : String} {resources : List HelmChart}
  {before between after : Status} {t : Trace}

theorem stateOf_of_yields {chart : ReleaseChart}
    {r : Except UpgradeError (Except String ChartState)}
    (h : (stateOf ctx resources chart).Yields t r) :
    ∃ x, (Evaluation.state ctx resources chart).Yields t x ∧ r = verdict x := by
  unfold stateOf at h
  simp only [Action.yields_recover, Action.yields_bind, Action.yields_pure] at h
  obtain ⟨v, ⟨_, _, he⟩ | ⟨s, _, _, rfl, hs, rfl, hv⟩, rfl⟩ | ⟨e, u, v, rfl, he, h⟩ := h
  · cases he
  · cases hv
    exact ⟨.ok s, by rwa [List.append_nil], rfl⟩
  obtain ⟨e, he, heq⟩ | ⟨_, _, _, _, _, _, heq⟩ := he
  · cases heq
    cases e <;> (obtain ⟨rfl, rfl⟩ := h; exact ⟨_, by rwa [List.append_nil], rfl⟩)
  · cases heq

theorem record_of_yields {state : ChartState} {release : String}
    {r : Except UpgradeError Requeue}
    (h : (record ctx condition state release).Yields before t r after) :
    t = [] ∧ r = .ok (if state.goesOn then .immediately else none) ∧
      after = before.setCondition ctx.now condition state.reason (state.message release) := by
  unfold record at h
  rw [Context.yields_bind_setCondition, Step.yields_pure] at h
  exact h

theorem verdict_eq_error {x : Except UpgradeError ChartState} {e : UpgradeError}
    (h : verdict x = .error e) : x = .error e ∧ ∀ release, e ≠ .multipleHelmCharts release := by
  cases x with
  | ok s => cases h
  | error e' => cases e' <;> cases h <;> exact ⟨rfl, nofun⟩

theorem verdict_eq_known {x : Except UpgradeError ChartState} {s : ChartState}
    (h : verdict x = .ok (.ok s)) : x = .ok s := by
  cases x with
  | ok s' => cases h; rfl
  | error e => cases e <;> cases h

theorem verdict_eq_several {x : Except UpgradeError ChartState} {release : String}
    (h : verdict x = .ok (.error release)) : x = .error (.multipleHelmCharts release) := by
  cases x with
  | ok s => cases h
  | error e => cases e <;> cases h; rfl

theorem required_course {chart : ReleaseChart} {r : Except UpgradeError (Option ChartState)}
    (h : (required ctx condition resources chart).Yields before t r after) :
    ∃ f : Finding, f.chart = chart ∧ f.calls = t ∧ f.Holds ctx resources ∧
      Required ctx condition before f r after := by
  obtain ⟨e, hs, rfl, rfl⟩ | ⟨v, u, _, rfl, hs, hrest⟩ := (Step.yields_bind_lift ..).mp h
  · obtain ⟨x, hx, hv⟩ := stateOf_of_yields hs
    obtain ⟨rfl, hne⟩ := verdict_eq_error hv.symm
    exact ⟨⟨chart, t, .error e⟩, rfl, rfl, hx, .broken e rfl hne⟩
  obtain ⟨x, hx, hv⟩ := stateOf_of_yields hs
  cases v with
  | ok s =>
    obtain ⟨rfl, rfl, rfl⟩ := (Step.yields_pure ..).mp hrest
    obtain rfl := verdict_eq_known hv.symm
    exact ⟨⟨chart, u, .ok s⟩, rfl, (List.append_nil u).symm, hx, .known s rfl⟩
  | error release =>
    have hrest := (Context.yields_bind_setCondition ..).mp hrest
    obtain ⟨rfl, rfl, rfl⟩ := (Step.yields_pure ..).mp hrest
    obtain rfl := verdict_eq_several hv.symm
    exact ⟨⟨chart, u, .error (.multipleHelmCharts release)⟩, rfl, (List.append_nil u).symm, hx,
      .several release rfl⟩

theorem Depended.cons {charts : List ReleaseChart} {findings : List Finding}
    {r : Except UpgradeError Progress} {f : Finding} (hf : f.IsDone)
    (h : Depended ctx condition before charts findings r after) :
    Depended ctx condition before (f.chart :: charts) (f :: findings) r after := by
  cases h with
  | done findings hcharts hdone =>
    exact .done (f :: findings) (by rw [List.map_cons, hcharts])
      (List.forall_mem_cons.mpr ⟨hf, hdone⟩)
  | halted pre g post hcharts hdone hblocked =>
    exact .halted (f :: pre) g post (by rw [hcharts]; rfl)
      (List.forall_mem_cons.mpr ⟨hf, hdone⟩) hblocked

theorem Depended.halted_of_ne {charts : List ReleaseChart} {findings : List Finding}
    {r : Except UpgradeError Progress}
    (h : Depended ctx condition before charts findings r after) (hne : r ≠ .ok .goesOn) :
    ∃ pre f post q, findings = pre ++ [f] ∧ charts = pre.map Finding.chart ++ f.chart :: post ∧
      (∀ g ∈ pre, g.IsDone) ∧ Blocked ctx condition before f q after ∧ r = q.map .stops := by
  cases h with
  | done => exact absurd rfl hne
  | @halted pre f post q _ hcharts hdone hblocked =>
    exact ⟨pre, f, post, q, rfl, hcharts, hdone, hblocked, rfl⟩

theorem Depended.done_of_goesOn {charts : List ReleaseChart} {findings : List Finding}
    (h : Depended ctx condition before charts findings (.ok .goesOn) after) :
    findings.map Finding.chart = charts ∧ (∀ f ∈ findings, f.IsDone) ∧ after = before := by
  generalize hr : Except.ok Progress.goesOn = r at h
  cases h with
  | done _ hcharts hdone => exact ⟨hcharts, hdone, rfl⟩
  | @halted _ _ _ q => cases q <;> cases hr

/-- the charts that the workload depends on are evaluated up to the first one that is not done -/
theorem dependencies_course {charts : List ReleaseChart} {r : Except UpgradeError Progress}
    (h : (dependencies ctx condition resources charts).Yields before t r after) :
    ∃ findings, Evaluated ctx resources Finding.silent findings t ∧
      Depended ctx condition before charts findings r after := by
  induction charts generalizing t with
  | nil =>
    obtain ⟨rfl, rfl, rfl⟩ := (Step.yields_pure ..).mp h
    exact ⟨[], .nil, .done [] rfl fun _ h => absurd h List.not_mem_nil⟩
  | cons d rest ih =>
    -- at a chart that ends the step, it is the only finding
    have ends {f : Finding} {q : Except UpgradeError Requeue} (hd : f.chart = d)
        (hf : f.Holds ctx resources) (hq : Blocked ctx condition before f q after) :
        ∃ findings, Evaluated ctx resources Finding.silent findings f.calls ∧
          Depended ctx condition before (d :: rest) findings (q.map .stops) after :=
      ⟨[f], .single hf rfl,
        .halted [] f rest (by rw [hd]; rfl) (fun _ h => absurd h List.not_mem_nil) hq⟩
    rw [dependencies, Step.yields_bind] at h
    obtain ⟨e, h, rfl⟩ | ⟨v, between, u, w, rfl, h, hrest⟩ := h
    · obtain ⟨f, hd, rfl, hf, hrequired⟩ := required_course h
      cases hrequired with
      | broken _ he hne => exact ends hd hf (.broken e he hne)
    obtain ⟨f, hd, rfl, hf, hrequired⟩ := required_course h
    cases hrequired with
    | known s hs =>
      cases hdone : s.isDone with
      | true =>
        simp only [hdone, if_true] at hrest
        obtain ⟨findings, hev, hdep⟩ := ih hrest
        rw [← hd]
        exact ⟨f :: findings, (Evaluated.single hf rfl).append hev, hdep.cons ⟨s, hs, hdone⟩⟩
      | false =>
        simp only [hdone, Bool.false_eq_true, if_false, Step.yields_bind] at hrest
        obtain ⟨_, hrec, _⟩ | ⟨_, _, _, _, rfl, hrec, hlast⟩ := hrest
        · obtain ⟨_, he, _⟩ := record_of_yields hrec
          cases he
        obtain ⟨rfl, he, rfl⟩ := record_of_yields hrec
        cases he
        obtain ⟨rfl, rfl, rfl⟩ := (Step.yields_pure ..).mp hlast
        rw [List.append_nil, List.append_nil]
        have hq : Blocked ctx condition before f _ _ := .undone s hs hdone
        rw [hd] at hq
        exact ends hd hf hq
    | several release he =>
      obtain ⟨rfl, rfl, rfl⟩ := (Step.yields_pure ..).mp hrest
      rw [List.append_nil]
      exact ends hd hf (.several release he)

theorem Evaluated.tell {event? : Finding → Option Event} {f : Finding} {findings : List Finding}
    {told u : Trace} (hf : f.Holds ctx resources)
    (htold : told.map Exchange.call = (event? f).toList.map (.publishEvent ctx.plan))
    (hu : Evaluated ctx resources event? findings u) :
    Evaluated ctx resources event? (f :: findings) (f.calls ++ (told ++ u)) := by
  rw [← List.append_assoc]
  exact .cons f hf htold hu

/-- what users are told of an add-on comes after its evaluation and before the next one -/
theorem tell_of_yields {β : Type} {e? : Option Event} {k : Step β} {r : Except UpgradeError β}
    (h : ((match e? with
        | some e => liftM (ctx.publish e.kind e.reason e.message)
        | none => pure () : Step Unit) >>= fun _ => k).Yields before t r after) :
    ∃ told u, t = told ++ u ∧ told.map Exchange.call = e?.toList.map (.publishEvent ctx.plan) ∧
      k.Yields before u r after := by
  cases e? with
  | none => exact ⟨[], t, rfl, rfl, h⟩
  | some e =>
    obtain ⟨_, hp, _⟩ | ⟨_, u, v, rfl, hp, hk⟩ := (Step.yields_bind_lift ..).mp h
    · obtain ⟨_, _, he⟩ := (Action.yields_publish _ ctx.plan ⟨e.kind, e.reason, e.message⟩ _).mp hp
      cases he
    · obtain ⟨answer, rfl, _⟩ :=
        (Action.yields_publish _ ctx.plan ⟨e.kind, e.reason, e.message⟩ _).mp hp
      exact ⟨_, v, rfl, rfl, hk⟩

/-- the add-ons are evaluated up to the first one that is not passed over -/
theorem addons_course {workload : String} {charts : List ReleaseChart}
    {p : Except UpgradeError Progress}
    (h : (addons ctx condition workload resources charts).Yields before t p after) :
    ∃ findings, Evaluated ctx resources (Finding.event? condition workload) findings t ∧
      Trailed ctx condition before charts findings p after := by
  induction charts generalizing t with
  | nil =>
    obtain ⟨rfl, rfl, rfl⟩ := (Step.yields_pure ..).mp h
    exact ⟨[], .nil, .nil⟩
  | cons a rest ih =>
    have passes {f : Finding} {u : Trace} (ha : f.chart = a) (hf : f.Holds ctx resources)
        (hpassed : Passed f.result)
        (hrest : ((match f.event? condition workload with
            | some e => liftM (ctx.publish e.kind e.reason e.message)
            | none => pure () : Step Unit) >>=
          fun _ => addons ctx condition workload resources rest).Yields before u p after) :
        ∃ findings, Evaluated ctx resources (Finding.event? condition workload) findings
            (f.calls ++ u) ∧
          Trailed ctx condition before (a :: rest) findings p after := by
      obtain ⟨told, v, rfl, htold, hmore⟩ := tell_of_yields hrest
      obtain ⟨findings, hev, htrail⟩ := ih hmore
      rw [← ha]
      exact ⟨f :: findings, .tell hf htold hev, .passed f hpassed htrail⟩
    have ends {f : Finding} {p : Except UpgradeError Progress} {after : Status} (ha : f.chart = a)
        (hf : f.Holds ctx resources) (hsilent : f.event? condition workload = none)
        (htrail : Trailed ctx condition before (f.chart :: rest) [f] p after) :
        ∃ findings, Evaluated ctx resources (Finding.event? condition workload) findings f.calls ∧
          Trailed ctx condition before (a :: rest) findings p after :=
      ⟨[f], .single hf hsilent, ha ▸ htrail⟩
    obtain ⟨e, hs, rfl, rfl⟩ | ⟨v, u, w, rfl, hs, hrest⟩ := (Step.yields_bind_lift ..).mp h
    · obtain ⟨x, hx, hv⟩ := stateOf_of_yields hs
      obtain ⟨rfl, hne⟩ := verdict_eq_error hv.symm
      exact ends (f := ⟨a, t, .error e⟩) rfl hx (Finding.event?_eq_none rfl hne)
        (.broken _ rest e rfl hne)
    obtain ⟨x, hx, hv⟩ := stateOf_of_yields hs
    cases v with
    | error release =>
      obtain rfl := verdict_eq_several hv.symm
      exact passes (f := ⟨a, u, .error (.multipleHelmCharts release)⟩) rfl hx ⟨release, rfl⟩ hrest
    | ok state =>
      obtain rfl := verdict_eq_known hv.symm
      cases state with
      | inProgress =>
        have hrest := (Context.yields_bind_setCondition ..).mp hrest
        obtain ⟨rfl, rfl, rfl⟩ := (Step.yields_pure ..).mp hrest
        rw [List.append_nil]
        exact ends (f := ⟨a, u, .ok .inProgress⟩) rfl hx rfl (.inProgress _ rest rfl)
      | unknown =>
        obtain ⟨rfl, rfl, rfl⟩ := (Step.yields_pure ..).mp hrest
        rw [List.append_nil]
        exact ends (f := ⟨a, u, .ok .unknown⟩) rfl hx rfl (.unknown _ rest rfl)
      | notInstalled | versionAlreadyInstalled | succeeded | failed =>
        exact passes (f := ⟨a, u, .ok _⟩) rfl hx rfl hrest

section
variable {w : ReleaseChart} {r : Except UpgradeError Requeue}

/-- after the add-ons the step ends, with the state of the chart of the workload if they let it -/
theorem finish_course {core : ChartState}
    (h : (finish ctx condition resources w core).Yields before t r after) :
    ∃ findings p between,
      Evaluated ctx resources (Finding.event? condition w.releaseName) findings t ∧
      Trailed ctx condition before w.addons findings p between ∧
      Concluded ctx condition w core between p r after := by
  obtain ⟨e, ha, rfl⟩ | ⟨progress, between, u, _, rfl, ha, hrest⟩ := (Step.yields_bind ..).mp h
  · obtain ⟨findings, hev, htrail⟩ := addons_course ha
    exact ⟨findings, _, _, hev, htrail, .broken e⟩
  obtain ⟨findings, hev, htrail⟩ := addons_course ha
  cases progress with
  | stops requeue =>
    obtain ⟨rfl, rfl, rfl⟩ := (Step.yields_pure ..).mp hrest
    rw [List.append_nil]
    exact ⟨findings, _, _, hev, htrail, .stopped requeue⟩
  | goesOn =>
    obtain ⟨rfl, rfl, rfl⟩ := record_of_yields hrest
    rw [List.append_nil]
    exact ⟨findings, _, _, hev, htrail, .recorded⟩

/-- the state of the chart of the workload decides: the chart is missing under its dependencies, or
it is done and the add-ons follow, or it is not done -/
theorem known_course {pre : List Finding} {f : Finding} {core : ChartState}
    (hpre : pre.map Finding.chart = w.dependencies) (hdone : ∀ g ∈ pre, g.IsDone)
    (hw : f.chart = w) (hcore : f.result = .ok core)
    (h : (if core = .notInstalled && !w.dependencies.isEmpty then do
          ctx.setFailed condition (missingCore w)
          return .immediately
        else if core.isDone then finish ctx condition resources w core
        else record ctx condition core w.releaseName : Step Requeue).Yields before t r after) :
    ∃ findings, Evaluated ctx resources (Finding.event? condition w.releaseName) findings t ∧
      Course ctx condition w before (pre ++ [f]) findings r after := by
  split at h
  case isTrue hmissing =>
    obtain ⟨hnot, hdeps⟩ := (Bool.and_eq_true _ _).mp hmissing
    obtain rfl : core = .notInstalled := of_decide_eq_true hnot
    have h := (Context.yields_bind_setCondition ..).mp h
    obtain ⟨rfl, rfl, rfl⟩ := (Step.yields_pure ..).mp h
    refine ⟨[], .nil, .missing pre f hpre hdone hw hcore fun hnil => ?_⟩
    rw [hnil] at hdeps
    cases hdeps
  case isFalse hmissing =>
    split at h
    case isTrue hisDone =>
      obtain ⟨findings, p, between, hev, htrail, hend⟩ := finish_course h
      exact ⟨findings, hev, .addons pre f core findings hpre hdone hw hcore hisDone htrail hend⟩
    case isFalse hisDone =>
      obtain ⟨rfl, rfl, rfl⟩ := record_of_yields h
      have hq : Blocked ctx condition before f _ _ :=
        .undone core hcore (Bool.eq_false_iff.mpr hisDone)
      rw [hw] at hq
      refine ⟨[], .nil, .core pre f hpre hdone hw (fun hnot => ?_) hq⟩
      rw [hcore] at hnot
      cases hnot
      simpa using hmissing

/-- the chart of the workload comes after those that it depends on, and its add-ons after it -/
theorem proceed_course {pre : List Finding} (hpre : pre.map Finding.chart = w.dependencies)
    (hdone : ∀ g ∈ pre, g.IsDone)
    (h : (proceed ctx condition resources w).Yields before t r after) :
    ∃ f : Finding, ∃ findings u v, t = u ++ v ∧ Evaluated ctx resources Finding.silent [f] u ∧
      Evaluated ctx resources (Finding.event? condition w.releaseName) findings v ∧
      Course ctx condition w before (pre ++ [f]) findings r after := by
  obtain ⟨e, hreq, rfl⟩ | ⟨core?, between, u, v, rfl, hreq, hrest⟩ := (Step.yields_bind ..).mp h
  · obtain ⟨f, hw, rfl, hf, hrequired⟩ := required_course hreq
    cases hrequired with
    | broken _ he hne =>
      refine ⟨f, [], f.calls, [], (List.append_nil _).symm, .single hf rfl, .nil, ?_⟩
      refine .core pre f hpre hdone hw (fun hs => ?_) (.broken e he hne)
      rw [he] at hs
      cases hs
  obtain ⟨f, hw, rfl, hf, hrequired⟩ := required_course hreq
  cases hrequired with
  | known core hcore =>
    obtain ⟨findings, hev, hcourse⟩ := known_course hpre hdone hw hcore hrest
    exact ⟨f, findings, f.calls, v, rfl, .single hf rfl, hev, hcourse⟩
  | several release he =>
    obtain ⟨rfl, rfl, rfl⟩ := (Step.yields_pure ..).mp hrest
    refine ⟨f, [], f.calls, [], rfl, .single hf rfl, .nil, ?_⟩
    refine .core pre f hpre hdone hw (fun hs => ?_) (.several release he)
    rw [he] at hs
    cases hs

/-- after the chart resources have been listed: a chart that the workload depends on ends the step,
or the chart of the workload follows -/
theorem listed_course {cond : String}
    (h : (dependencies ctx cond resources w.dependencies >>= fun
        | .stops requeue => pure requeue
        | .goesOn => proceed ctx cond resources w : Step Requeue).Yields before t r after) :
    ∃ required addons u v, t = u ++ v ∧ Evaluated ctx resources Finding.silent required u ∧
      Evaluated ctx resources (Finding.event? cond w.releaseName) addons v ∧
      Course ctx cond w before required addons r after := by
  obtain ⟨e, hd, rfl⟩ | ⟨progress, between, u, v, rfl, hd, hrest⟩ := (Step.yields_bind ..).mp h
  · obtain ⟨findings, hev, hdep⟩ := dependencies_course hd
    obtain ⟨pre, f, post, q, rfl, hcharts, hdone, hblocked, he⟩ := hdep.halted_of_ne nofun
    cases q with
    | ok => cases he
    | error =>
      cases he
      exact ⟨_, [], t, [], (List.append_nil t).symm, hev, .nil,
        .dependency pre f post hcharts hdone hblocked⟩
  obtain ⟨findings, hev, hdep⟩ := dependencies_course hd
  cases progress with
  | stops requeue =>
    obtain ⟨rfl, rfl, rfl⟩ := (Step.yields_pure ..).mp hrest
    obtain ⟨pre, f, post, q, rfl, hcharts, hdone, hblocked, he⟩ := hdep.halted_of_ne nofun
    cases q with
    | error => cases he
    | ok =>
      cases he
      exact ⟨_, [], u, [], rfl, hev, .nil, .dependency pre f post hcharts hdone hblocked⟩
  | goesOn =>
    obtain ⟨hcharts, hdone, rfl⟩ := hdep.done_of_goesOn
    obtain ⟨f, addons, v₁, v₂, rfl, hf, haddons, hcourse⟩ := proceed_course hcharts hdone hrest
    exact ⟨findings ++ [f], addons, u ++ v₁, v₂, (List.append_assoc ..).symm, hev.append hf,
      haddons, hcourse⟩

/-- a step lists the chart resources; then it evaluates charts, and what it finds out decides how it
ends -/
theorem course_of_yields (h : (step ctx w).Yields before t r after) :
    (∃ e, t = [⟨.list .helmChart none, .error e⟩] ∧ r = .error e ∧ after = before) ∨
      ∃ resources required addons u v, t = .listed .helmChart none resources :: (u ++ v) ∧
        Evaluated ctx resources Finding.silent required u ∧
        Evaluated ctx resources
          (Finding.event? (Status.workloadUpgraded w.prettyName) w.releaseName) addons v ∧
        Course ctx (Status.workloadUpgraded w.prettyName) w before required addons r after := by
  obtain ⟨e, ht, hr, hafter⟩ | ⟨resources, u, rfl, hrest⟩ := (Step.yields_bind_list ..).mp h
  · exact .inl ⟨e, ht, hr, hafter⟩
  · obtain ⟨required, addons, u, v, rfl, hcourse⟩ := listed_course hrest
    exact .inr ⟨resources, required, addons, u, v, rfl, hcourse⟩

end

end

end Workload

end ReleaseUpgrade
