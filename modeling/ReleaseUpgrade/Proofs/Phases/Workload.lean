import ReleaseUpgrade.Proofs.Phases.Findings
import ReleaseUpgrade.Proofs.Upgrade.Status

/-!
# The course of a workload

A step of a workload evaluates its charts in turn: the charts that it depends on, the chart itself,
the add-ons.  What it may write, and that it writes at most once, follows from how far it has come.

* `Walk`               the charts that have been evaluated in turn and are done;
* `Halted`             a walk up to a chart that is not done: there the step ends, and the condition
                       has not become true;
* `Trail`              the add-ons, which may be passed over;
* `step_of_yields`     the trace of a step is one of these;
* `guarded_of_yields`, `brief_of_yields`   what a step may write, and how often.
-/

namespace ReleaseUpgrade.Workload

section
variable (ctx : Context) (condition : String) (resources : List HelmChart)

/-- charts are evaluated in turn, and each of them is done -/
inductive Walk : List ReleaseChart → Trace → Prop
  | nil : Walk [] []
  | cons (chart rest s) {u v} : (Evaluation.state ctx resources chart).Yields u (.ok s) →
      s.isDone = true → Walk rest v → Walk (chart :: rest) (u ++ v)

/-- some charts are done, and the next one is not -/
inductive Halted (charts : List ReleaseChart) (before : Status) : Trace → Status → Prop
  | at (pre chart post x) {u v after} : charts = pre ++ chart :: post → Walk ctx resources pre u →
      (Evaluation.state ctx resources chart).Yields v x → (∀ s, x = .ok s → s.isDone = false) →
      Status.Held ctx.now condition before after → Halted charts before (u ++ v) after

/-- add-ons are evaluated in turn; all but the last one let the step go on -/
inductive Trail : List ReleaseChart → Trace → Prop
  | nil : Trail [] []
  | stop (chart rest x) {u} : (Evaluation.state ctx resources chart).Yields u x →
      Trail (chart :: rest) u
  | cons (chart rest x) {u told v} : (Evaluation.state ctx resources chart).Yields u x →
      ¬Evaluation.Stopping x → told.Quiet → Trail rest v → Trail (chart :: rest) (u ++ told ++ v)

variable {ctx condition resources}

theorem not_isDone_status {s : ChartState} (h : s.isDone = false) : s.reason.status ≠ .isTrue := by
  cases s with
  | succeeded | versionAlreadyInstalled => cases h
  | unknown | notInstalled | inProgress | failed => decide

end

section
variable {ctx : Context} {condition : String} {resources : List HelmChart}
  {before after : Status} {t : Trace} {findings : List Finding} {f : Finding}

theorem Evaluated.walk (h : Evaluated ctx resources Finding.silent findings t)
    (hdone : ∀ f ∈ findings, f.IsDone) : Walk ctx resources (findings.map Finding.chart) t := by
  induction findings generalizing t with
  | nil =>
    cases h
    exact .nil
  | cons f rest ih =>
    obtain ⟨v, rfl, hf, hrest⟩ := h.of_silent rfl
    obtain ⟨⟨s, hs, hisDone⟩, hdone⟩ := List.forall_mem_cons.mp hdone
    have hstate : (Evaluation.state ctx resources f.chart).Yields f.calls (.ok s) := hs ▸ hf
    exact .cons f.chart _ s hstate hisDone (ih hrest hdone)

/-- where a chart that the workload cannot do without ends the step, the condition has not become
true -/
theorem Blocked.held {r : Except UpgradeError Requeue}
    (h : Blocked ctx condition before f r after) :
    (∀ s, f.result = .ok s → s.isDone = false) ∧ Status.Held ctx.now condition before after := by
  cases h with
  | undone s hs hnot =>
    refine ⟨fun s' hs' => ?_, .inr ⟨_, _, not_isDone_status hnot, rfl⟩⟩
    rw [hs] at hs'
    cases hs'
    exact hnot
  | several _ he =>
    refine ⟨fun s hs => ?_, .inr ⟨.failed, _, nofun, rfl⟩⟩
    rw [he] at hs
    cases hs
  | broken _ he =>
    refine ⟨fun s hs => ?_, .inl rfl⟩
    rw [he] at hs
    cases hs

theorem Evaluated.halted {pre : List Finding} (post : List ReleaseChart)
    (h : Evaluated ctx resources Finding.silent (pre ++ [f]) t) (hdone : ∀ g ∈ pre, g.IsDone)
    (hnot : ∀ s, f.result = .ok s → s.isDone = false)
    (hheld : Status.Held ctx.now condition before after) :
    Halted ctx condition resources (pre.map Finding.chart ++ f.chart :: post) before t after := by
  obtain ⟨u, _, rfl, hpre, hlast⟩ := h.of_append
  obtain ⟨rfl, hf⟩ := hlast.of_single rfl
  exact .at _ f.chart post f.result rfl (hpre.walk hdone) hf hnot hheld

theorem not_stopping_of_passed (h : Passed f.result) : ¬Evaluation.Stopping f.result := by
  rintro (he | ⟨e, hne, he⟩)
  · rw [he] at h
    cases h
  · rw [he] at h
    obtain ⟨release, rfl⟩ := h
    exact hne release rfl

theorem Trailed.trail {cs : List ReleaseChart} {workload : String}
    {p : Except UpgradeError Progress} (h : Trailed ctx condition before cs findings p after)
    (hev : Evaluated ctx resources (Finding.event? condition workload) findings t) :
    Trail ctx resources cs t := by
  induction h generalizing t with
  | nil =>
    cases hev
    exact .nil
  | passed f hpassed _ ih =>
    cases hev with
    | cons _ hf htold hrest =>
      have hquiet : Trace.Quiet _ := fun x hx => by
        obtain ⟨event, he⟩ := Trace.event_of_mem htold hx
        rw [he]
        rfl
      exact .cons f.chart _ f.result hf (not_stopping_of_passed hpassed) hquiet (ih hrest)
  | inProgress f rest hresult | unknown f rest hresult =>
    obtain ⟨rfl, hf⟩ := hev.of_single (by rw [Finding.event?, hresult]; rfl)
    exact .stop f.chart rest f.result hf
  | broken f rest e hresult hne =>
    obtain ⟨rfl, hf⟩ := hev.of_single (Finding.event?_eq_none hresult hne)
    exact .stop f.chart rest f.result hf

/-- a step lists the chart resources; then the charts up to that of the workload are done and the
add-ons follow, or one of them ends the step -/
theorem step_of_yields {w : ReleaseChart} {r : Except UpgradeError Requeue}
    (h : (step ctx w).Yields before t r after) :
    (∃ e, t = [⟨.list .helmChart none, .error e⟩] ∧ r = .error e ∧ after = before) ∨
      ∃ resources u, t = .listed .helmChart none resources :: u ∧
        (Halted ctx (Status.workloadUpgraded w.prettyName) resources (w.dependencies ++ [w]) before
            u after ∨
          ∃ v a, u = v ++ a ∧ Walk ctx resources (w.dependencies ++ [w]) v ∧
            Trail ctx resources w.addons a) := by
  obtain hlist | ⟨resources, required, addons, u, v, rfl, hu, hv, hcourse⟩ := course_of_yields h
  · exact .inl hlist
  refine .inr ⟨resources, u ++ v, rfl, ?_⟩
  cases hcourse with
  | dependency pre f post hdeps hdone hblocked =>
    cases hv
    rw [List.append_nil, hdeps, List.append_assoc]
    exact .inl (hu.halted _ hdone hblocked.held.1 hblocked.held.2)
  | missing pre f hdeps hdone hw hs =>
    cases hv
    subst hw
    rw [List.append_nil, ← hdeps]
    refine .inl (hu.halted [] hdone (fun s hs' => ?_) (.inr ⟨.failed, _, nofun, rfl⟩))
    rw [hs] at hs'
    cases hs'
    rfl
  | core pre f hdeps hdone hw _ hblocked =>
    cases hv
    subst hw
    rw [List.append_nil, ← hdeps]
    exact .inl (hu.halted [] hdone hblocked.held.1 hblocked.held.2)
  | addons pre f s _ hdeps hdone hw hs hisDone htrail =>
    subst hw
    refine .inr ⟨u, v, rfl, ?_, htrail.trail hv⟩
    have hwalk := hu.walk (List.forall_mem_append.mpr
      ⟨hdone, List.forall_mem_singleton.mpr ⟨s, hs, hisDone⟩⟩)
    rwa [List.map_append, hdeps] at hwalk

end

/-- what the evaluation of one of some charts may write -/
def AllowedIn (ctx : Context) (resources : List HelmChart) (charts : List ReleaseChart)
    (past : Trace) (c : Call) : Prop :=
  ∃ chart ∈ charts, Evaluation.Allowed ctx resources chart past c

/-- the charts of a workload in their order -/
def charts (w : ReleaseChart) : List ReleaseChart := w.dependencies ++ w :: w.addons

/-- what a step of a workload may write after what went before -/
def Allowed (ctx : Context) (w : ReleaseChart) (past : Trace) (c : Call) : Prop :=
  ∃ resources, .listed .helmChart none resources ∈ past ∧ AllowedIn ctx resources (charts w) past c

section
variable {ctx : Context} {condition : String} {resources : List HelmChart}
  {cs : List ReleaseChart} {before after : Status} {t : Trace}

theorem AllowedIn.mono {more : List ReleaseChart} {past : Trace} {c : Call} (u : Trace)
    (h : AllowedIn ctx resources cs past c) (hsub : ∀ chart ∈ cs, chart ∈ more) :
    AllowedIn ctx resources more (u ++ past) c := by
  obtain ⟨chart, hmem, h⟩ := h
  exact ⟨chart, hsub chart hmem, h.prepend u⟩

theorem Allowed.prepend {w : ReleaseChart} {past : Trace} {c : Call} (u : Trace)
    (h : Allowed ctx w past c) : Allowed ctx w (u ++ past) c := by
  obtain ⟨resources, hlist, hc⟩ := h
  exact ⟨resources, List.mem_append_right u hlist, hc.mono u fun _ => id⟩

theorem guarded_of_state {chart : ReleaseChart} {x : Except UpgradeError ChartState}
    (h : (Evaluation.state ctx resources chart).Yields t x) (hmem : chart ∈ cs) :
    t.Guarded (AllowedIn ctx resources cs) :=
  (Evaluation.guarded_of_yields h).mono fun _ _ hc => ⟨chart, hmem, hc⟩

theorem Walk.guarded (h : Walk ctx resources cs t) : t.Guarded (AllowedIn ctx resources cs) := by
  induction h with
  | nil => trivial
  | cons chart rest s h _ _ ih =>
    exact (guarded_of_state h List.mem_cons_self).append ih fun _ _ hc =>
      hc.mono _ fun _ => List.mem_cons_of_mem chart

theorem Halted.guarded (h : Halted ctx condition resources cs before t after) :
    t.Guarded (AllowedIn ctx resources cs) := by
  obtain ⟨pre, chart, post, x, rfl, hpre, h, _, _⟩ := h
  have hmem : chart ∈ pre ++ chart :: post := List.mem_append_right pre List.mem_cons_self
  refine (hpre.guarded.mono fun past c hc => ?_).append (guarded_of_state h hmem) fun _ _ hc =>
    hc.mono _ fun _ => id
  exact hc.mono [] fun _ => List.mem_append_left _

theorem Trail.guarded (h : Trail ctx resources cs t) : t.Guarded (AllowedIn ctx resources cs) := by
  induction h with
  | nil => trivial
  | stop chart rest x h => exact guarded_of_state h List.mem_cons_self
  | cons chart rest x h _ hquiet _ ih =>
    have hu : Trace.Guarded (AllowedIn ctx resources (chart :: rest)) _ :=
      guarded_of_state h List.mem_cons_self
    refine Trace.Guarded.append ((Trace.guarded_append _ _).mpr ⟨hu, hquiet.guarded⟩) ih ?_
    exact fun _ _ hc => hc.mono _ fun _ => List.mem_cons_of_mem chart

theorem guarded_of_yields {w : ReleaseChart} {r : Except UpgradeError Requeue}
    (h : (step ctx w).Yields before t r after) : t.Guarded (Allowed ctx w) := by
  obtain ⟨e, rfl, _, _⟩ | ⟨resources, u, rfl, hu⟩ := step_of_yields h
  · exact ⟨nofun, trivial⟩
  have hall : Trace.Guarded (AllowedIn ctx resources (charts w)) u := by
    have hsub : ∀ chart ∈ w.dependencies ++ [w], chart ∈ charts w := by
      intro chart hmem
      rw [charts, List.append_cons]
      exact List.mem_append_left _ hmem
    obtain hh | ⟨v, a, rfl, hw, ha⟩ := hu
    · exact hh.guarded.mono fun _ _ hc => hc.mono [] hsub
    · refine (hw.guarded.mono fun _ _ hc => hc.mono [] hsub).append ha.guarded fun _ _ hc => ?_
      exact hc.mono v fun chart hmem =>
        List.mem_append_right _ (List.mem_cons_of_mem w hmem)
  exact ⟨nofun, hall.mono fun past c hc => ⟨resources, List.mem_cons_self, hc.mono [_] fun _ => id⟩⟩

theorem Walk.quiet (h : Walk ctx resources cs t) (hgen : t.Genuine) : t.Quiet := by
  induction h with
  | nil => exact Trace.quiet_nil
  | cons chart rest s h hdone _ ih =>
    obtain ⟨hu, hv⟩ := (Trace.genuine_append _ _).mp hgen
    refine (Trace.quiet_append _ _).mpr ⟨(Evaluation.brief_of_yields h hu).quiet ?_, ih hv⟩
    rintro (he | ⟨_, _, he⟩)
    · cases he
      cases hdone
    · cases he

theorem Halted.brief (h : Halted ctx condition resources cs before t after) (hgen : t.Genuine) :
    t.Brief True := by
  obtain ⟨pre, chart, post, x, rfl, hpre, h, _, _⟩ := h
  obtain ⟨hu, hv⟩ := (Trace.genuine_append _ _).mp hgen
  exact (hpre.quiet hu).append_brief ((Evaluation.brief_of_yields h hv).mono fun _ => trivial)

theorem Trail.brief (h : Trail ctx resources cs t) (hgen : t.Genuine) : t.Brief True := by
  induction h with
  | nil => exact .inl Trace.quiet_nil
  | stop chart rest x h => exact (Evaluation.brief_of_yields h hgen).mono fun _ => trivial
  | cons chart rest x h hstop hquiet _ ih =>
    obtain ⟨hleft, hv⟩ := (Trace.genuine_append _ _).mp hgen
    obtain ⟨hu, _⟩ := (Trace.genuine_append _ _).mp hleft
    have hu := (Evaluation.brief_of_yields h hu).quiet hstop
    exact ((Trace.quiet_append _ _).mpr ⟨hu, hquiet⟩).append_brief (ih hv)

theorem brief_of_yields {w : ReleaseChart} {r : Except UpgradeError Requeue}
    (h : (step ctx w).Yields before t r after) (hgen : t.Genuine) : t.Brief True := by
  obtain ⟨e, rfl, _, _⟩ | ⟨resources, u, rfl, hu⟩ := step_of_yields h
  · exact .inl (Trace.quiet_single rfl)
  have hlist : Trace.Quiet [.listed .helmChart none resources] :=
    Trace.quiet_single rfl
  have hgen : Trace.Genuine u := fun x hx => hgen x (List.mem_cons_of_mem _ hx)
  refine hlist.append_brief (u := [_]) ?_
  obtain hh | ⟨v, a, rfl, hw, ha⟩ := hu
  · exact hh.brief hgen
  · obtain ⟨hv, hga⟩ := (Trace.genuine_append _ _).mp hgen
    exact (hw.quiet hv).append_brief (ha.brief hga)

end

end ReleaseUpgrade.Workload
