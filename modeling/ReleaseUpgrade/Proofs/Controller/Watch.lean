import ReleaseUpgrade.Controller.Watch
import ReleaseUpgrade.Proofs.Controller.Reconciliation
import ReleaseUpgrade.Proofs.Cluster.Store
import ReleaseUpgrade.Proofs.Dict
import ReleaseUpgrade.Proofs.Phases.Attempt

/-!
# Changes find their plan

A plan waits for the objects that its passes write, and a change of one of them must lead back to
it.

* `Naming.Marks`             the marks are those of a plan, as those that objects get are;
* `Kind.Version`             a later version of an object, changed by others;
* `Watch.Traced`             where the changes of an object lead that a pass has written;
* `Watch.traced_of_yields`   they lead to the plan, except for a chart resource that is not in the
                             namespace of chart resources: its job is taken for that of another one;
* `Watch.wakeup_lost`        so the end of such a job can pass unnoticed.
-/

namespace ReleaseUpgrade

/-- the keys differ from each other -/
def Keys.Distinct (keys : Keys) : Prop :=
  [keys.finalizer, keys.planName, keys.planNamespace, keys.release, keys.controlPlane,
    keys.helmChartJob].Nodup

namespace Keys.Distinct
variable {keys : Keys}

theorem planNamespace_ne (h : keys.Distinct) : keys.planNamespace ≠ keys.planName := by
  simp only [Distinct, List.nodup_cons, List.mem_cons, not_or] at h
  exact Ne.symm h.2.1.1

theorem release_ne_planName (h : keys.Distinct) : keys.release ≠ keys.planName := by
  simp only [Distinct, List.nodup_cons, List.mem_cons, not_or] at h
  exact Ne.symm h.2.1.2.1

theorem release_ne_planNamespace (h : keys.Distinct) : keys.release ≠ keys.planNamespace := by
  simp only [Distinct, List.nodup_cons, List.mem_cons, not_or] at h
  exact Ne.symm h.2.2.1.1

end Keys.Distinct

/-- the plan has a name and is in a namespace -/
structure UpgradePlan.Addressed (plan : UpgradePlan) : Prop where
  name : plan.metadata.name ≠ none
  ns : plan.metadata.ns ≠ none

namespace Naming

/-- the marks are those of a plan, among others -/
structure Marks (keys : Keys) (plan : UpgradePlan) (marks : Dict String) : Prop where
  name : Dict.get? keys.planName marks = some plan.metadata.nameAny
  ns : Dict.get? keys.planNamespace marks = some plan.metadata.nsOr

section
variable {keys : Keys} {plan : UpgradePlan} {marks : Dict String}

theorem Marks.insert (h : Marks keys plan marks) {key : String} (hname : key ≠ keys.planName)
    (hns : key ≠ keys.planNamespace) (value : String) :
    Marks keys plan (Dict.insert key value marks) where
  name := by rw [Dict.get?_insert_of_ne hname, h.name]
  ns := by rw [Dict.get?_insert_of_ne hns, h.ns]

theorem Marks.union (h : Marks keys plan marks) (hm : marks.Ordered) (old : Dict String) :
    Marks keys plan (Dict.union old marks) where
  name := by rw [Dict.get?_union hm, h.name, Option.some_or]
  ns := by rw [Dict.get?_union hm, h.ns, Option.some_or]

theorem marks_identity (hkeys : keys.Distinct) (plan : UpgradePlan) :
    Marks keys plan (identity keys plan) where
  name := by
    show Dict.get? keys.planName
      (Dict.insert keys.planNamespace _ (Dict.insert keys.planName _ [])) = _
    rw [Dict.get?_insert_of_ne hkeys.planNamespace_ne, Dict.get?_insert_self]
  ns := Dict.get?_insert_self ..

theorem marks_chart {settings : Settings} (hkeys : settings.keys.Distinct) (plan : UpgradePlan)
    (release : String) :
    Marks settings.keys plan (HelmChart.marks settings (identity settings.keys plan) release) :=
  (marks_identity hkeys plan).insert hkeys.release_ne_planName hkeys.release_ne_planNamespace _

theorem ordered_chart (settings : Settings) (plan : UpgradePlan) (release : String) :
    (HelmChart.marks settings (identity settings.keys plan) release).Ordered :=
  (Dict.ordered_ofList _).insert _ _

/-- an object with the marks of a plan leads to the plan -/
theorem Marks.ofMarks?_eq (h : Marks keys plan marks) (hplan : plan.Addressed) {m : Metadata}
    (hm : m.annotations = some marks) : PlanRef.ofMarks? keys m = some (PlanRef.ofPlan plan) := by
  obtain ⟨name, hname⟩ := Option.ne_none_iff_exists'.mp hplan.name
  obtain ⟨ns, hns⟩ := Option.ne_none_iff_exists'.mp hplan.ns
  simp [PlanRef.ofMarks?, owner?, PlanRef.ofPlan, hm, h.name, h.ns, Metadata.nameAny,
    Metadata.nsOr, hname, hns]

end

end Naming

/-- a later version of an object: others may change all of it but its name, its namespace and its
marks -/
structure Kind.Version (k : Kind) (o o' : k.Object) : Prop where
  key : k.key o' = k.key o
  annotations : (k.metadata o').annotations = (k.metadata o).annotations

/-- the job of a chart resource: the resource names it, it is next to the resource, and it has the
label of its chart -/
structure HelmChart.Runs (ctx : Context) (c : HelmChart) (job : Job) : Prop where
  name : c.jobName? = some job.metadata.nameAny
  ns : job.metadata.ns = some (Evaluation.jobNamespace ctx c)
  label : job.metadata.label? ctx.settings.keys.helmChartJob = some c.metadata.nameAny

/-- what a listing shows in a namespace is there -/
def Trace.Located (t : Trace) : Prop :=
  ∀ (k : Kind) (ns : String) (os : List k.Object), .listed k (some ns) os ∈ t →
    ∀ o ∈ os, (k.metadata o).ns = some ns

namespace Watch

section
variable (ctx : Context)

/-- the plan that the end of a job leads to by the chart resource that is looked up: the one of the
name in the namespace of chart resources -/
def chartOwner? (s : Store) (name : String) : Option PlanRef :=
  (s.get? .helmChart ctx.settings.chartNamespace name).bind fun other =>
    PlanRef.ofMarks? ctx.settings.keys (HelmChart.metadata other)

/-- where the changes of an object lead: to the plan, but only once a node plan is not being applied
and once a job has ended.  The end of the job of a chart resource leads to the plan that the job is
marked with, if it is; else to the plan if the resource is in the namespace of chart resources, and
if it is not, to the plan of the resource of its name in that namespace -/
def Traced : (k : Kind) → k.Object → Prop
  | .secret, o => ∀ o', Kind.Version .secret o o' →
      secret ctx.settings.keys o' = some (PlanRef.ofPlan ctx.plan)
  | .nodePlan, o => ∀ o' : NodePlan, Kind.Version .nodePlan o o' →
      nodePlan ctx.settings.keys o' =
        if o'.isApplying then none else some (PlanRef.ofPlan ctx.plan)
  | .job, o => ∀ (o' : Job) chart?, Kind.Version .job o o' →
      job ctx.settings chart? o' =
        if o'.outcome? = none then none else some (PlanRef.ofPlan ctx.plan)
  | .helmChart, o => ∀ (o' : HelmChart) (s : Store) (j : Job), Kind.Version .helmChart o o' →
      s.under (Kind.key .helmChart o') = some o' → o'.Runs ctx j →
      job ctx.settings (s.get? .helmChart) j =
        if j.outcome? = none then none
        else (PlanRef.ofMarks? ctx.settings.keys j.metadata).or
          (if o'.metadata.ns = some ctx.settings.chartNamespace then some (PlanRef.ofPlan ctx.plan)
          else chartOwner? ctx s o'.metadata.nameAny)
  | _, _ => False

end

section
variable {ctx : Context} {before : Status} {past t : Trace} {suffix : String}

/-- a job leads nowhere before its end, then to the plan that it is marked with or to that of its
chart resource -/
theorem job_eq (chart? : (ns name : String) → Option HelmChart) (j : Job) :
    job ctx.settings chart? j =
      if j.outcome? = none then none
      else (PlanRef.ofMarks? ctx.settings.keys j.metadata).or
        ((chartOf? ctx.settings chart? j).bind fun c =>
          PlanRef.ofMarks? ctx.settings.keys c.metadata) := by
  unfold job Job.isFinished
  cases j.outcome? with
  | none => rfl
  | some outcome => cases PlanRef.ofMarks? ctx.settings.keys j.metadata <;> rfl

section
variable {marks : Dict String} (hplan : ctx.plan.Addressed)
  (hmarks : Naming.Marks ctx.settings.keys ctx.plan marks)
include hplan hmarks

theorem traced_secret {o : Secret} (ho : o.metadata.annotations = some marks) :
    Traced ctx .secret o :=
  fun _ hsame => hmarks.ofMarks?_eq hplan (hsame.annotations.trans ho)

theorem traced_nodePlan {o : NodePlan} (ho : o.metadata.annotations = some marks) :
    Traced ctx .nodePlan o := by
  intro o' hsame
  have howner := hmarks.ofMarks?_eq hplan (hsame.annotations.trans ho)
  rw [← howner]
  rfl

theorem traced_job {o : Job} (ho : o.metadata.annotations = some marks) : Traced ctx .job o := by
  intro o' chart? hsame
  have howner : PlanRef.ofMarks? ctx.settings.keys o'.metadata = some (PlanRef.ofPlan ctx.plan) :=
    hmarks.ofMarks?_eq hplan (hsame.annotations.trans ho)
  rw [job_eq, howner, Option.some_or]

theorem traced_helmChart {o : HelmChart} (ho : o.metadata.annotations = some marks) :
    Traced ctx .helmChart o := by
  intro o' s j hsame hunder hj
  have hchart : chartOf? ctx.settings (s.get? .helmChart) j =
      s.get? .helmChart ctx.settings.chartNamespace o'.metadata.nameAny := by
    unfold chartOf?
    rw [hj.label]
    rfl
  refine (job_eq _ j).trans (congrArg (fun owner? => if j.outcome? = none then none
    else (PlanRef.ofMarks? ctx.settings.keys j.metadata).or owner?) ?_)
  rw [hchart]
  split
  · rename_i hns
    -- the resource that is looked up is this one
    have hget : s.get? .helmChart ctx.settings.chartNamespace o'.metadata.nameAny = some o' := by
      rw [← hunder]
      show _ = List.find? (Store.isNamed .helmChart o'.metadata.ns o'.metadata.nameAny) s.helmCharts
      rw [hns]
      rfl
    rw [hget]
    exact hmarks.ofMarks?_eq hplan (hsame.annotations.trans ho)
  · rfl

end

/-- what a step may write is traced -/
theorem traced_of_licensed {k : Kind} {o : k.Object} {c : Call}
    (hkeys : ctx.settings.keys.Distinct) (hplan : ctx.plan.Addressed)
    (h : Upgrade.Licensed ctx before past c)
    (hc : c = .create k o ∨ c = .replace k o) : Traced ctx k o := by
  have hidentity : Naming.Marks ctx.settings.keys ctx.plan ctx.identity :=
    Naming.marks_identity hkeys ctx.plan
  cases h with
  | install =>
    obtain hc | hc := hc <;> cases hc
    exact traced_job hplan hidentity rfl
  | system m _ _ hallowed =>
    cases hallowed with
    | secret =>
      obtain hc | hc := hc <;> cases hc
      exact traced_secret hplan hidentity rfl
    | plan nodes suffix _ _ _ _ htier =>
      obtain ⟨_, role, _, _, rfl, _⟩ := htier
      obtain hc | hc := hc <;> cases hc
      exact traced_nodePlan hplan hidentity (by cases role <;> rfl)
  | distribution m _ _ _ hallowed =>
    obtain ⟨nodes, d, suffix, _, _, _, role, _, _, rfl, _⟩ := hallowed
    obtain hc | hc := hc <;> cases hc
    exact traced_nodePlan hplan hidentity (by cases role <;> rfl)
  | workload m w _ _ _ _ hallowed =>
    -- a chart resource that is replaced keeps what others have noted, under the new marks
    have hmarks := Naming.marks_chart hkeys ctx.plan ctx.plan.spec.releaseVersion
    obtain ⟨_, _, chart, _, hwrite⟩ := hallowed
    cases hwrite with
    | create =>
      obtain hc | hc := hc <;> cases hc
      exact traced_helmChart hplan hmarks rfl
    | replace existing =>
      obtain hc | hc := hc <;> cases hc
      exact traced_helmChart hplan (hmarks.union (Naming.ordered_chart ..) _) rfl

theorem mem_releaseManifest {m : ReleaseManifest} {plans : List UpgradePlan}
    (h : (ManifestPhase.resolve ctx).Yields t (.ok (some m))) (hplan : ctx.plan.Addressed)
    (hlocated : t.Located) (hmem : ctx.plan ∈ plans) :
    PlanRef.ofPlan ctx.plan ∈ releaseManifest m plans := by
  obtain ⟨manifests, hlisted, hfind⟩ := (ManifestPhase.resolved_of_yields h).2 _ rfl
  obtain ⟨ns, hns⟩ := Option.ne_none_iff_exists'.mp hplan.ns
  have hthere : m.metadata.ns = some (ManifestPhase.planNamespace ctx) :=
    hlocated .releaseManifest _ manifests hlisted m (List.mem_of_find?_eq_some hfind)
  have hfound := List.find?_some hfind
  have hversion : m.spec.releaseVersion = ctx.plan.spec.releaseVersion := of_decide_eq_true hfound
  refine List.mem_map.mpr ⟨ctx.plan, List.mem_filter.mpr ⟨hmem, ?_⟩, rfl⟩
  simp [hthere, hversion, ManifestPhase.planNamespace, Metadata.nsOr, hns]

/-- whatever a pass creates or replaces, its changes lead back to the plan, and so do those of the
manifest that the plan asks for.  The one exception is a chart resource outside the namespace of
chart resources: its job is taken for that of the resource of its name in that namespace -/
theorem traced_of_yields {r : Reconciliation} (h : (Controller.reconcile ctx suffix).Yields t r)
    (hkeys : ctx.settings.keys.Distinct) (hplan : ctx.plan.Addressed) :
    (∀ x ∈ t, ∀ (k : Kind) (o : k.Object), x.call = .create k o ∨ x.call = .replace k o →
      Traced ctx k o) ∧
    ∀ u m plans, (ManifestPhase.resolve ctx).Yields u (.ok (some m)) → u.Located →
      ctx.plan ∈ plans → PlanRef.ofPlan ctx.plan ∈ releaseManifest m plans := by
  refine ⟨fun x hx k o hc => ?_, fun u m plans hu hlocated hmem =>
    mem_releaseManifest hu hplan hlocated hmem⟩
  have hputs : x.call.puts = true := by obtain hc | hc := hc <;> rw [hc] <;> rfl
  cases hterm : ctx.plan.metadata.isTerminating with
  | true =>
    rw [Controller.unput_of_yields h hterm x hx] at hputs
    cases hputs
  | false =>
    obtain ⟨pre, post, rfl⟩ := List.append_of_mem hx
    have hlicensed := (Controller.guarded_of_yields h hterm).at (Call.writes_of_puts hputs)
    exact traced_of_licensed hkeys hplan hlicensed hc

end

end Watch

namespace OneNode

/-- the chart resource of the first workload, in some namespace -/
def chartIn (ns : String) : HelmChart where
  metadata := { name := some "metal3", ns := some ns }
  spec := { chart := "metal3", version := "0.7.0" }
  status := some { jobName := "helm-install-metal3" }

/-- the plan when its workloads begin -/
def workloadContext : Context := contextAt (planAt "4" nodesDone)

/-- the chart resource set to the chart of the release -/
def revisedIn (ns : String) : HelmChart :=
  Evaluation.revision workloadContext metal (chartIn ns) ""

/-- the job of the chart resource, at its end -/
def chartJobIn (ns : String) : Job where
  metadata := {
    name := some "helm-install-metal3"
    ns := some ns
    labels := some [("helmcharts.helm.cattle.io/chart", "metal3")] }
  status := some { conditions := some [{ type := "Complete", status := "True" }] }

theorem revise_yields (ns : String) : ∃ t r,
    (Controller.reconcile workloadContext "ffffffffff").Yields t r ∧
      .replaced .helmChart (revisedIn ns) ∈ t := by
  refine ⟨_, _, ⟨.ok [{ spec := release }], _, rfl, .ok [chartIn ns], _, rfl,
    .ok (some { name := "metal3", chartVersion := "0.7.0" }), _, rfl, .ok (), _, rfl, .ok (), _,
    rfl, rfl, rfl⟩, ?_⟩
  exact List.mem_cons_of_mem _ (List.mem_cons_of_mem _ (List.mem_cons_of_mem _ List.mem_cons_self))

theorem distinct_keys : workloadContext.settings.keys.Distinct := by
  unfold Keys.Distinct
  decide

theorem addressed : workloadContext.plan.Addressed := ⟨nofun, nofun⟩

theorem chartJob_runs (ns : String) : (revisedIn ns).Runs workloadContext (chartJobIn ns) :=
  ⟨rfl, rfl, rfl⟩

/-- a cluster with one chart resource -/
def storeWith (c : HelmChart) : Store := { helmCharts := [c] }

/-- the manifest of the release in the namespace of the plan -/
def releaseManifest : ReleaseManifest :=
  { metadata := { ns := some "lifecycle-system" }, spec := release }

theorem resolve_yields : (ManifestPhase.resolve workloadContext).Yields
    [.listed .releaseManifest (some "lifecycle-system") [releaseManifest]]
    (.ok (some releaseManifest)) :=
  ⟨.ok [releaseManifest], _, rfl, rfl, rfl⟩

theorem located :
    Trace.Located [.listed .releaseManifest (some "lifecycle-system") [releaseManifest]] := by
  intro k ns os hmem o ho
  cases List.mem_singleton.mp hmem
  rw [List.mem_singleton.mp ho]
  rfl

end OneNode

theorem Watch.traced_of_yields_oneNode :
    Watch.job {} ((OneNode.storeWith (OneNode.revisedIn "kube-system")).get? .helmChart)
        (OneNode.chartJobIn "kube-system") = some ⟨"upgrade", some "lifecycle-system"⟩ ∧
      ⟨"upgrade", some "lifecycle-system"⟩ ∈
        Watch.releaseManifest OneNode.releaseManifest [OneNode.workloadContext.plan] := by
  obtain ⟨t, r, h, hmem⟩ := OneNode.revise_yields "kube-system"
  obtain ⟨htraced, hmanifest⟩ :=
    Watch.traced_of_yields h OneNode.distinct_keys OneNode.addressed
  refine ⟨?_, hmanifest _ _ _ OneNode.resolve_yields OneNode.located List.mem_cons_self⟩
  exact htraced _ hmem .helmChart _ (.inr rfl) (OneNode.revisedIn "kube-system")
    (OneNode.storeWith (OneNode.revisedIn "kube-system")) (OneNode.chartJobIn "kube-system")
    ⟨rfl, rfl⟩ rfl (OneNode.chartJob_runs _)

/-- the job of a chart resource that is not in the namespace of chart resources ends, and no plan is
told -/
theorem Watch.wakeup_lost :
    ¬∀ (ctx : Context) (suffix : String) (t : Trace) (r : Reconciliation),
      (Controller.reconcile ctx suffix).Yields t r → ctx.settings.keys.Distinct →
      ctx.plan.Addressed → ∀ (c : HelmChart) (s : Store) (j : Job),
      (∃ x ∈ t, x.call = .create .helmChart c ∨ x.call = .replace .helmChart c) →
      s.under (Kind.key .helmChart c) = some c → c.Runs ctx j → j.outcome? ≠ none →
      Watch.job ctx.settings (s.get? .helmChart) j = some (PlanRef.ofPlan ctx.plan) := by
  intro hall
  obtain ⟨t, r, h, hmem⟩ := OneNode.revise_yields "metal3-system"
  have hdone : (OneNode.chartJobIn "metal3-system").outcome? ≠ none := by decide
  have hjob := hall OneNode.workloadContext _ t r h OneNode.distinct_keys OneNode.addressed
    (OneNode.revisedIn "metal3-system") (OneNode.storeWith (OneNode.revisedIn "metal3-system"))
    (OneNode.chartJobIn "metal3-system") ⟨_, hmem, .inr rfl⟩ rfl (OneNode.chartJob_runs _) hdone
  exact absurd hjob (by decide)

end ReleaseUpgrade
