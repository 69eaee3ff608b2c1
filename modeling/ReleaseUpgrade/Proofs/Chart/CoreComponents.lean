import ReleaseUpgrade.Chart.CoreComponents
import ReleaseUpgrade.Proofs.Cluster.Writes

/-!
# Core components that have followed

* `CoreComponent.Settled`      what a trace has to show so that nothing is left to do for a component;
* `settled_of_pending`         it shows this of all components if none of them is pending.
-/

namespace ReleaseUpgrade

namespace CoreComponent

/-- the trace shows that the component is not there, or that it runs its version: the job of its
chart resource is complete and its release has the version, or its deployment is available and runs
the images -/
def Settled (settings : Settings) (t : Trace) : CoreComponent → Prop
  | .chart name version =>
    .got .helmChart settings.chartNamespace name none ∈ t ∨
      ∃ resource : HelmChart, ∃ jobName, ∃ job : Job, ∃ release,
        .got .helmChart settings.chartNamespace name (some resource) ∈ t ∧
          resource.jobName? = some jobName ∧
          .got .job settings.chartNamespace jobName (some job) ∈ t ∧
          job.outcome? = some .complete ∧
          .found name (some release) ∈ t ∧ release.chartVersion = version
  | .deployment name containers =>
    .got .deployment settings.chartNamespace name none ∈ t ∨
      ∃ d : Deployment, .got .deployment settings.chartNamespace name (some d) ∈ t ∧
        d.isAvailable = true ∧ ∀ want ∈ containers, ∃ c ∈ d.containers, c.name = want.name ∧
          ∃ image, c.image = some image ∧ Text.occursIn want.image image = true

section
variable {settings : Settings} {t : Trace}

theorem Settled.mono {c : CoreComponent} {u : Trace} (h : c.Settled settings t)
    (hsub : ∀ x ∈ t, x ∈ u) : c.Settled settings u := by
  cases c with
  | chart name version =>
    obtain h | ⟨resource, jobName, job, release, hr, hname, hj, hdone, hl, hv⟩ := h
    · exact .inl (hsub _ h)
    · exact .inr ⟨resource, jobName, job, release, hsub _ hr, hname, hsub _ hj, hdone, hsub _ hl,
        hv⟩
  | deployment name containers =>
    obtain h | ⟨d, hd, h⟩ := h
    · exact .inl (hsub _ h)
    · exact .inr ⟨d, hsub _ hd, h⟩

theorem hasContainer_eq_true {d : Deployment} {want : ContainerImage}
    (h : d.hasContainer want = true) : ∃ c ∈ d.containers, c.name = want.name ∧
      ∃ image, c.image = some image ∧ Text.occursIn want.image image = true := by
  unfold Deployment.hasContainer at h
  split at h
  · rename_i c hc
    have hname : c.name = want.name := by simpa using List.find?_some hc
    exact ⟨c, List.mem_of_find?_eq_some hc, hname, Option.any_eq_true _ _ |>.mp h⟩
  · cases h

theorem settled_of_chartUpgraded {name version : String} {r : Except UpgradeError (Option Bool)}
    (h : (chartUpgraded settings name version).Yields t r) :
    t.Quiet ∧ ∀ o, r = .ok o → o ≠ some false → (chart name version).Settled settings t := by
  obtain ⟨e, rfl, rfl⟩ | ⟨found, u, rfl, hrest⟩ := (Action.yields_bind_get ..).mp h
  · exact ⟨Trace.quiet_single rfl, nofun⟩
  have hfirst (found : Option HelmChart) :
      Trace.Quiet [.got .helmChart settings.chartNamespace name found] := Trace.quiet_single rfl
  cases found with
  | none =>
    obtain ⟨rfl, rfl⟩ := (Action.yields_pure ..).mp hrest
    exact ⟨hfirst none, fun _ _ _ => .inl List.mem_cons_self⟩
  | some resource =>
    cases hname : HelmChart.jobName? resource with
    | none =>
      simp only [hname] at hrest
      obtain ⟨rfl, rfl⟩ := (Action.yields_pure ..).mp hrest
      exact ⟨hfirst _, fun o ho hne => absurd (Except.ok.inj ho).symm hne⟩
    | some jobName =>
      simp only [hname] at hrest
      obtain ⟨e, rfl, rfl⟩ | ⟨job?, v, rfl, hlast⟩ := (Action.yields_bind_get ..).mp hrest
      · exact ⟨(Trace.quiet_cons _ _).mpr ⟨rfl, Trace.quiet_single rfl⟩, nofun⟩
      have hboth (u : Trace) (hu : u.Quiet) (job? : Option Job) :
          Trace.Quiet (.got .helmChart settings.chartNamespace name (some resource) ::
            .got .job settings.chartNamespace jobName job? :: u) :=
        (Trace.quiet_cons _ _).mpr ⟨rfl, (Trace.quiet_cons _ _).mpr ⟨rfl, hu⟩⟩
      cases job? with
      | none =>
        obtain ⟨rfl, rfl⟩ := (Action.yields_pure ..).mp hlast
        exact ⟨hboth [] Trace.quiet_nil _, fun o ho hne => absurd (Except.ok.inj ho).symm hne⟩
      | some job =>
        dsimp only at hlast
        split at hlast
        · rename_i hdone
          obtain ⟨e, hl, rfl⟩ | ⟨release?, _, _, rfl, hl, hend⟩ := (Action.yields_bind ..).mp hlast
          · obtain rfl := (Action.yields_latestRelease ..).mp hl
            exact ⟨hboth [_] (Trace.quiet_single rfl) _, nofun⟩
          obtain rfl := (Action.yields_latestRelease ..).mp hl
          obtain ⟨rfl, rfl⟩ := (Action.yields_pure ..).mp hend
          refine ⟨hboth [_] (Trace.quiet_single rfl) _, fun o ho hne => ?_⟩
          cases ho
          rw [ne_eq, Option.some.injEq, Bool.not_eq_false, Option.any_eq_true] at hne
          obtain ⟨release, rfl, hv⟩ := hne
          exact .inr ⟨resource, jobName, job, release, List.mem_cons_self, hname,
            List.mem_cons_of_mem _ List.mem_cons_self, hdone,
            List.mem_cons_of_mem _ (List.mem_cons_of_mem _ List.mem_cons_self),
            of_decide_eq_true hv⟩
        · obtain ⟨rfl, rfl⟩ := (Action.yields_pure ..).mp hlast
          exact ⟨hboth [] Trace.quiet_nil _, fun o ho hne => absurd (Except.ok.inj ho).symm hne⟩

theorem settled_of_deploymentUpgraded {name : String} {containers : List ContainerImage}
    {r : Except UpgradeError (Option Bool)}
    (h : (deploymentUpgraded settings name containers).Yields t r) :
    t.Quiet ∧ ∀ o, r = .ok o → o ≠ some false →
      (deployment name containers).Settled settings t := by
  obtain ⟨e, rfl, rfl⟩ | ⟨found, u, rfl, hrest⟩ := (Action.yields_bind_get ..).mp h
  · exact ⟨Trace.quiet_single rfl, nofun⟩
  cases found with
  | none =>
    obtain ⟨rfl, rfl⟩ := (Action.yields_pure ..).mp hrest
    exact ⟨Trace.quiet_single rfl, fun _ _ _ => .inl List.mem_cons_self⟩
  | some d =>
    obtain ⟨rfl, rfl⟩ := (Action.yields_pure ..).mp hrest
    refine ⟨Trace.quiet_single rfl, ?_⟩
    intro o ho hne
    cases ho
    rw [ne_eq, Option.some.injEq, Bool.not_eq_false, Bool.and_eq_true, List.all_eq_true] at hne
    exact .inr ⟨d, List.mem_cons_self, hne.1, fun want hw => hasContainer_eq_true (hne.2 want hw)⟩

theorem settled_of_upgraded {c : CoreComponent} {r : Except UpgradeError (Option Bool)}
    (h : (upgraded settings c).Yields t r) :
    t.Quiet ∧ ∀ o, r = .ok o → o ≠ some false → c.Settled settings t := by
  cases c with
  | chart name version => exact settled_of_chartUpgraded h
  | deployment name containers => exact settled_of_deploymentUpgraded h

/-- looking at the components writes nothing; if none of them is pending, all are settled -/
theorem settled_of_pending {cs : List CoreComponent} {r : Except UpgradeError (Option String)}
    (h : (pending settings cs).Yields t r) :
    t.Quiet ∧ (r = .ok none → ∀ c ∈ cs, c.Settled settings t) := by
  induction cs generalizing t with
  | nil =>
    obtain ⟨rfl, _⟩ := (Action.yields_pure ..).mp h
    exact ⟨Trace.quiet_nil, fun _ => nofun⟩
  | cons c rest ih =>
    obtain ⟨e, hc, rfl⟩ | ⟨o, u, v, rfl, hc, hrest⟩ := (Action.yields_bind ..).mp h
    · exact ⟨(settled_of_upgraded hc).1, nofun⟩
    obtain ⟨hquiet, hsettled⟩ := settled_of_upgraded hc
    split at hrest
    · obtain ⟨rfl, rfl⟩ := (Action.yields_pure ..).mp hrest
      rw [List.append_nil]
      exact ⟨hquiet, nofun⟩
    · rename_i hne
      obtain ⟨hv, hall⟩ := ih hrest
      refine ⟨(Trace.quiet_append u v).mpr ⟨hquiet, hv⟩, fun hr c' hmem => ?_⟩
      obtain rfl | hmem := List.mem_cons.mp hmem
      · exact (hsettled o rfl hne).mono fun x hx => List.mem_append_left v hx
      · exact (hall hr c' hmem).mono fun x hx => List.mem_append_right u hx

end

end CoreComponent

end ReleaseUpgrade
