import ReleaseUpgrade.Proofs.Json.RoundTrip
import ReleaseUpgrade.Release.Manifest

/-!
# Release manifests are read back

* `ReleaseChart.readsBack`   a chart with all the charts in it;
* `CoreComponent.readsBack`  a component, whose document tells of which type it is;
* `ReleaseSpec.readsBack`    the inventory of a release.
-/

namespace ReleaseUpgrade

namespace ReleaseChart

theorem listToJsons_eq (cs : List ReleaseChart) : listToJsons cs = cs.map toJson := by
  induction cs with
  | nil => rfl
  | cons c cs ih => rw [listToJsons, ih, List.map_cons]

theorem listToJson?_eq (cs : List ReleaseChart) :
    listToJson? cs = if cs.isEmpty then none else some (.arr (cs.map toJson)) := by
  cases cs with
  | nil => rfl
  | cons c cs =>
    rw [listToJson?, listToJsons_eq]
    rfl

/-- the fields of a chart as they are written -/
def written (c : ReleaseChart) : List (String × Option Json) := [
  ("releaseName", some (.str c.releaseName)),
  ("chart", some (.str c.name)),
  ("repository", if c.repository = "" then none else some (.str c.repository)),
  ("version", some (.str c.version)),
  ("prettyName", some (.str c.prettyName)),
  ("values", c.values),
  ("dependencyCharts",
    if c.dependencies.isEmpty then none else some (.arr (c.dependencies.map toJson))),
  ("addonCharts", if c.addons.isEmpty then none else some (.arr (c.addons.map toJson)))]

theorem toJson_eq (c : ReleaseChart) : c.toJson = .ofFields c.written := by
  obtain ⟨⟩ := c
  rw [toJson, listToJson?_eq, listToJson?_eq]
  rfl

/-- the chart that the fields of a record describe -/
def ofRecord? (r : Record) : Option ReleaseChart := do
  some {
    releaseName := ← r.required "releaseName" Json.str?
    name := ← r.required "chart" Json.str?
    repository := ← r.defaulted "repository" "" Json.str?
    version := ← r.required "version" Json.str?
    prettyName := ← r.required "prettyName" Json.str?
    values := ← r.optional "values" Json.value?
    dependencies := ← r.defaulted "dependencyCharts" [] (Json.list? ofJson?)
    addons := ← r.defaulted "addonCharts" [] (Json.list? ofJson?) }

theorem ofJson?_eq (j : Json) : ofJson? j = Record.open? fieldNames j >>= ofRecord? := by
  rw [ofJson?]
  split
  · rename_i h
    rw [h]
    rfl
  · rename_i r h
    rw [Record.nested_eq, Record.nested_eq, h]
    rfl

/-- the charts in a chart are smaller documents -/
theorem readsBack : Json.ReadsBack ofJson? toJson := by
  intro j
  induction hn : sizeOf j using Nat.strongRecOn generalizing j with
  | ind n ih =>
  intro c hc
  rw [ofJson?_eq] at hc
  obtain ⟨r, hopen, hc⟩ := Option.bind_eq_some_iff.mp hc
  have hcharts : ∀ name j', r.get? name = some j' →
      Json.ReadsBackFrom (Json.list? ofJson?) (fun cs => .arr (cs.map toJson)) j' :=
    fun name j' hj' => Json.readsBackFrom_list fun item hitem =>
      ih _ (hn ▸ Nat.lt_trans hitem (Record.sizeOf_get?_lt hopen hj')) item rfl
  have hnames : (c.written.map Prod.fst).Nodup := by
    show fieldNames.Nodup
    decide
  obtain ⟨r', hopen', hgives⟩ := Record.exists_open?_ofFields hnames fieldNames
  refine ⟨?_, fun hnull => ?_⟩
  · rw [ofJson?_eq, toJson_eq, hopen', Option.bind_eq_bind, Option.bind_some]
    simp only [ofRecord?, Option.bind_eq_bind, Option.bind_eq_some_iff] at hc ⊢
    obtain ⟨_, hrelease, _, hname, _, hrepository, _, hversion, _, hpretty, values, hvalues,
      _, hdependencies, _, haddons, heq⟩ := hc
    cases heq
    have hwritten : r'.get? "values" = values.map id := by
      rw [Option.map_id]
      exact hgives "values"
    exact ⟨_, Record.required_again Json.readsBack_str hrelease (hgives _),
      _, Record.required_again Json.readsBack_str hname (hgives _),
      _, Record.text_spared hrepository (hgives _),
      _, Record.required_again Json.readsBack_str hversion (hgives _),
      _, Record.required_again Json.readsBack_str hpretty (hgives _),
      _, Record.optional_again Json.readsBack_value hvalues hwritten,
      _, Record.defaulted_spared (hcharts _) List.isEmpty_iff hdependencies (hgives _),
      _, Record.defaulted_spared (hcharts _) List.isEmpty_iff haddons (hgives _), rfl⟩
  · rw [toJson_eq] at hnull
    cases hnull

end ReleaseChart

theorem Arch.readsBack : Json.ReadsBack ofJson? (fun a => .str a.long) :=
  Json.readsBack_choice fun a => by cases a <;> rfl

theorem CoreComponent.ofJson?_toJson (c : CoreComponent) : ofJson? c.toJson = some c := by
  cases c with
  | chart name version => rfl
  | deployment name containers =>
    have hcontainers : Json.list? ContainerImage.ofJson?
        (.arr (containers.map ContainerImage.toJson)) = some containers :=
      Json.list?_map fun _ _ => rfl
    have hitems : Json.readableItems (containers.map ContainerImage.toJson) = true :=
      Json.readableItems_iff.mpr (List.forall_mem_map.mpr fun _ _ => rfl)
    have hreadable : (toJson (.deployment name containers)).readable = true := by
      show (true && (true && (Json.readableItems _ && true))) = true
      rw [hitems]
      rfl
    have hfields : ofFields? "Deployment" (.obj [("name", .str name),
        ("containers", .arr (containers.map ContainerImage.toJson))]) =
          some (.deployment name containers) := by
      show (Json.list? ContainerImage.ofJson?
        (.arr (containers.map ContainerImage.toJson)) >>= fun cs => some (deployment name cs)) = _
      rw [hcontainers]
      rfl
    exact (if_pos hreadable).trans hfields

theorem CoreComponent.readsBack : Json.ReadsBack ofJson? toJson :=
  Json.readsBack_of_notNull (fun c => by cases c <;> rfl) fun _ c _ => ofJson?_toJson c

theorem DistributionTarget.readsBack : Json.ReadsBack ofJson? toJson := by
  refine Record.readsBack (by decide) (fun _ => rfl) fun r r' t h hgives => ?_
  simp only [Option.bind_eq_bind, Option.bind_eq_some_iff] at h ⊢
  obtain ⟨_, hversion, _, hcomponents, heq⟩ := h
  cases heq
  exact ⟨_, Record.required_again Json.readsBack_str hversion (hgives _),
    _, Record.list_spared CoreComponent.readsBack hcomponents (hgives _), rfl⟩

theorem KubernetesTargets.readsBack : Json.ReadsBack ofJson? toJson := by
  refine Record.readsBack_full (by decide) (fun _ => rfl) fun r r' k h hgives => ?_
  simp only [Option.bind_eq_bind, Option.bind_eq_some_iff] at h ⊢
  obtain ⟨_, hk3s, _, hrke2, heq⟩ := h
  cases heq
  exact ⟨_, Record.required_again DistributionTarget.readsBack hk3s (hgives _),
    _, Record.required_again DistributionTarget.readsBack hrke2 (hgives _), rfl⟩

theorem OperatingSystem.readsBack : Json.ReadsBack ofJson? toJson := by
  refine Record.readsBack_full (by decide) (fun _ => rfl) fun r r' os h hgives => ?_
  simp only [Option.bind_eq_bind, Option.bind_eq_some_iff] at h ⊢
  obtain ⟨_, hversion, _, hzypper, _, hcpe, _, hgpg, archs, harchs, _, hpretty, heq⟩ := h
  cases heq
  have hwritten : r'.get? "supportedArchs" = some (.arr (archs.map fun a => .str a.long)) := by
    have hget : r'.get? "supportedArchs" = some (.arr ((archs.map Arch.long).map .str)) := hgives _
    rw [hget, List.map_map]
    rfl
  exact ⟨_, Record.required_again Json.readsBack_str hversion (hgives _),
    _, Record.required_again Json.readsBack_str hzypper (hgives _),
    _, Record.required_again Json.readsBack_str hcpe (hgives _),
    _, Record.required_again Json.readsBack_str hgpg (hgives _),
    _, Record.required_again Arch.readsBack.list harchs hwritten,
    _, Record.required_again Json.readsBack_str hpretty (hgives _), rfl⟩

namespace Components

theorem readsBack_workloads : Json.ReadsBack workloads?
    (fun cs => .obj [("helm", .arr (cs.map ReleaseChart.toJson))]) := by
  refine Record.readsBack_full (by decide) (fun _ => rfl) fun r r' cs h hgives => ?_
  exact Record.defaulted_again ReleaseChart.readsBack.list rfl h (hgives _)

theorem readsBack : Json.ReadsBack ofJson? toJson := by
  refine Record.readsBack_full (by decide) (fun _ => rfl) fun r r' c h hgives => ?_
  simp only [Option.bind_eq_bind, Option.bind_eq_some_iff] at h ⊢
  obtain ⟨_, hkubernetes, _, hsystem, _, hworkloads, heq⟩ := h
  cases heq
  exact ⟨_, Record.required_again KubernetesTargets.readsBack hkubernetes (hgives _),
    _, Record.required_again OperatingSystem.readsBack hsystem (hgives _),
    _, Record.defaulted_again readsBack_workloads rfl hworkloads (hgives _), rfl⟩

end Components

theorem ReleaseSpec.readsBack : Json.ReadsBack ofJson? toJson := by
  refine Record.readsBack_full (by decide) (fun _ => rfl) fun r r' s h hgives => ?_
  simp only [Option.bind_eq_bind, Option.bind_eq_some_iff] at h ⊢
  obtain ⟨_, hrelease, _, hcomponents, heq⟩ := h
  cases heq
  exact ⟨_, Record.required_again Json.readsBack_str hrelease (hgives _),
    _, Record.defaulted_again Components.readsBack rfl hcomponents (hgives _), rfl⟩

end ReleaseUpgrade
