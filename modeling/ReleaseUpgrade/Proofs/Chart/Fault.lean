import ReleaseUpgrade.Proofs.Chart.Course

/-!
# Why an evaluation fails

An evaluation ends with an error for one of four reasons, and the calls that it has made show which.

* `Values.error_of_layered`    values that cannot be put together have errors of their own;
* `Evaluation.backing`         the chart resources of a release; several of them are an error;
* `Evaluation.Fault`           the reasons, `fault_of_yields`.
-/

namespace ReleaseUpgrade

/-- the call tells users something -/
def Call.isEvent : Call → Bool
  | .publishEvent .. => true
  | _ => false

namespace Values

theorem error_of_layer {name : String} {j : Option Json} {e : UpgradeError}
    (h : layer name j = .error e) : ∃ detail, e = .chartValues detail := by
  unfold layer at h
  split at h <;> cases h
  exact ⟨_, rfl⟩

theorem error_of_installed {base : BaseValues} {e : UpgradeError} (h : installed base = .error e) :
    e = .yaml ∨ ∃ detail, e = .chartValues detail := by
  cases base with
  | config values => cases h
  | yaml text =>
    simp only [installed] at h
    split at h
    · cases h
    split at h
    · cases h
      exact .inl rfl
    · exact .inr (error_of_layer h)

/-- values that cannot be put together are no YAML, or one layer of them is no object -/
theorem error_of_layered {base : BaseValues} {release user : Option Json} {e : UpgradeError}
    (h : layered base release user = .error e) : e = .yaml ∨ ∃ detail, e = .chartValues detail := by
  unfold layered at h
  cases hbase : installed base with
  | error =>
    rw [hbase] at h
    cases h
    exact error_of_installed hbase
  | ok =>
  cases hrelease : layer "release" release with
  | error =>
    rw [hbase, hrelease] at h
    cases h
    exact .inr (error_of_layer hrelease)
  | ok =>
  cases huser : layer "user" user with
  | error =>
    rw [hbase, hrelease, huser] at h
    cases h
    exact .inr (error_of_layer huser)
  | ok =>
    rw [hbase, hrelease, huser] at h
    simp only [Except.bind, bind] at h
    split at h <;> cases h

end Values

namespace Evaluation

section
variable (ctx : Context) (resources : List HelmChart) (chart : ReleaseChart)

/-- the chart resources of the release of a chart -/
def backing : List HelmChart := resources.filter fun c => c.metadata.nameAny = chart.releaseName

/-- why an evaluation with these calls ends with an error -/
inductive Fault (t : Trace) : UpgradeError → Prop
  /-- a call has failed; the events do not count -/
  | refused (x e) : x ∈ t → x.answer = .error e → x.call.isEvent = false → Fault t e
  | several (installed) : .found chart.releaseName (some installed) ∈ t →
      2 ≤ (backing resources chart).length → Fault t (.multipleHelmCharts chart.releaseName)
  | config (installed e) : .found chart.releaseName (some installed) ∈ t →
      resource? chart.releaseName resources = .ok none → installed.chartVersion ≠ chart.version →
      values ctx chart (.config installed.config) = .error e → Fault t e
  | content (installed existing e) : .found chart.releaseName (some installed) ∈ t →
      resource? chart.releaseName resources = .ok (some existing) →
      existing.spec.version ≠ chart.version →
      values ctx chart (.yaml existing.spec.valuesContent) = .error e → Fault t e

end

section
variable {ctx : Context} {resources : List HelmChart} {chart : ReleaseChart} {t : Trace}
  {r : Except UpgradeError ChartState} {e : UpgradeError}

theorem values_ne_multiple {base : BaseValues} {release : String} :
    values ctx chart base ≠ .error (.multipleHelmCharts release) := by
  intro h
  obtain he | ⟨_, he⟩ := Values.error_of_layered h <;> cases he

/-- several chart resources are an error, and the only one -/
theorem resource?_eq_error :
    resource? chart.releaseName resources = .error e ↔
      e = .multipleHelmCharts chart.releaseName ∧ 2 ≤ (backing resources chart).length := by
  unfold resource? backing
  split
  · rename_i hnil
    rw [hnil]
    exact ⟨nofun, fun h => absurd h.2 (Nat.not_le_of_lt Nat.two_pos)⟩
  · rename_i hone
    rw [hone]
    exact ⟨nofun, fun h => absurd h.2 (Nat.not_le_of_lt Nat.one_lt_two)⟩
  · rename_i hnil hone
    generalize resources.filter (fun c => c.metadata.nameAny = chart.releaseName) = cs at hnil hone
    have htwo : 2 ≤ cs.length := by
      match cs, hnil, hone with
      | [], hnil, _ => exact absurd rfl hnil
      | [c], _, hone => exact absurd rfl (hone c)
      | _ :: _ :: rest, _, _ => exact Nat.le_add_left 2 rest.length
    exact ⟨fun h => ⟨(Except.error.inj h).symm, htwo⟩, fun h => by rw [h.1]⟩

/-- the calls of an evaluation show why it fails -/
theorem fault_of_yields (h : (state ctx resources chart).Yields t (.error e)) :
    Fault ctx resources chart t e := by
  cases course_of_yields h with
  | unanswered => exact .refused _ e List.mem_cons_self rfl rfl
  | ambiguous installed _ hseveral =>
    obtain ⟨rfl, htwo⟩ := resource?_eq_error.mp hseveral
    exact .several installed List.mem_cons_self htwo
  | adopted installed hnone ha =>
    cases ha with
    | unreadable _ hv hvalues => exact .config installed e List.mem_cons_self hnone hv hvalues
    | refused => exact .refused _ e (List.mem_cons_of_mem _ List.mem_cons_self) rfl rfl
  | updated installed existing hsome hv hu =>
    cases hu with
    | unreadable _ hvalues =>
      exact .content installed existing e List.mem_cons_self hsome hv hvalues
    | refused => exact .refused _ e (List.mem_cons_of_mem _ List.mem_cons_self) rfl rfl
  | followed _ _ _ _ _ hf =>
    cases hf with
    | unanswered => exact .refused _ e (List.mem_cons_of_mem _ List.mem_cons_self) rfl rfl

/-- a chart that is installed and has several chart resources is found out as such -/
theorem several_of_found {installed : HelmRelease} (h : (state ctx resources chart).Yields t r)
    (hfound : .found chart.releaseName (some installed) ∈ t)
    (htwo : 2 ≤ (backing resources chart).length) :
    r = .error (.multipleHelmCharts chart.releaseName) := by
  have hseveral := resource?_eq_error.mpr ⟨rfl, htwo⟩
  cases course_of_yields h with
  | unanswered | absent => cases List.mem_singleton.mp hfound
  | ambiguous _ e he =>
    rw [hseveral] at he
    cases he
    rfl
  | adopted _ he | updated _ _ he | foreign _ _ he | followed _ _ he =>
    rw [hseveral] at he
    cases he

/-- several chart resources are found out only where they are, unless the cluster answers so -/
theorem several_of_genuine {release : String}
    (h : (state ctx resources chart).Yields t (.error (.multipleHelmCharts release)))
    (hgen : t.Genuine) :
    release = chart.releaseName ∧ 2 ≤ (backing resources chart).length := by
  cases fault_of_yields h with
  | refused x _ hx he => exact absurd he (hgen x hx release)
  | several _ _ htwo => exact ⟨rfl, htwo⟩
  | config _ _ _ _ _ he => exact absurd he values_ne_multiple
  | content _ _ _ _ _ _ he => exact absurd he values_ne_multiple

end

end Evaluation

end ReleaseUpgrade
