import ReleaseUpgrade.Proofs.Json.RoundTrip
import ReleaseUpgrade.Proofs.Upgrade.Document

/-!
# Upgrade plans are read back

* `UpgradeSpec.readsBack`  what a plan asks for;
* `Status.readsBack`       what it records.
-/

namespace ReleaseUpgrade

theorem DisableDrain.readsBack : Json.ReadsBack ofJson? toJson := by
  refine Record.readsBack (by decide) (fun _ => rfl) fun r r' d h hgives => ?_
  simp only [Option.bind_eq_bind, Option.bind_eq_some_iff] at h ⊢
  obtain ⟨_, hcontrolPlane, _, hworker, heq⟩ := h
  cases heq
  exact ⟨_, Record.optional_again Json.readsBack_bool hcontrolPlane (hgives _),
    _, Record.optional_again Json.readsBack_bool hworker (hgives _), rfl⟩

theorem ChartOverride.readsBack : Json.ReadsBack ofJson? toJson := by
  refine Record.readsBack (by decide) (fun _ => rfl) fun r r' o h hgives => ?_
  simp only [Option.bind_eq_bind, Option.bind_eq_some_iff] at h ⊢
  obtain ⟨_, hchart, values, hvalues, heq⟩ := h
  cases heq
  have hwritten : r'.get? "values" = values.map id := by
    rw [Option.map_id]
    exact hgives "values"
  exact ⟨_, Record.required_again Json.readsBack_str hchart (hgives _),
    _, Record.optional_again Json.readsBack_value hvalues hwritten, rfl⟩

theorem UpgradeSpec.readsBack : Json.ReadsBack ofJson? toJson := by
  refine Record.readsBack (by decide) (fun _ => rfl) fun r r' s h hgives => ?_
  simp only [Option.bind_eq_bind, Option.bind_eq_some_iff] at h ⊢
  obtain ⟨_, hrelease, _, hdrain, _, hhelm, heq⟩ := h
  cases heq
  exact ⟨_, Record.required_again Json.readsBack_str hrelease (hgives _),
    _, Record.optional_again DisableDrain.readsBack hdrain (hgives _),
    _, Record.list_spared ChartOverride.readsBack hhelm (hgives _), rfl⟩

theorem Condition.readsBack : Json.ReadsBack ofJson? toJson :=
  Json.readsBack_of_notNull (fun _ => rfl) fun _ _ h => ofJson?_toJson (sound_of_ofJson? h)

theorem Status.readsBack : Json.ReadsBack ofJson? toJson := by
  refine Record.readsBack (by decide) (fun _ => rfl) fun r r' s h hgives => ?_
  simp only [Option.bind_eq_bind, Option.bind_eq_some_iff] at h ⊢
  obtain ⟨_, hconditions, _, hgeneration, _, hsuffix, _, hrelease, heq⟩ := h
  cases heq
  exact ⟨_, Record.list_spared Condition.readsBack hconditions (hgives _),
    _, Record.defaulted_again Json.readsBack_int64 rfl hgeneration (hgives _),
    _, Record.optional_again Json.readsBack_str hsuffix (hgives _),
    _, Record.optional_again Json.readsBack_str hrelease (hgives _), rfl⟩

end ReleaseUpgrade
