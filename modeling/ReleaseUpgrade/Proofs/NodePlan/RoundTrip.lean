import ReleaseUpgrade.NodePlan.Basic
import ReleaseUpgrade.Proofs.Object.Selector

/-!
# Node plans are read back

* `NodePlanSpec.readsBack`    what a node plan asks for;
* `NodePlanStatus.readsBack`  what its controller reports.
-/

namespace ReleaseUpgrade

theorem SecretMount.readsBack : Json.ReadsBack ofJson? toJson := by
  refine Record.readsBack_full (by decide) (fun _ => rfl) fun r r' s h hgives => ?_
  simp only [Option.bind_eq_bind, Option.bind_eq_some_iff] at h ⊢
  obtain ⟨_, hname, _, hpath, heq⟩ := h
  cases heq
  exact ⟨_, Record.required_again Json.readsBack_str hname (hgives _),
    _, Record.required_again Json.readsBack_str hpath (hgives _), rfl⟩

theorem StepContainer.readsBack : Json.ReadsBack ofJson? toJson := by
  refine Record.readsBack (by decide) (fun _ => rfl) fun r r' c h hgives => ?_
  simp only [Option.bind_eq_bind, Option.bind_eq_some_iff] at h ⊢
  obtain ⟨_, himage, _, hcommand, _, hargs, heq⟩ := h
  cases heq
  exact ⟨_, Record.required_again Json.readsBack_str himage (hgives _),
    _, Record.list_spared Json.readsBack_str hcommand (hgives _),
    _, Record.list_spared Json.readsBack_str hargs (hgives _), rfl⟩

theorem DrainSpec.readsBack : Json.ReadsBack ofJson? toJson := by
  refine Record.readsBack (by decide) (fun _ => rfl) fun r r' d h hgives => ?_
  simp only [Option.bind_eq_bind, Option.bind_eq_some_iff] at h ⊢
  obtain ⟨_, htimeout, _, hempty, _, hdaemon, _, hforce, heq⟩ := h
  cases heq
  exact ⟨_, Record.optional_again Json.readsBack_int64 htimeout (hgives _),
    _, Record.optional_again Json.readsBack_bool hempty (hgives _),
    _, Record.optional_again Json.readsBack_bool hdaemon (hgives _),
    _, Record.defaulted_again Json.readsBack_bool rfl hforce (hgives _), rfl⟩

theorem NodePlanSpec.readsBack : Json.ReadsBack ofJson? toJson := by
  refine Record.readsBack (by decide) (fun _ => rfl) fun r r' s h hgives => ?_
  simp only [Option.bind_eq_bind, Option.bind_eq_some_iff] at h ⊢
  obtain ⟨_, hconcurrency, _, hselector, _, haccount, _, hversion, _, hsecrets, _, htolerations,
    _, hcordon, _, hdrain, _, hprepare, _, hupgrade, heq⟩ := h
  cases heq
  exact ⟨_, Record.defaulted_again Json.readsBack_int64 rfl hconcurrency (hgives _),
    _, Record.optional_again LabelSelector.readsBack hselector (hgives _),
    _, Record.text_spared haccount (hgives _),
    _, Record.optional_again Json.readsBack_str hversion (hgives _),
    _, Record.list_spared SecretMount.readsBack hsecrets (hgives _),
    _, Record.list_spared Toleration.readsBack htolerations (hgives _),
    _, Record.defaulted_again Json.readsBack_bool rfl hcordon (hgives _),
    _, Record.optional_again DrainSpec.readsBack hdrain (hgives _),
    _, Record.optional_again StepContainer.readsBack hprepare (hgives _),
    _, Record.optional_again StepContainer.readsBack hupgrade (hgives _), rfl⟩

theorem NodePlanStatus.readsBack : Json.ReadsBack ofJson? toJson := by
  refine Record.readsBack_full (by decide) (fun _ => rfl) fun r r' s h hgives => ?_
  simp only [Option.bind_eq_bind, Option.bind_eq_some_iff] at h ⊢
  obtain ⟨_, happlying, heq⟩ := h
  cases heq
  exact ⟨_, Record.defaulted_again Json.readsBack_strings rfl happlying (hgives _), rfl⟩

end ReleaseUpgrade
