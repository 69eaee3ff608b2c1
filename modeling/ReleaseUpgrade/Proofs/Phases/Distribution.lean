import ReleaseUpgrade.Phases.Distribution
import ReleaseUpgrade.Proofs.Chart.CoreComponents
import ReleaseUpgrade.Proofs.Phases.Tier

/-!
# The course of the Kubernetes distribution

* `Course`           the traces of a step: it cannot begin, or the nodes of some role have not
                     arrived, or the core components are looked at;
* `Allowed`          what a step writes and when, `Course.guarded`;
* `Course.brief`     it writes at most once.
-/

namespace ReleaseUpgrade.DistributionPhase

section
variable (ctx : Context) (targets : KubernetesTargets)

/-- the distribution of the nodes and the suffix of the attempt that the status names -/
structure Known (before : Status) (nodes : List Node) (d : Distribution) (suffix : String) :
    Prop where
  detected : Distribution.detect nodes = .ok d
  named : before.namingSuffix = some suffix

/-- the roles with the target of a distribution -/
abbrev spec (d : Distribution) (nodes : List Node) (suffix : String) : Tier.Spec :=
  tiers ctx d (d.target targets) nodes suffix

/-- the traces of a step -/
inductive Course (before : Status) : Trace → Except UpgradeError Requeue → Status → Prop
  | unable {t e} : t.Quiet → Course before t (.error e) before
  | waiting (nodes d suffix) {t p r after} : Known before nodes d suffix →
      Tier.Waiting (spec ctx targets d nodes suffix) ctx (Tier.roles ctx nodes) before t p after →
      ((∃ e, r = .error e) ∨ ∃ q, p = .ok q) → Course before (.listed .node none nodes :: t) r after
  | following (nodes d suffix) {t u : Trace} {r after} : Known before nodes d suffix → t.Quiet →
      u.Quiet → Status.Held ctx.now Status.kubernetesUpgraded before after →
      (∀ q, r = .ok q → after.isSucceeded Status.kubernetesUpgraded = false) →
      Course before (.listed .node none nodes :: (t ++ u)) r after
  | done (nodes d suffix) (message : String) {t u : Trace} : Known before nodes d suffix → t.Quiet →
      (∀ role ∈ Tier.roles ctx nodes, Tier.Arrived (spec ctx targets d nodes suffix) role t) →
      u.Quiet → (∀ c ∈ (d.target targets).coreComponents, c.Settled ctx.settings u) →
      Course before (.listed .node none nodes :: (t ++ u)) (.ok .immediately)
        (before.setCondition ctx.now Status.kubernetesUpgraded .succeeded message)

end

section
variable {ctx : Context} {targets : KubernetesTargets} {before after : Status} {t : Trace}
  {r : Except UpgradeError Requeue}

/-- the node plans of the roles go by the names of the attempt -/
theorem looked_spec (d : Distribution) (nodes : List Node) (suffix : String) (role : NodeRole)
    (plan? : Option NodePlan) :
    Tier.looked (spec ctx targets d nodes suffix) role plan? =
      .got .nodePlan ctx.settings.upgradeNamespace
        (Naming.kubernetesPlan role (d.target targets).version suffix) plan? := by
  cases role <;> rfl

/-- the core components are looked at: all of them are settled and the condition is true, or it is
not -/
theorem followCore_of_yields {target : DistributionTarget}
    (h : (followCore ctx target).Yields before t r after) :
    t.Quiet ∧
      ((Status.Held ctx.now Status.kubernetesUpgraded before after ∧
          ∀ q, r = .ok q → after.isSucceeded Status.kubernetesUpgraded = false) ∨
        (∀ c ∈ target.coreComponents, c.Settled ctx.settings t) ∧ r = .ok .immediately ∧
          ∃ message, after =
            before.setCondition ctx.now Status.kubernetesUpgraded .succeeded message) := by
  obtain ⟨e, hlook, rfl, rfl⟩ | ⟨name?, u, _, rfl, hlook, hrest⟩ :=
    (Step.yields_bind_lift ..).mp h
  · refine ⟨(CoreComponent.settled_of_pending hlook).1, .inl ⟨.inl rfl, fun q he => ?_⟩⟩
    cases he
  obtain ⟨hquiet, hsettled⟩ := CoreComponent.settled_of_pending hlook
  cases name? with
  | some name =>
    have hrest := (Context.yields_bind_setCondition ..).mp hrest
    obtain ⟨rfl, rfl, rfl⟩ := (Step.yields_pure ..).mp hrest
    rw [List.append_nil]
    have hne : Reason.inProgress.status ≠ .isTrue := by decide
    refine ⟨hquiet, .inl ⟨.inr ⟨.inProgress, _, hne, rfl⟩, fun _ _ => ?_⟩⟩
    refine Bool.eq_false_iff.mpr fun hs => ?_
    exact hne ((Status.isSucceeded_setCondition ..).mp hs)
  | none =>
    have hrest := (Context.yields_bind_setCondition ..).mp hrest
    obtain ⟨rfl, rfl, rfl⟩ := (Step.yields_pure ..).mp hrest
    rw [List.append_nil]
    exact ⟨hquiet, .inr ⟨hsettled rfl, rfl, _, rfl⟩⟩

theorem course_of_yields (h : (step ctx targets).Yields before t r after) :
    Course ctx targets before t r after := by
  obtain ⟨e, rfl, rfl, rfl⟩ | ⟨nodes, u, rfl, hrest⟩ := (Step.yields_bind_list ..).mp h
  · exact .unable (Trace.quiet_single rfl)
  obtain ⟨e, _, rfl, rfl, rfl⟩ | ⟨d, hdetect, hrest⟩ := (Step.yields_bind_ofExcept ..).mp hrest
  · exact .unable (Trace.quiet_single rfl)
  have hnext := (Step.yields_bind_status ..).mp hrest
  obtain ⟨e, _, rfl, rfl, rfl⟩ | ⟨suffix, hs, hnext⟩ := (Step.yields_bind_ofExcept ..).mp hnext
  · exact .unable (Trace.quiet_single rfl)
  have hknown : Known before nodes d suffix := ⟨hdetect, Context.namingSuffix_eq_ok hs⟩
  obtain ⟨e, hdrive, rfl⟩ | ⟨progress, _, u, v, rfl, hdrive, hlast⟩ :=
    (Step.yields_bind ..).mp hnext
  · obtain ⟨_, _, he, _⟩ | hw := Tier.driveAll_of_yields hdrive
    · cases he
    · exact .waiting nodes d suffix hknown hw (.inl ⟨e, rfl⟩)
  cases progress with
  | waiting requeue =>
    obtain ⟨rfl, rfl, rfl⟩ := (Step.yields_pure ..).mp hlast
    obtain ⟨_, _, he, _⟩ | hw := Tier.driveAll_of_yields hdrive
    · cases he
    · rw [List.append_nil]
      exact .waiting nodes d suffix hknown hw (.inr ⟨_, rfl⟩)
  | upgraded =>
    obtain ⟨hquiet, harrived, _, rfl⟩ | hw := Tier.driveAll_of_yields hdrive
    case inr => exact absurd rfl hw.ne
    obtain ⟨hv, ⟨hheld, hopen⟩ | ⟨hsettled, rfl, message, rfl⟩⟩ := followCore_of_yields hlast
    · exact .following (t := u) nodes d suffix hknown hquiet hv hheld hopen
    · exact .done (t := u) nodes d suffix message hknown hquiet harrived hv hsettled

/-- what a step may create after what went before: the node plans of the roles -/
def Allowed (ctx : Context) (targets : KubernetesTargets) (before : Status) (past : Trace)
    (c : Call) : Prop :=
  ∃ nodes d suffix, .listed .node none nodes ∈ past ∧ Known before nodes d suffix ∧
    Tier.Allowed (spec ctx targets d nodes suffix) (Tier.roles ctx nodes) past c

theorem Allowed.prepend {past : Trace} {c : Call} (u : Trace)
    (h : Allowed ctx targets before past c) : Allowed ctx targets before (u ++ past) c := by
  obtain ⟨nodes, d, suffix, hnodes, hknown, hc⟩ := h
  exact ⟨nodes, d, suffix, List.mem_append_right u hnodes, hknown, hc.prepend u⟩

theorem Course.guarded (h : Course ctx targets before t r after) :
    t.Guarded (Allowed ctx targets before) := by
  cases h with
  | unable hquiet => exact hquiet.guarded
  | waiting nodes d suffix hknown hw _ =>
    exact ⟨nofun, hw.guarded.mono fun past c hc =>
      ⟨nodes, d, suffix, List.mem_cons_self, hknown, hc.prepend [_]⟩⟩
  | following _ _ _ _ hquiet hv _ _ =>
    exact ⟨nofun, Trace.Quiet.guarded ((Trace.quiet_append _ _).mpr ⟨hquiet, hv⟩)⟩
  | done _ _ _ _ _ hquiet _ hv _ =>
    exact ⟨nofun, Trace.Quiet.guarded ((Trace.quiet_append _ _).mpr ⟨hquiet, hv⟩)⟩

theorem Course.brief (h : Course ctx targets before t r after) : t.Brief True := by
  cases h with
  | unable hquiet => exact .inl hquiet
  | waiting _ _ _ _ hw _ => exact .cons rfl hw.brief
  | following _ _ _ _ hquiet hv _ _ => exact .cons rfl (hquiet.append_brief (.inl hv))
  | done _ _ _ _ _ hquiet _ hv _ => exact .cons rfl (hquiet.append_brief (.inl hv))

end

end ReleaseUpgrade.DistributionPhase
