import ReleaseUpgrade.Proofs.Phases.Dispatch
import ReleaseUpgrade.Proofs.Phases.Order
import ReleaseUpgrade.Proofs.Phases.Report

/-!
# What a failed pass leaves behind

A phase sets its condition last, so a call that fails before leaves the status alone.  There is one
exception: that the nodes of a role are being upgraded is said before their node plan is created, and
it stays said if the cluster refuses the plan.

* `Call.sparesNodes`        the call creates no node plan;
* `Tier.Refused`            the node plan of a role has been refused; a phase of the nodes that fails
                            keeps the status, or it ends so;
* `keeps_unless_refused`    the same for a pass.
-/

namespace ReleaseUpgrade

/-- the call creates no node plan -/
def Call.sparesNodes : Call → Bool
  | .create .nodePlan _ => false
  | _ => true

theorem Call.sparesNodes_of_writes {c : Call} (h : c.writes = false) : c.sparesNodes = true := by
  cases c <;> first | rfl | cases h

theorem Trace.Quiet.sparesNodes {t : Trace} (h : t.Quiet) : t.All Call.sparesNodes :=
  fun x hx => Call.sparesNodes_of_writes (h x hx)

section
variable {α : Type} {v : α} {before after : Status} {t : Trace} {e : UpgradeError}

theorem Step.not_fails_pure : ¬(pure v : Step α).Yields before t (.error e) after := by
  intro h
  obtain ⟨_, he, _⟩ := (yields_pure ..).mp h
  cases he

theorem Context.not_fails_setCondition {ctx : Context} {type message : String} {reason : Reason} :
    ¬(ctx.setCondition type reason message >>= fun _ => (pure v : Step α)).Yields before t
      (.error e) after := by
  intro h
  have h := (ctx.yields_bind_setCondition t type reason message (fun _ => pure v) ..).mp h
  exact Step.not_fails_pure h

end

namespace Workload

/-- what a workload may write is no node plan -/
theorem Allowed.sparesNodes {ctx : Context} {w : ReleaseChart} {past : Trace} {c : Call}
    (h : Allowed ctx w past c) : c.sparesNodes = true := by
  obtain ⟨_, _, _, _, hwrite⟩ := h
  cases hwrite <;> rfl

/-- a workload that fails has created no node plan and keeps the status -/
theorem keeps_of_fails {ctx : Context} {w : ReleaseChart} {before after : Status} {t : Trace}
    {e : UpgradeError} (h : (step ctx w).Yields before t (.error e) after) :
    after = before ∧ t.All Call.sparesNodes := by
  obtain ⟨report, hlax | rfl, hkept, _⟩ := reports_step ctx ctx.now w _ _ _ _ h
  · exact hlax.elim
  · exact ⟨hkept, (guarded_of_yields h).all (fun _ => Call.sparesNodes_of_writes)
      fun _ _ hc => hc.sparesNodes⟩

end Workload

namespace Tier

/-- the last call is the creation of the node plan of a role, which the cluster has refused; the
condition says already that the nodes of the role are being upgraded -/
def Refused (ctx : Context) (spec : Spec) (before : Status) (t : Trace) (e : UpgradeError)
    (after : Status) : Prop :=
  ∃ role u, t = u ++ [⟨.create .nodePlan (spec.plan role), .error e⟩] ∧
    after = before.setCondition ctx.now spec.condition .inProgress (message role)

section
variable {ctx : Context} {spec : Spec} {before after : Status} {t : Trace} {e : UpgradeError}

theorem Refused.prepend (h : Refused ctx spec before t e after) (u : Trace) :
    Refused ctx spec before (u ++ t) e after := by
  obtain ⟨role, v, rfl, hafter⟩ := h
  exact ⟨role, u ++ v, (List.append_assoc ..).symm, hafter⟩

/-- a role that fails has not changed the status, or its node plan has been refused -/
theorem drive_fails {role : NodeRole} (h : (drive ctx spec role).Yields before t (.error e) after) :
    (after = before ∧ t.Quiet) ∨ Refused ctx spec before t e after := by
  obtain ⟨_, rfl, _, rfl⟩ | ⟨found, u, rfl, hrest⟩ := (Step.yields_bind_get ..).mp h
  · exact .inl ⟨rfl, Trace.quiet_single rfl⟩
  cases found with
  | none =>
    -- the condition is set before the node plan is created, whatever becomes of the creation
    have hrest := (Context.yields_bind_setCondition ..).mp hrest
    obtain ⟨_, hc, he, rfl⟩ | ⟨_, _, _, _, _, hlast⟩ := (Step.yields_bind_lift ..).mp hrest
    · obtain ⟨_, rfl, he'⟩ | ⟨_, _, _, _, he'⟩ := (Context.yields_create ctx _ _ _ _).mp hc
      · cases he
        cases he'
        exact .inr ⟨role, [looked spec role none], rfl, rfl⟩
      · cases he'
    · exact absurd hlast Step.not_fails_pure
  | some existing =>
    obtain ⟨_, _, rfl, _, rfl⟩ | ⟨arrived, _, hlast⟩ := (Step.yields_bind_ofExcept ..).mp hrest
    · exact .inl ⟨rfl, quiet_looked _⟩
    cases arrived with
    | true => exact absurd hlast Step.not_fails_pure
    | false => exact absurd hlast Context.not_fails_setCondition

theorem driveAll_fails {roles : List NodeRole}
    (h : (driveAll ctx spec roles).Yields before t (.error e) after) :
    (after = before ∧ t.Quiet) ∨ Refused ctx spec before t e after := by
  induction roles generalizing t with
  | nil => exact absurd h Step.not_fails_pure
  | cons role rest ih =>
    obtain ⟨_, hd, he⟩ | ⟨progress, _, u, v, rfl, hd, hrest⟩ := (Step.yields_bind ..).mp h
    · cases he
      exact drive_fails hd
    cases progress with
    | waiting requeue => exact absurd hrest Step.not_fails_pure
    | upgraded =>
      obtain ⟨hu, _, _, rfl⟩ | hw := drive_of_yields rest hd
      case inr => exact absurd rfl hw.ne
      obtain ⟨hkept, hv⟩ | hrefused := ih hrest
      · exact .inl ⟨hkept, (Trace.quiet_append u v).mpr ⟨hu, hv⟩⟩
      · exact .inr (hrefused.prepend u)

end

end Tier

section
variable {ctx : Context} {before after : Status} {t : Trace} {e : UpgradeError}

namespace SystemPhase
variable {releaseVersion : String} {os : OperatingSystem}

theorem upgrade_fails {nodes : List Node} {suffix : String}
    (h : (upgrade ctx releaseVersion os nodes suffix).Yields before t (.error e) after) :
    (after = before ∧ t.All Call.sparesNodes) ∨
      Tier.Refused ctx (tiers ctx releaseVersion os nodes suffix) before t e after := by
  obtain ⟨_, rfl, _, rfl⟩ | ⟨secret?, u, rfl, hrest⟩ := (Step.yields_bind_get ..).mp h
  · exact .inl ⟨rfl, Trace.all_single rfl⟩
  have hlooked : Trace.All Call.sparesNodes [looked ctx suffix secret?] := Trace.all_single rfl
  cases secret? with
  | none =>
    obtain ⟨_, hc, _, rfl⟩ | ⟨_, _, _, _, _, hlast⟩ := (Step.yields_bind_lift ..).mp hrest
    · obtain ⟨_, rfl, _⟩ | ⟨_, _, _, _, he⟩ := (Context.yields_create ctx _ _ _ _).mp hc
      · exact .inl ⟨rfl, (Trace.all_append [_] [_]).mpr ⟨hlooked, Trace.all_single rfl⟩⟩
      · cases he
    · exact absurd hlast Step.not_fails_pure
  | some secret =>
    obtain ⟨_, hd, he⟩ | ⟨progress, _, _, _, _, _, hlast⟩ := (Step.yields_bind ..).mp hrest
    · cases he
      obtain ⟨hkept, hquiet⟩ | hrefused := Tier.driveAll_fails hd
      · exact .inl ⟨hkept, (Trace.all_append [_] u).mpr ⟨hlooked, hquiet.sparesNodes⟩⟩
      · exact .inr (hrefused.prepend [_])
    cases progress with
    | waiting requeue => exact absurd hlast Step.not_fails_pure
    | upgraded => exact absurd hlast Context.not_fails_setCondition

/-- the operating system that fails has not changed the status, or a node plan has been refused -/
theorem step_fails (h : (step ctx releaseVersion os).Yields before t (.error e) after) :
    (after = before ∧ t.All Call.sparesNodes) ∨
      ∃ nodes suffix, Tier.Refused ctx (tiers ctx releaseVersion os nodes suffix) before t e
        after := by
  obtain ⟨_, rfl, _, rfl⟩ | ⟨nodes, u, rfl, hrest⟩ := (Step.yields_bind_list ..).mp h
  · exact .inl ⟨rfl, Trace.all_single rfl⟩
  have hlisted : Trace.All Call.sparesNodes [.listed .node none nodes] := Trace.all_single rfl
  dsimp only at hrest
  split at hrest
  · have hrest := (Step.yields_bind_status ..).mp hrest
    obtain ⟨_, _, rfl, _, rfl⟩ | ⟨suffix, _, hup⟩ := (Step.yields_bind_ofExcept ..).mp hrest
    · exact .inl ⟨rfl, hlisted⟩
    obtain ⟨hkept, hu⟩ | hrefused := upgrade_fails hup
    · exact .inl ⟨hkept, (Trace.all_append [_] u).mpr ⟨hlisted, hu⟩⟩
    · exact .inr ⟨nodes, suffix, hrefused.prepend [_]⟩
  · exact absurd hrest Context.not_fails_setCondition

end SystemPhase

namespace DistributionPhase

theorem followCore_fails {target : DistributionTarget}
    (h : (followCore ctx target).Yields before t (.error e) after) :
    after = before ∧ t.Quiet := by
  obtain ⟨_, hlook, _, rfl⟩ | ⟨name?, _, _, _, _, hrest⟩ := (Step.yields_bind_lift ..).mp h
  · exact ⟨rfl, (CoreComponent.settled_of_pending hlook).1⟩
  cases name? with
  | none | some => exact absurd hrest Context.not_fails_setCondition

/-- the distribution that fails has not changed the status, or a node plan has been refused -/
theorem step_fails {targets : KubernetesTargets}
    (h : (step ctx targets).Yields before t (.error e) after) :
    (after = before ∧ t.All Call.sparesNodes) ∨
      ∃ d nodes suffix, Tier.Refused ctx (spec ctx targets d nodes suffix) before t e after := by
  obtain ⟨_, rfl, _, rfl⟩ | ⟨nodes, u, rfl, hrest⟩ := (Step.yields_bind_list ..).mp h
  · exact .inl ⟨rfl, Trace.all_single rfl⟩
  have hlisted : Trace.All Call.sparesNodes [.listed .node none nodes] := Trace.all_single rfl
  obtain ⟨_, _, rfl, _, rfl⟩ | ⟨d, _, hrest⟩ := (Step.yields_bind_ofExcept ..).mp hrest
  · exact .inl ⟨rfl, hlisted⟩
  have hrest := (Step.yields_bind_status ..).mp hrest
  obtain ⟨_, _, rfl, _, rfl⟩ | ⟨suffix, _, hrest⟩ := (Step.yields_bind_ofExcept ..).mp hrest
  · exact .inl ⟨rfl, hlisted⟩
  obtain ⟨_, hd, he⟩ | ⟨progress, _, u, v, rfl, hd, hlast⟩ := (Step.yields_bind ..).mp hrest
  · cases he
    obtain ⟨hkept, hquiet⟩ | hrefused := Tier.driveAll_fails hd
    · exact .inl ⟨hkept, (Trace.all_append [_] _).mpr ⟨hlisted, hquiet.sparesNodes⟩⟩
    · exact .inr ⟨d, nodes, suffix, hrefused.prepend [_]⟩
  cases progress with
  | waiting requeue => exact absurd hlast Step.not_fails_pure
  | upgraded =>
    obtain ⟨hu, _, _, rfl⟩ | hw := Tier.driveAll_of_yields hd
    case inr => exact absurd rfl hw.ne
    obtain ⟨hkept, hv⟩ := followCore_fails hlast
    have huv : Trace.Quiet (u ++ v) := (Trace.quiet_append u v).mpr ⟨hu, hv⟩
    exact .inl ⟨hkept, (Trace.all_append [_] _).mpr ⟨hlisted, huv.sparesNodes⟩⟩

end DistributionPhase

end

namespace Upgrade

/-- the last call of the pass is the creation of a node plan for what has its turn, which the cluster
has refused; the condition says already that the nodes of the role are being upgraded -/
inductive Refused (ctx : Context) (before : Status) (e : UpgradeError) : Trace → Status → Prop
  | intro (m role plan type) {u : Trace} : ManifestPhase.Resolved ctx u (some m) →
      (target before m.spec.components.workloads).type? = some type →
      (type = Status.osUpgraded ∧ plan.IsSystem role ∨
        type = Status.kubernetesUpgraded ∧ plan.IsDistribution role) →
      Refused ctx before e (u ++ [⟨.create .nodePlan plan, .error e⟩])
        (before.setCondition ctx.now type .inProgress (Tier.message role))

section
variable {ctx : Context} {before after : Status} {t : Trace} {e : UpgradeError}

/-- whatever the status before, whatever the answers of the cluster and wherever the pass fails: it
has created no node plan and keeps the status as it was, unless the call that has failed is the
creation of a node plan; then nothing but the condition of what has its turn has been set, to say
that the nodes of the role of the node plan are being upgraded -/
theorem keeps_unless_refused {suffix : String}
    (h : (step ctx suffix).Yields before t (.error e) after) :
    (after = before ∧ t.All Call.sparesNodes) ∨ Refused ctx before e t after := by
  generalize hr : (Except.error e : Except UpgradeError Requeue) = r at h
  cases course_of_yields h with
  | unresolved hquiet => exact .inl ⟨rfl, hquiet.sparesNodes⟩
  | install hquiet _ hi =>
    have hjob := (ManifestPhase.creates_of_install hi).guarded.all
      (fun _ => Call.sparesNodes_of_writes) fun _ _ hc => hc ▸ rfl
    exact .inl ⟨rfl, (Trace.all_append _ _).mpr ⟨hquiet.sparesNodes, hjob⟩⟩
  | start => cases hr
  | @advance m u v r after hquiet hresolved _ hadvance =>
    subst hr
    have kept (hv : after = before ∧ v.All Call.sparesNodes) :
        after = before ∧ Trace.All Call.sparesNodes (u ++ v) :=
      ⟨hv.1, (Trace.all_append u v).mpr ⟨hquiet.sparesNodes, hv.2⟩⟩
    cases hadvance with
    | system hos hs =>
      -- the refused node plan stays the last call after what has found the manifest
      obtain hkept | ⟨nodes, suffix, role, w, rfl, rfl⟩ := SystemPhase.step_fails hs
      · exact .inl (kept hkept)
      · rw [← List.append_assoc]
        exact .inr (.intro m role _ _ (hresolved.append w) (by rw [target_of_system hos]; rfl)
          (.inl ⟨rfl, _, _, _, _, _, _, rfl⟩))
    | distribution hos hk hd =>
      obtain hkept | ⟨d, nodes, suffix, role, w, rfl, rfl⟩ := DistributionPhase.step_fails hd
      · exact .inl (kept hkept)
      · rw [← List.append_assoc]
        exact .inr (.intro m role _ _ (hresolved.append w)
          (by rw [target_of_distribution hos hk]; rfl) (.inr ⟨rfl, _, _, _, _, _, _, rfl⟩))
    | workload w _ _ _ hw => exact .inl (kept (Workload.keeps_of_fails hw))
    | complete _ _ _ hc => cases (complete_of_yields hc).1

end

end Upgrade

namespace OneNode

/-- the cluster refuses the node plan of the operating system -/
theorem refused_yields :
    (Upgrade.step context "ffffffffff").Yields status
      (beforePlan ++ [⟨.create .nodePlan osPlan, .error (.cluster .other)⟩])
      (.error (.cluster .other))
      (status.setCondition ⟨0, 0⟩ Status.osUpgraded .inProgress
        "Control plane nodes are being upgraded") :=
  ⟨.ok [manifest], _, rfl, .ok [node], _, rfl, .ok (some {}), _, rfl, .ok none, _, rfl,
    .error (.cluster .other), _, rfl, rfl, rfl⟩

end OneNode

theorem Upgrade.keeps_unless_refused_oneNode :
    Upgrade.Refused OneNode.context OneNode.status (.cluster .other)
      (OneNode.beforePlan ++ [⟨.create .nodePlan OneNode.osPlan, .error (.cluster .other)⟩])
      (OneNode.status.setCondition ⟨0, 0⟩ Status.osUpgraded .inProgress
        "Control plane nodes are being upgraded") := by
  obtain ⟨hkept, _⟩ | hrefused := Upgrade.keeps_unless_refused OneNode.refused_yields
  · exact absurd (congrArg Status.types hkept) (by decide)
  · exact hrefused

/-- a pass that fails can leave a condition that it has set -/
theorem Upgrade.condition_set_by_failure :
    ¬∀ (ctx : Context) (suffix : String) (before after : Status) (t : Trace) (e : UpgradeError),
      (Upgrade.step ctx suffix).Yields before t (.error e) after → after = before := by
  intro h
  have hkept := h _ _ _ _ _ _ OneNode.refused_yields
  exact absurd (congrArg Status.types hkept) (by decide)

end ReleaseUpgrade
