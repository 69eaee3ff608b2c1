import ReleaseUpgrade.Phases.System
import ReleaseUpgrade.Proofs.Phases.Tier

/-!
# The course of the operating system

* `Course`               the traces of a step: it cannot begin, or it creates the secret with the
                         script, or the nodes of some role have not arrived, or it is done;
* `Allowed`              what a step writes and when, `Course.guarded`;
* `Course.brief`         it writes at most once.
-/

namespace ReleaseUpgrade.SystemPhase

section
variable (ctx : Context) (releaseVersion : String) (os : OperatingSystem)

/-- the secret with the script has been looked up -/
abbrev looked (suffix : String) (secret? : Option Secret) : Exchange :=
  .got .secret ctx.settings.upgradeNamespace (Naming.osSecret suffix) secret?

/-- the nodes of a trace are fit for the attempt that the status names -/
structure Fit (before : Status) (nodes : List Node) (suffix : String) : Prop where
  supported : Nodes.unsupported nodes os.supportedArchs = []
  named : before.namingSuffix = some suffix

/-- the traces of a step -/
inductive Course (before : Status) : Trace → Except UpgradeError Requeue → Status → Prop
  | unable {t r after} : t.Quiet → r ≠ .ok .immediately →
      Status.Held ctx.now Status.osUpgraded before after → Course before t r after
  | refused (nodes suffix e) : Fit os before nodes suffix →
      Course before [.listed .node none nodes, looked ctx suffix none,
        ⟨.create .secret (Script.secret ctx.settings os suffix ctx.identity), .error e⟩]
        (.error e) before
  | prepared (nodes suffix event answer) : Fit os before nodes suffix →
      Course before [.listed .node none nodes, looked ctx suffix none,
        .created .secret (Script.secret ctx.settings os suffix ctx.identity),
        ⟨.publishEvent ctx.plan event, answer⟩] (.ok none) before
  | waiting (nodes suffix) (secret : Secret) {t p r after} : Fit os before nodes suffix →
      Tier.Waiting (tiers ctx releaseVersion os nodes suffix) ctx (Tier.roles ctx nodes) before t p
        after → ((∃ e, r = .error e) ∨ ∃ q, p = .ok q) →
      Course before (.listed .node none nodes :: looked ctx suffix (some secret) :: t) r after
  | done (nodes suffix) (secret : Secret) (message : String) {t} : Fit os before nodes suffix →
      t.Quiet → (∀ role ∈ Tier.roles ctx nodes,
        Tier.Arrived (tiers ctx releaseVersion os nodes suffix) role t) →
      Course before (.listed .node none nodes :: looked ctx suffix (some secret) :: t)
        (.ok .immediately) (before.setCondition ctx.now Status.osUpgraded .succeeded message)

end

section
variable {ctx : Context} {releaseVersion : String} {os : OperatingSystem} {before after : Status}
  {t : Trace} {r : Except UpgradeError Requeue}

/-- the node plans of the roles go by the names of the attempt -/
theorem looked_tiers (nodes : List Node) (suffix : String) (role : NodeRole)
    (plan? : Option NodePlan) :
    Tier.looked (tiers ctx releaseVersion os nodes suffix) role plan? =
      .got .nodePlan ctx.settings.upgradeNamespace
        (Naming.osPlan role os.zypperId os.version suffix) plan? := by
  cases role <;> rfl

theorem course_of_upgrade {nodes : List Node} {suffix : String} (hfit : Fit os before nodes suffix)
    (h : (upgrade ctx releaseVersion os nodes suffix).Yields before t r after) :
    Course ctx releaseVersion os before (.listed .node none nodes :: t) r after := by
  obtain ⟨e, rfl, rfl, rfl⟩ | ⟨found, u, rfl, hrest⟩ := (Step.yields_bind_get ..).mp h
  · refine .unable ?_ nofun (.inl rfl)
    exact (Trace.quiet_cons _ _).mpr ⟨rfl, Trace.quiet_single rfl⟩
  cases found with
  | none =>
    obtain ⟨e, hc, rfl, rfl⟩ | ⟨_, _, _, rfl, hc, hlast⟩ := (Step.yields_bind_lift ..).mp hrest
    · obtain ⟨_, rfl, he⟩ | ⟨_, _, _, _, he⟩ := (Context.yields_create ctx _ _ _ _).mp hc
      · cases he
        exact .refused nodes suffix e hfit
      · cases he
    · obtain ⟨rfl, rfl, rfl⟩ := (Step.yields_pure ..).mp hlast
      obtain ⟨_, _, he⟩ | ⟨event, answer, rfl, _, _⟩ := (Context.yields_create ctx _ _ _ _).mp hc
      · cases he
      · exact .prepared nodes suffix event answer hfit
  | some secret =>
    obtain ⟨e, hd, rfl⟩ | ⟨progress, _, v, _, rfl, hd, hlast⟩ := (Step.yields_bind ..).mp hrest
    · obtain ⟨_, _, he, _⟩ | hw := Tier.driveAll_of_yields hd
      · cases he
      · exact .waiting nodes suffix secret hfit hw (.inl ⟨e, rfl⟩)
    cases progress with
    | waiting requeue =>
      obtain ⟨rfl, rfl, rfl⟩ := (Step.yields_pure ..).mp hlast
      obtain ⟨_, _, he, _⟩ | hw := Tier.driveAll_of_yields hd
      · cases he
      · rw [List.append_nil]
        exact .waiting nodes suffix secret hfit hw (.inr ⟨_, rfl⟩)
    | upgraded =>
      obtain ⟨hquiet, harrived, _, rfl⟩ | hw := Tier.driveAll_of_yields hd
      case inr => exact absurd rfl hw.ne
      have hlast := (Context.yields_bind_setCondition ..).mp hlast
      obtain ⟨rfl, rfl, rfl⟩ := (Step.yields_pure ..).mp hlast
      rw [List.append_nil]
      exact .done nodes suffix secret _ hfit hquiet harrived

theorem course_of_yields (h : (step ctx releaseVersion os).Yields before t r after) :
    Course ctx releaseVersion os before t r after := by
  obtain ⟨e, rfl, rfl, rfl⟩ | ⟨nodes, u, rfl, hrest⟩ := (Step.yields_bind_list ..).mp h
  · exact .unable (Trace.quiet_single rfl) nofun (.inl rfl)
  have hquiet : Trace.Quiet [.listed .node none nodes] := Trace.quiet_single rfl
  dsimp only at hrest
  split at hrest
  · rename_i hsupported
    have hrest := (Step.yields_bind_status ..).mp hrest
    obtain ⟨e, _, rfl, rfl, rfl⟩ | ⟨suffix, hs, hup⟩ := (Step.yields_bind_ofExcept ..).mp hrest
    · exact .unable hquiet nofun (.inl rfl)
    exact course_of_upgrade ⟨List.isEmpty_iff.mp hsupported, Context.namingSuffix_eq_ok hs⟩ hup
  · have hrest := (Context.yields_bind_setCondition ..).mp hrest
    obtain ⟨rfl, rfl, rfl⟩ := (Step.yields_pure ..).mp hrest
    exact .unable hquiet nofun (.inr ⟨.failed, _, nofun, rfl⟩)

end

/-- what a step may create after what went before: the secret of the attempt if it has not been
found, the node plans of the roles if it has; and only if all nodes are fit -/
inductive Allowed (ctx : Context) (releaseVersion : String) (os : OperatingSystem)
    (before : Status) (past : Trace) : Call → Prop
  | secret (nodes suffix) : .listed .node none nodes ∈ past → Fit os before nodes suffix →
      looked ctx suffix none ∈ past →
      Allowed ctx releaseVersion os before past
        (.create .secret (Script.secret ctx.settings os suffix ctx.identity))
  | plan (nodes suffix) (secret : Secret) {c} : .listed .node none nodes ∈ past →
      Fit os before nodes suffix → looked ctx suffix (some secret) ∈ past →
      Tier.Allowed (tiers ctx releaseVersion os nodes suffix) (Tier.roles ctx nodes) past c →
      Allowed ctx releaseVersion os before past c

section
variable {ctx : Context} {releaseVersion : String} {os : OperatingSystem} {before after : Status}
  {t : Trace} {r : Except UpgradeError Requeue}

theorem Allowed.prepend {past : Trace} {c : Call} (u : Trace)
    (h : Allowed ctx releaseVersion os before past c) :
    Allowed ctx releaseVersion os before (u ++ past) c := by
  cases h with
  | secret nodes suffix hnodes hfit hnone =>
    exact .secret nodes suffix (List.mem_append_right u hnodes) hfit (List.mem_append_right u hnone)
  | plan nodes suffix secret hnodes hfit hsome hc =>
    exact .plan nodes suffix secret (List.mem_append_right u hnodes) hfit
      (List.mem_append_right u hsome) (hc.prepend u)

theorem Course.guarded (h : Course ctx releaseVersion os before t r after) :
    t.Guarded (Allowed ctx releaseVersion os before) := by
  cases h with
  | unable hquiet => exact hquiet.guarded
  | refused nodes suffix _ hfit =>
    exact ⟨nofun, nofun, fun _ => .secret nodes suffix List.mem_cons_self hfit
      (List.mem_cons_of_mem _ List.mem_cons_self), trivial⟩
  | prepared nodes suffix _ _ hfit =>
    exact ⟨nofun, nofun, fun _ => .secret nodes suffix List.mem_cons_self hfit
      (List.mem_cons_of_mem _ List.mem_cons_self), nofun, trivial⟩
  | waiting nodes suffix secret hfit hw _ =>
    refine ⟨nofun, nofun, hw.guarded.mono fun past c hc => ?_⟩
    exact .plan nodes suffix secret List.mem_cons_self hfit
      (List.mem_cons_of_mem _ List.mem_cons_self) (hc.prepend [_, _])
  | done nodes suffix secret _ _ hquiet _ => exact ⟨nofun, nofun, hquiet.guarded⟩

theorem Course.brief (h : Course ctx releaseVersion os before t r after) : t.Brief True := by
  cases h with
  | unable hquiet => exact .inl hquiet
  | refused | prepared => exact .inr ⟨rfl, trivial⟩
  | waiting _ _ _ _ hw _ => exact .cons rfl (.cons rfl hw.brief)
  | done _ _ _ _ _ hquiet _ => exact .cons rfl (.cons rfl hquiet.brief)

end

end ReleaseUpgrade.SystemPhase
