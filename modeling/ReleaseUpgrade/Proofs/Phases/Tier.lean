import ReleaseUpgrade.Phases.Tier
import ReleaseUpgrade.Proofs.Cluster.Writes
import ReleaseUpgrade.Proofs.Nodes
import ReleaseUpgrade.Proofs.Upgrade.Status

/-!
# The course of the roles

The roles of a phase are driven in turn.  A role lets the next one begin only if its node plan has
been found and the nodes that the plan selects have arrived; otherwise it waits, and so does the
phase.

* `Tier.Arrived`     the nodes of a role have arrived;
* `Tier.Allowed`     when the node plan of a role may be created;
* `Tier.Waiting`     a role that has not arrived: what is written, and that the condition is not true;
* `driveAll_of_yields`   either all roles have arrived, or one of them waits.
-/

namespace ReleaseUpgrade.Tier

section
variable (spec : Spec)

/-- the node plan of a role has been looked up -/
abbrev looked (role : NodeRole) (plan? : Option NodePlan) : Exchange :=
  .got .nodePlan (spec.plan role).metadata.nsOr (spec.plan role).metadata.nameAny plan?

/-- the node plan of a role has been found, and the nodes that it selects have arrived -/
def Arrived (role : NodeRole) (past : Trace) : Prop :=
  ∃ existing, looked spec role (some existing) ∈ past ∧
    Nodes.Arrived spec.nodes existing.spec.nodeSelector spec.target

/-- the node plan of a role may be created if it has not been found and the roles before it have
arrived -/
def Allowed (roles : List NodeRole) (past : Trace) (c : Call) : Prop :=
  ∃ pre role post, roles = pre ++ role :: post ∧ c = .create .nodePlan (spec.plan role) ∧
    looked spec role none ∈ past ∧ ∀ earlier ∈ pre, Arrived spec earlier past

/-- the nodes of some role have not arrived -/
structure Waiting (ctx : Context) (roles : List NodeRole) (before : Status) (t : Trace)
    (r : Except UpgradeError Progress) (after : Status) : Prop where
  ne : r ≠ .ok .upgraded
  held : Status.Held ctx.now spec.condition before after
  unset : ∀ p, r = .ok p → after.isSucceeded spec.condition = false
  guarded : t.Guarded (Allowed spec roles)
  brief : t.Brief True

end

section
variable {ctx : Context} {spec : Spec} {role : NodeRole} {roles : List NodeRole}
  {before after : Status} {t : Trace} {r : Except UpgradeError Progress}

theorem Arrived.mono {u : Trace} (h : Arrived spec role t) (hsub : ∀ x ∈ t, x ∈ u) :
    Arrived spec role u := by
  obtain ⟨existing, hmem, h⟩ := h
  exact ⟨existing, hsub _ hmem, h⟩

theorem Allowed.prepend {past : Trace} {c : Call} (u : Trace) (h : Allowed spec roles past c) :
    Allowed spec roles (u ++ past) c := by
  obtain ⟨pre, later, post, hroles, hc, hnone, hpre⟩ := h
  refine ⟨pre, later, post, hroles, hc, List.mem_append_right u hnone, fun earlier hmem => ?_⟩
  exact (hpre earlier hmem).mono fun x hx => List.mem_append_right u hx

theorem Allowed.cons {past : Trace} {c : Call} {u : Trace} (hu : Arrived spec role u)
    (h : Allowed spec roles past c) : Allowed spec (role :: roles) (u ++ past) c := by
  obtain ⟨pre, later, post, rfl, hc, hnone, hpre⟩ := h
  refine ⟨role :: pre, later, post, rfl, hc, List.mem_append_right u hnone, ?_⟩
  intro earlier hmem
  obtain rfl | hmem := List.mem_cons.mp hmem
  · exact hu.mono fun x hx => List.mem_append_left past hx
  · exact (hpre earlier hmem).mono fun x hx => List.mem_append_right u hx

theorem quiet_looked (plan? : Option NodePlan) : Trace.Quiet [looked spec role plan?] :=
  Trace.quiet_single rfl

/-- a role has arrived, or it waits -/
theorem drive_of_yields (roles : List NodeRole)
    (h : (drive ctx spec role).Yields before t r after) :
    (t.Quiet ∧ Arrived spec role t ∧ r = .ok .upgraded ∧ after = before) ∨
      Waiting spec ctx (role :: roles) before t r after := by
  have unsucceeded (message : String) :
      (before.setCondition ctx.now spec.condition .inProgress message).isSucceeded spec.condition =
        false :=
    Bool.eq_false_iff.mpr fun hs => nomatch (Status.isSucceeded_setCondition _ _ _ _ _).mp hs
  obtain ⟨e, rfl, rfl, rfl⟩ | ⟨found, u, rfl, hrest⟩ := (Step.yields_bind_get ..).mp h
  · refine .inr ⟨nofun, .inl rfl, nofun, ⟨nofun, trivial⟩, .inl ?_⟩
    exact Trace.quiet_single rfl
  cases found with
  | none =>
    have hbegin : Allowed spec (role :: roles) [looked spec role none]
        (.create .nodePlan (spec.plan role)) :=
      ⟨[], role, roles, rfl, rfl, List.mem_cons_self, nofun⟩
    -- whether the plan is created or refused, the condition has been set
    have hrest := (Context.yields_bind_setCondition ..).mp hrest
    obtain ⟨e, hc, rfl, rfl⟩ | ⟨_, _, _, rfl, hc, hlast⟩ := (Step.yields_bind_lift ..).mp hrest
    · obtain ⟨_, rfl, _⟩ | ⟨_, _, _, _, he⟩ := (Context.yields_create ctx _ _ _ _).mp hc
      · exact .inr ⟨nofun, .inr ⟨.inProgress, _, nofun, rfl⟩, nofun,
          ⟨nofun, fun _ => hbegin, trivial⟩, .inr ⟨rfl, trivial⟩⟩
      · cases he
    · obtain ⟨rfl, rfl, rfl⟩ := (Step.yields_pure ..).mp hlast
      obtain ⟨_, _, he⟩ | ⟨_, _, rfl, _, _⟩ := (Context.yields_create ctx _ _ _ _).mp hc
      · cases he
      · exact .inr ⟨nofun, .inr ⟨.inProgress, _, nofun, rfl⟩, fun _ _ => unsucceeded _,
          ⟨nofun, fun _ => hbegin, nofun, trivial⟩, .inr ⟨rfl, trivial⟩⟩
  | some existing =>
    obtain ⟨e, _, rfl, rfl, rfl⟩ | ⟨arrived, hup, hlast⟩ :=
      (Step.yields_bind_ofExcept ..).mp hrest
    · exact .inr ⟨nofun, .inl rfl, nofun, ⟨nofun, trivial⟩, .inl (quiet_looked _)⟩
    cases arrived with
    | true =>
      obtain ⟨rfl, rfl, rfl⟩ := (Step.yields_pure ..).mp hlast
      have harrived := Nodes.arrived_of_upgraded hup
      exact .inl ⟨quiet_looked _, ⟨existing, List.mem_cons_self, harrived⟩, rfl, rfl⟩
    | false =>
      have hlast := (Context.yields_bind_setCondition ..).mp hlast
      obtain ⟨rfl, rfl, rfl⟩ := (Step.yields_pure ..).mp hlast
      exact .inr ⟨nofun, .inr ⟨.inProgress, _, nofun, rfl⟩, fun _ _ => unsucceeded _,
        ⟨nofun, trivial⟩, .inl (quiet_looked _)⟩

/-- all roles have arrived, or one of them waits -/
theorem driveAll_of_yields (h : (driveAll ctx spec roles).Yields before t r after) :
    (t.Quiet ∧ (∀ role ∈ roles, Arrived spec role t) ∧ r = .ok .upgraded ∧ after = before) ∨
      Waiting spec ctx roles before t r after := by
  induction roles generalizing t with
  | nil =>
    obtain ⟨rfl, rfl, rfl⟩ := (Step.yields_pure ..).mp h
    exact .inl ⟨Trace.quiet_nil, nofun, rfl, rfl⟩
  | cons role rest ih =>
    obtain ⟨e, hd, rfl⟩ | ⟨progress, _, u, v, rfl, hd, hrest⟩ := (Step.yields_bind ..).mp h
    · obtain ⟨_, _, he, _⟩ | hw := drive_of_yields rest hd
      · cases he
      · exact .inr ⟨nofun, hw.held, nofun, hw.guarded, hw.brief⟩
    cases progress with
    | waiting requeue =>
      obtain ⟨rfl, rfl, rfl⟩ := (Step.yields_pure ..).mp hrest
      rw [List.append_nil]
      obtain ⟨_, _, he, _⟩ | hw := drive_of_yields rest hd
      · cases he
      · exact .inr ⟨nofun, hw.held, fun _ _ => hw.unset _ rfl, hw.guarded, hw.brief⟩
    | upgraded =>
      obtain ⟨hquiet, harrived, _, rfl⟩ | hw := drive_of_yields rest hd
      case inr => exact absurd rfl hw.ne
      -- what the later roles wait for comes after the arrival of this one
      obtain ⟨hv, hall, rfl, rfl⟩ | hw := ih hrest
      · refine .inl ⟨(Trace.quiet_append u v).mpr ⟨hquiet, hv⟩, ?_, rfl, rfl⟩
        intro later hmem
        obtain rfl | hmem := List.mem_cons.mp hmem
        · exact harrived.mono fun x hx => List.mem_append_left v hx
        · exact (hall later hmem).mono fun x hx => List.mem_append_right u hx
      · exact .inr ⟨hw.ne, hw.held, hw.unset,
          hquiet.guarded.append hw.guarded fun _ _ hc => hc.cons harrived,
          hquiet.append_brief hw.brief⟩

end

end ReleaseUpgrade.Tier
