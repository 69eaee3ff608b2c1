import ReleaseUpgrade.Proofs.Drain
import ReleaseUpgrade.Proofs.Phases.Frame
import ReleaseUpgrade.Proofs.Phases.Order

/-!
# Draining the nodes

The two phases that upgrade nodes list them first.  After that they look objects up, create secrets
and node plans and tell of it, but they do not list the nodes again.  So each node plan of a pass is
made for the nodes of its one list, and it drains them as the policy for that list says.

* `Step.Makes`             all calls of a step are of a sort, whatever the answers;
* `Call.RollsOut`          what a phase calls after it has listed the nodes;
* `NodePlan.Suits`         a node plan selects the nodes of a role and drains them by the policy;
* `drained_iff_of_yields`  when a node plan of a pass drains its nodes.
-/

namespace ReleaseUpgrade

namespace Step
variable {α β : Type} {P : Call → Prop}

/-- whatever the answers, all calls of the step are of a sort -/
def Makes (P : Call → Prop) (s : Step α) : Prop :=
  ∀ before t r after, s.Yields before t r after → ∀ x ∈ t, P x.call

theorem makes_pure (v : α) : (pure v : Step α).Makes P := by
  intro before t r after h
  obtain ⟨rfl, _⟩ := (yields_pure ..).mp h
  exact fun _ hx => absurd hx List.not_mem_nil

theorem makes_ofExcept (e : Except UpgradeError α) : (ofExcept e).Makes P := by
  intro before t r after h
  obtain ⟨rfl, _⟩ := (yields_ofExcept ..).mp h
  exact fun _ hx => absurd hx List.not_mem_nil

theorem makes_lift {a : Action α} (ha : a.Makes P) : (liftM a : Step α).Makes P := by
  intro before t r after h
  exact ha t r ((yields_lift ..).mp h).1

theorem Makes.bind {s : Step α} {f : α → Step β} (hs : s.Makes P) (hf : ∀ v, (f v).Makes P) :
    (s >>= f).Makes P := by
  intro before t r after h
  obtain ⟨_, he, _⟩ | ⟨v, _, t₁, t₂, rfl, h₁, h₂⟩ := (yields_bind ..).mp h
  · exact hs _ _ _ _ he
  · exact List.forall_mem_append.mpr ⟨hs _ _ _ _ h₁, hf v _ _ _ _ h₂⟩

theorem Makes.bind_status {f : Status → Step β} (hf : ∀ v, (f v).Makes P) :
    (status >>= f).Makes P :=
  fun before t r after h => hf before before t r after ((yields_bind_status ..).mp h)

end Step

/-- what a phase calls after it has listed the nodes, if its node plans are as `Q` tells -/
inductive Call.RollsOut (Q : NodePlan → Prop) : Call → Prop
  | lookup {c} : c.looksUp = true → RollsOut Q c
  | secret (s : Secret) : RollsOut Q (.create .secret s)
  | nodePlan (o : NodePlan) : Q o → RollsOut Q (.create .nodePlan o)
  | publishEvent (plan event) : RollsOut Q (.publishEvent plan event)

/-- the lists of nodes that have been read -/
def Trace.nodeLists (t : Trace) : List (List Node) :=
  t.filterMap fun
    | ⟨.list .node _, .ok nodes⟩ => some nodes
    | _ => none

section
open ReleaseUpgrade.Action ReleaseUpgrade.Step
variable {Q : NodePlan → Prop}

theorem Trace.nodeLists_eq_nil {t : Trace} (h : ∀ x ∈ t, Call.RollsOut Q x.call) :
    t.nodeLists = [] := by
  refine List.filterMap_eq_nil_iff.mpr fun x hx => ?_
  obtain ⟨c, answer⟩ := x
  have hc : Call.RollsOut Q c := h _ hx
  cases hc with
  | lookup hlooks =>
    cases c with
    | list => cases hlooks
    | _ => rfl
  | _ => rfl

theorem Context.makes_create {ctx : Context} {k : Kind} {o : k.Object}
    (h : Call.RollsOut Q (.create k o)) : (ctx.create k o).Makes (Call.RollsOut Q) := by
  intro t r ht
  obtain ⟨_, rfl, _⟩ | ⟨event, _, rfl, _, _⟩ := (Context.yields_create ..).mp ht
  · exact List.forall_mem_singleton.mpr h
  · exact List.forall_mem_cons.mpr
      ⟨h, List.forall_mem_singleton.mpr (.publishEvent ctx.plan event)⟩

theorem Context.makes_setCondition (ctx : Context) (type message : String) (reason : Reason) :
    (ctx.setCondition type reason message).Makes (Call.RollsOut Q) := by
  rintro before t r after ⟨rfl, _⟩
  exact fun _ hx => absurd hx List.not_mem_nil

theorem CoreComponent.rollsOut_pending (settings : Settings) (cs : List CoreComponent) :
    (pending settings cs).Makes (Call.RollsOut Q) :=
  (makes_pending settings cs).mono fun _ => .lookup

namespace Tier
variable {ctx : Context} {spec : Spec}

theorem makes_drive {role : NodeRole} (h : Q (spec.plan role)) :
    (drive ctx spec role).Makes (Call.RollsOut Q) := by
  refine (makes_lift (makes_perform (.lookup rfl))).bind fun existing => ?_
  cases existing with
  | none =>
    refine (ctx.makes_setCondition _ _ _).bind fun _ => ?_
    exact (makes_lift (Context.makes_create (.nodePlan _ h))).bind fun _ => makes_pure _
  | some existing =>
    refine (makes_ofExcept _).bind fun arrived => ?_
    cases arrived with
    | true => exact makes_pure _
    | false => exact (ctx.makes_setCondition _ _ _).bind fun _ => makes_pure _

theorem makes_driveAll (h : ∀ role, Q (spec.plan role)) (roles : List NodeRole) :
    (driveAll ctx spec roles).Makes (Call.RollsOut Q) := by
  induction roles with
  | nil => exact makes_pure _
  | cons role rest ih =>
    refine (makes_drive (h role)).bind fun progress => ?_
    cases progress with
    | waiting => exact makes_pure _
    | upgraded => exact ih

end Tier

end

/-- the node plan selects the nodes of a role, and it drains them if the policy for the nodes of a
list says so -/
structure NodePlan.Suits (ctx : Context) (nodes : List Node) (role : NodeRole) (o : NodePlan) :
    Prop where
  upgrades : o.IsSystem role ∨ o.IsDistribution role
  selector : o.spec.nodeSelector = some (roleSelector role ctx.settings.keys.controlPlane)
  drain : o.spec.drain.isSome = (DrainPolicy.resolve nodes ctx.settings.keys.controlPlane
    ctx.plan.spec.disableDrain).forRole role

/-- the steps of the two phases that upgrade nodes -/
inductive Context.UpgradesNodes (ctx : Context) : Step Requeue → Prop
  | system (releaseVersion os) : UpgradesNodes ctx (SystemPhase.step ctx releaseVersion os)
  | distribution (targets) : UpgradesNodes ctx (DistributionPhase.step ctx targets)

section
open ReleaseUpgrade.Action ReleaseUpgrade.Step
variable {ctx : Context} {nodes : List Node} {role : NodeRole} {o : NodePlan}

theorem NodePlan.isSome_drain_ofSystem (settings : Settings) (releaseVersion : String)
    (os : OperatingSystem) (suffix : String) (drain : Bool) (identity : Dict String) :
    (ofSystem settings role releaseVersion os suffix drain identity).spec.drain.isSome = drain := by
  cases role <;> cases drain <;> rfl

theorem NodePlan.isSome_drain_ofKubernetes (settings : Settings) (d : Distribution)
    (version suffix : String) (drain : Bool) (identity : Dict String) :
    (ofKubernetes settings role d version suffix drain identity).spec.drain.isSome = drain := by
  cases role <;> cases drain <;> rfl

theorem SystemPhase.suits (releaseVersion : String) (os : OperatingSystem) (suffix : String) :
    ((tiers ctx releaseVersion os nodes suffix).plan role).Suits ctx nodes role where
  upgrades := .inl ⟨_, _, _, _, _, _, rfl⟩
  selector := by cases role <;> rfl
  drain := NodePlan.isSome_drain_ofSystem ..

theorem DistributionPhase.suits (d : Distribution) (target : DistributionTarget) (suffix : String) :
    ((tiers ctx d target nodes suffix).plan role).Suits ctx nodes role where
  upgrades := .inr ⟨_, _, _, _, _, _, rfl⟩
  selector := by cases role <;> rfl
  drain := NodePlan.isSome_drain_ofKubernetes ..

namespace NodePlan.Suits

theorem drains_iff (h : o.Suits ctx nodes role) :
    o.spec.drain.isSome = true ↔ 1 < Nodes.matchCount nodes o.spec.nodeSelector ∧
      ctx.plan.spec.disableDrain.bind (·.forRole role) ≠ some true := by
  rw [h.drain, h.selector]
  exact DrainPolicy.forRole_resolve ..

theorem drains_by_default (h : o.Suits ctx nodes role) (hdrain : o.spec.drain.isSome = true) :
    (DrainPolicy.resolve nodes ctx.settings.keys.controlPlane none).forRole role = true :=
  DrainPolicy.forRole_resolve_none (h.drain ▸ hdrain)

end NodePlan.Suits

/-- the nodes are listed first, and the node plans suit the nodes of the list -/
theorem Context.UpgradesNodes.lists {s : Step Requeue} (h : ctx.UpgradesNodes s) :
    ∃ f : List Node → Step Requeue, s = (liftM (Action.list .node none) >>= f) ∧
      ∀ nodes, (f nodes).Makes (Call.RollsOut fun o => ∃ role, o.Suits ctx nodes role) := by
  cases h with
  | system releaseVersion os =>
    refine ⟨_, rfl, fun nodes => ?_⟩
    dsimp only
    split
    · refine .bind_status fun status => (makes_ofExcept _).bind fun suffix => ?_
      refine (makes_lift (makes_perform (.lookup rfl))).bind fun secret? => ?_
      cases secret? with
      | none =>
        exact (makes_lift (Context.makes_create (.secret _))).bind fun _ => Step.makes_pure _
      | some =>
        refine (Tier.makes_driveAll (fun role => ⟨role, SystemPhase.suits ..⟩) _).bind ?_
        intro progress
        cases progress with
        | waiting => exact Step.makes_pure _
        | upgraded => exact (ctx.makes_setCondition _ _ _).bind fun _ => Step.makes_pure _
    · exact (ctx.makes_setCondition _ _ _).bind fun _ => Step.makes_pure _
  | distribution targets =>
    refine ⟨_, rfl, fun nodes => (makes_ofExcept _).bind fun d => ?_⟩
    refine .bind_status fun status => (makes_ofExcept _).bind fun suffix => ?_
    refine (Tier.makes_driveAll (fun role => ⟨role, DistributionPhase.suits ..⟩) _).bind ?_
    intro progress
    cases progress with
    | waiting => exact Step.makes_pure _
    | upgraded =>
      refine (makes_lift (CoreComponent.rollsOut_pending _ _)).bind fun name? => ?_
      cases name? with
      | some => exact (ctx.makes_setCondition _ _ _).bind fun _ => Step.makes_pure _
      | none => exact (ctx.makes_setCondition _ _ _).bind fun _ => Step.makes_pure _

/-- whatever the nodes, their labels and the overrides: a node plan of a pass drains its nodes if
and only if its own selector matches more than one node of the list that the pass has read and the
plan has nothing against it.  So an override does not make a node plan drain, and a single node is
not drained -/
theorem drained_iff_of_yields {s : Step Requeue} {before after : Status} {t : Trace}
    {r : Except UpgradeError Requeue} (hs : ctx.UpgradesNodes s) (h : s.Yields before t r after)
    {x : Exchange} (hmem : x ∈ t) (hx : x.call = .create .nodePlan o) :
    ∃ nodes role, t.nodeLists = [nodes] ∧ (o.IsSystem role ∨ o.IsDistribution role) ∧
      (o.spec.drain.isSome = true ↔ 1 < Nodes.matchCount nodes o.spec.nodeSelector ∧
        ctx.plan.spec.disableDrain.bind (·.forRole role) ≠ some true) ∧
      (o.spec.drain.isSome = true →
        (DrainPolicy.resolve nodes ctx.settings.keys.controlPlane none).forRole role = true) ∧
      (Nodes.matchCount nodes o.spec.nodeSelector ≤ 1 → o.spec.drain = none) := by
  obtain ⟨f, rfl, hmakes⟩ := hs.lists
  obtain ⟨e, rfl, _, _⟩ | ⟨nodes, u, rfl, hrest⟩ := (Step.yields_bind_list ..).mp h
  · obtain rfl := List.mem_singleton.mp hmem
    cases hx
  -- the first call has listed the nodes, and none of the others does
  have hcalls := hmakes nodes _ _ _ _ hrest
  have hlists : Trace.nodeLists (.listed .node none nodes :: u) = [nodes] :=
    congrArg (nodes :: ·) (Trace.nodeLists_eq_nil hcalls)
  obtain rfl | hmem := List.mem_cons.mp hmem
  · cases hx
  have hcall := hcalls x hmem
  rw [hx] at hcall
  cases hcall with
  | lookup hlooks => cases hlooks
  | nodePlan _ hsuits =>
    obtain ⟨role, hsuits⟩ := hsuits
    refine ⟨nodes, role, hlists, hsuits.upgrades, hsuits.drains_iff, hsuits.drains_by_default, ?_⟩
    intro hfew
    by_contra hdrain
    have hmany := (hsuits.drains_iff.mp (Option.isSome_iff_ne_none.mpr hdrain)).1
    exact absurd hfew (Nat.not_le.mpr hmany)

end

namespace TwoNodes

/-- the cluster of one node, with a second one; only workers are not to be drained -/
def context : Context :=
  let disableDrain := some { worker := some true }
  { OneNode.context with plan := { spec := { releaseVersion := "3.1.0", disableDrain } } }

def nodes : List Node :=
  [OneNode.node,
    { OneNode.node with metadata := { OneNode.node.metadata with name := some "node-2" } }]

def spec : Tier.Spec := SystemPhase.tiers context "3.1.0" OneNode.os nodes "0a1b2c3d4e"

theorem plan_yields : ∃ event after,
    (SystemPhase.step context "3.1.0" OneNode.os).Yields OneNode.status
      [.listed .node none nodes, SystemPhase.looked context "0a1b2c3d4e" (some {}),
        Tier.looked spec .controlPlane none, .created .nodePlan (spec.plan .controlPlane),
        ⟨.publishEvent context.plan event, .ok ()⟩]
      (.ok none) after :=
  ⟨_, _, .ok nodes, _, rfl, .ok (some {}), _, rfl, .ok none, _, rfl, .ok (), _, rfl, .ok (), _, rfl,
    rfl, rfl⟩

end TwoNodes

theorem drained_iff_of_yields_twoNodes :
    (TwoNodes.spec.plan .controlPlane).spec.drain.isSome = true ∧
      1 < Nodes.matchCount TwoNodes.nodes (TwoNodes.spec.plan .controlPlane).spec.nodeSelector := by
  obtain ⟨event, after, h⟩ := TwoNodes.plan_yields
  obtain ⟨nodes, role, hlists, _, hiff, _⟩ :=
    drained_iff_of_yields (.system ..) h (List.mem_of_getElem? (i := 3) rfl) rfl
  obtain rfl : TwoNodes.nodes = nodes := (List.cons.inj hlists).1
  exact ⟨rfl, (hiff.mp rfl).1⟩

end ReleaseUpgrade
