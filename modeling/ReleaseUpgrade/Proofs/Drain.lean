import ReleaseUpgrade.Drain
import ReleaseUpgrade.Proofs.Nodes

/-!
# Which roles are drained

The policy counts the nodes by their label, and a node plan takes its nodes by a selector.  The
nodes of a role are the same for both, so the policy can be said in terms of the selector.

* `DrainPolicy.ofCounts_eq`      the default is that more than one node of the role is there;
* `Nodes.roleCounts_eq`          the counts are the numbers of nodes that the selectors match;
* `DrainPolicy.forRole_resolve`  when the nodes of a role are drained.
-/

namespace ReleaseUpgrade

/-- what the plan says against draining the nodes of a role -/
def DisableDrain.forRole (o : DisableDrain) : NodeRole → Option Bool
  | .controlPlane => o.controlPlane
  | .worker => o.worker

namespace Nodes

instance (selector : Option LabelSelector) (n : Node) : Decidable (Matches selector n) :=
  match h : (selector.getD {}).holds n.labels with
  | .ok true => isTrue h
  | .ok false => isFalse fun h' => nomatch h.symm.trans h'
  | .error _ => isFalse fun h' => nomatch h.symm.trans h'

/-- how many nodes a selector matches -/
def matchCount (nodes : List Node) (selector : Option LabelSelector) : Nat :=
  nodes.countP (Matches selector ·)

theorem matchCount_controlPlane (nodes : List Node) (label : String) :
    matchCount nodes (some (NodePlan.roleSelector .controlPlane label)) =
      nodes.countP (Node.isControlPlane label) := by
  refine List.countP_congr fun n _ => ?_
  rw [decide_eq_true_iff]
  exact NodePlan.matches_roleSelector .controlPlane label n

theorem matchCount_worker (nodes : List Node) (label : String) :
    matchCount nodes (some (NodePlan.roleSelector .worker label)) =
      nodes.length - nodes.countP (Node.isControlPlane label) := by
  have hmatched : matchCount nodes (some (NodePlan.roleSelector .worker label)) =
      nodes.countP fun n => !n.isControlPlane label := by
    refine List.countP_congr fun n _ => ?_
    rw [decide_eq_true_iff, Bool.not_eq_true']
    exact NodePlan.matches_roleSelector .worker label n
  have hlength := nodes.length_eq_countP_add_countP (Node.isControlPlane label)
  simp only [Bool.not_eq_true, Bool.decide_eq_false] at hlength
  omega

theorem roleCounts_eq (nodes : List Node) (label : String) :
    roleCounts nodes label =
      (matchCount nodes (some (NodePlan.roleSelector .controlPlane label)),
        matchCount nodes (some (NodePlan.roleSelector .worker label))) := by
  rw [matchCount_controlPlane, matchCount_worker]
  rfl

end Nodes

namespace DrainPolicy

theorem ofCounts_eq (controlPlane workers : Nat) :
    ofCounts controlPlane workers = ⟨decide (1 < controlPlane), decide (1 < workers)⟩ := by
  unfold ofCounts
  repeat' split
  all_goals simp only [mk.injEq, true_eq_decide_iff, false_eq_decide_iff]; omega

theorem forRole_override (p : DrainPolicy) (overrides : Option DisableDrain) (role : NodeRole) :
    (p.override overrides).forRole role = true ↔
      p.forRole role = true ∧ overrides.bind (·.forRole role) ≠ some true := by
  cases overrides with
  | none => exact ⟨fun h => ⟨h, nofun⟩, And.left⟩
  | some o =>
    cases role <;>
    · show (_ && _ != some true) = true ↔ _
      rw [Bool.and_eq_true, bne_iff_ne]
      rfl

/-- the nodes of a role are drained if there is more than one of them and the plan does not say
otherwise -/
theorem forRole_resolve (nodes : List Node) (label : String) (overrides : Option DisableDrain)
    (role : NodeRole) :
    (resolve nodes label overrides).forRole role = true ↔
      1 < Nodes.matchCount nodes (some (NodePlan.roleSelector role label)) ∧
        overrides.bind (·.forRole role) ≠ some true := by
  unfold resolve
  rw [forRole_override, Nodes.roleCounts_eq, ofCounts_eq]
  refine and_congr_left' ?_
  cases role <;> exact decide_eq_true_iff

/-- nothing that a plan says makes a node drain -/
theorem forRole_resolve_none {nodes : List Node} {label : String} {overrides : Option DisableDrain}
    {role : NodeRole} (h : (resolve nodes label overrides).forRole role = true) :
    (resolve nodes label none).forRole role = true :=
  (forRole_resolve ..).mpr ⟨((forRole_resolve ..).mp h).1, nofun⟩

end DrainPolicy

end ReleaseUpgrade
