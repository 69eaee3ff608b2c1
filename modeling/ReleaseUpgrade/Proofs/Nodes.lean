import ReleaseUpgrade.NodePlan.Build
import ReleaseUpgrade.Nodes

/-!
# The nodes of the roles

* `Nodes.Matches`                 a selector matches a node;
* `Nodes.Arrived`                 some node is matched, and every node that is has arrived;
* `Nodes.arrived_of_upgraded`     that is what `Nodes.upgraded` finds out;
* `NodePlan.matches_roleSelector` the selectors of the two roles part the nodes as the label of the
                                  control plane does: each node is matched by exactly one of them.
-/

namespace ReleaseUpgrade

/-- the node is ready, takes pods and runs the target -/
structure Node.Converged (target : NodeTarget) (n : Node) : Prop where
  ready : n.isReady = true
  schedulable : n.isSchedulable = true
  reports : n.reports target = true

theorem Node.converged_of_isUpgraded {target : NodeTarget} {n : Node}
    (h : n.isUpgraded target = true) : n.Converged target := by
  rw [isUpgraded, Bool.and_eq_true, Bool.and_eq_true] at h
  exact ⟨h.1.1, h.1.2, h.2⟩

namespace Nodes

/-- the selector of a node plan, the empty one if it has none, matches the node -/
def Matches (selector : Option LabelSelector) (n : Node) : Prop :=
  (selector.getD {}).holds n.labels = .ok true

/-- at least one node is matched, and every node that is matched has arrived at the target -/
def Arrived (nodes : List Node) (selector : Option LabelSelector) (target : NodeTarget) : Prop :=
  (∃ n ∈ nodes, Matches selector n) ∧ ∀ n ∈ nodes, Matches selector n → n.Converged target

section
variable {nodes found : List Node} {selector : Option LabelSelector} {target : NodeTarget}

theorem mem_select {s : LabelSelector} (h : select s nodes = .ok found) (n : Node) :
    n ∈ found ↔ n ∈ nodes ∧ s.holds n.labels = .ok true := by
  induction nodes generalizing found with
  | nil =>
    cases h
    exact ⟨nofun, fun h => absurd h.1 List.not_mem_nil⟩
  | cons m rest ih =>
    unfold select at h
    split at h
    · cases h
    rename_i matched hm
    split at h
    · cases h
    rename_i others ho
    cases h
    rw [List.mem_cons, or_and_right, ← ih ho]
    cases matched with
    | true =>
      rw [if_pos rfl, List.mem_cons]
      refine or_congr_left ⟨fun he => ⟨he, ?_⟩, And.left⟩
      rw [he]
      exact hm
    | false =>
      rw [if_neg Bool.false_ne_true]
      refine ⟨.inr, fun h => h.resolve_left ?_⟩
      rintro ⟨rfl, hn⟩
      rw [hm] at hn
      cases hn

theorem matching_eq_ok (h : matching nodes selector = .ok found) :
    found ≠ [] ∧ ∀ n, n ∈ found ↔ n ∈ nodes ∧ Matches selector n := by
  unfold matching at h
  dsimp only at h
  split at h
  · cases h
  · cases h
  · rename_i hne hselect
    cases h
    exact ⟨hne, mem_select hselect⟩

/-- the nodes that a selector matches are upgraded: there are some, and all of them have arrived -/
theorem arrived_of_upgraded (h : upgraded nodes selector target = .ok true) :
    Arrived nodes selector target := by
  unfold upgraded at h
  split at h
  · cases h
  rename_i found hfound
  obtain ⟨hne, hmem⟩ := matching_eq_ok hfound
  have hall : allUpgraded found target = true := Except.ok.inj h
  rw [allUpgraded, List.all_eq_true] at hall
  obtain ⟨n, hn⟩ := List.exists_mem_of_ne_nil found hne
  refine ⟨⟨n, (hmem n).mp hn⟩, fun m hm hmatch => ?_⟩
  exact Node.converged_of_isUpgraded (hall m ((hmem m).mpr ⟨hm, hmatch⟩))

theorem isReportedAs_of_unsupported {archs : List Arch}
    (h : unsupported nodes archs = []) {n : Node} (hn : n ∈ nodes) :
    ∃ a ∈ archs, a.isReportedAs n.architecture = true := by
  rw [unsupported, List.map_eq_nil_iff, List.filter_eq_nil_iff] at h
  have hany := h n hn
  rw [Bool.not_eq_true, Bool.not_eq_false', List.any_eq_true] at hany
  exact hany

end

end Nodes

namespace NodePlan

theorem holds_roleSelector (role : NodeRole) (label : String) (labels : Dict String) :
    (roleSelector role label).holds labels = .ok (match role with
      | .controlPlane => Dict.get? label labels = some "true"
      | .worker => Dict.get? label labels ≠ some "true") := by
  cases hl : Dict.get? label labels with
  | none => cases role <;> simp [LabelSelector.holds, roleSelector, Requirement.allHold,
      Requirement.holds, hl]
  | some v =>
    by_cases hv : v = "true" <;> cases role <;>
      simp [LabelSelector.holds, roleSelector, Requirement.allHold, Requirement.holds, hl, hv]

/-- the selectors of the roles part the nodes by the label of the control plane -/
theorem matches_roleSelector (role : NodeRole) (label : String) (n : Node) :
    Nodes.Matches (some (roleSelector role label)) n ↔
      match role with
      | .controlPlane => n.isControlPlane label = true
      | .worker => n.isControlPlane label = false := by
  rw [Nodes.Matches, Option.getD_some, holds_roleSelector]
  cases role with
  | controlPlane => exact ⟨Except.ok.inj, congrArg Except.ok⟩
  | worker =>
    show Except.ok (decide (n.label? label ≠ some "true")) = Except.ok true ↔
      decide (n.label? label = some "true") = false
    rw [Except.ok.injEq, decide_eq_true_iff, decide_eq_false_iff_not]

end NodePlan

end ReleaseUpgrade
