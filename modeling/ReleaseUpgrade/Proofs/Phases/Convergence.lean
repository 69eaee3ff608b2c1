import ReleaseUpgrade.Proofs.Naming
import ReleaseUpgrade.Proofs.Phases.Order

/-!
# A phase that is done

A phase never looks at all nodes at once: each role has a node plan, and the plan has a selector.
Still all nodes have arrived when the phase is done, as long as the plans have the selectors that
they were built with.

* `Tier.converged`     the roles of a phase cover its nodes;
* `Status.Sets`        a step sets a condition to true;
* `SelectorsKept`      the node plans that it finds have the selectors of their roles;
* `SystemPhase.converged_of_yields`, `DistributionPhase.converged_of_yields`   then every node that
                       the step has read has arrived.
-/

namespace ReleaseUpgrade

/-- if the plans of the roles have the selectors of the roles, then every node has arrived once all
roles have -/
theorem Tier.converged {ctx : Context} (spec : Tier.Spec) {t : Trace}
    (harrived : ∀ role ∈ Tier.roles ctx spec.nodes, Tier.Arrived spec role t)
    (hselect : ∀ role existing, Tier.looked spec role (some existing) ∈ t →
      existing.spec.nodeSelector = some (NodePlan.roleSelector role ctx.settings.keys.controlPlane)) :
    ∀ n ∈ spec.nodes, n.Converged spec.target := by
  intro n hn
  have covered (role : NodeRole) (hrole : role ∈ Tier.roles ctx spec.nodes)
      (hmatch : Nodes.Matches
        (some (NodePlan.roleSelector role ctx.settings.keys.controlPlane)) n) :
      n.Converged spec.target := by
    obtain ⟨existing, hmem, _, hall⟩ := harrived role hrole
    exact hall n hn (by rw [hselect role existing hmem]; exact hmatch)
  cases hc : n.isControlPlane ctx.settings.keys.controlPlane with
  | true =>
    refine covered .controlPlane ?_ ((NodePlan.matches_roleSelector _ _ _).mpr hc)
    unfold Tier.roles
    split <;> exact List.mem_cons_self
  | false =>
    refine covered .worker ?_ ((NodePlan.matches_roleSelector _ _ _).mpr hc)
    have hworkers : Nodes.controlPlaneOnly spec.nodes ctx.settings.keys.controlPlane = false := by
      rw [Nodes.controlPlaneOnly, List.all_eq_false]
      exact ⟨n, hn, by rw [hc]; exact Bool.false_ne_true⟩
    rw [Tier.roles, hworkers]
    exact List.mem_cons_of_mem _ List.mem_cons_self

/-- the step leaves the condition true, and it was not before, or the step says so by its result -/
def Status.Sets (type : String) (before : Status) (r : Except UpgradeError Requeue)
    (after : Status) : Prop :=
  after.isSucceeded type = true ∧ (before.isSucceeded type = false ∨ r = .ok .immediately)

theorem Status.Held.not_sets {now : Instant} {type : String} {before after : Status}
    {r : Except UpgradeError Requeue} (h : Held now type before after)
    (hr : r = .ok .immediately → after.isSucceeded type = false) : ¬Sets type before r after := by
  rintro ⟨hafter, hbefore | hnow⟩
  · rw [← h.isSucceeded hafter, hafter] at hbefore
    cases hbefore
  · rw [hr hnow] at hafter
    cases hafter

theorem Tier.Waiting.not_sets {ctx : Context} {spec : Tier.Spec} {roles : List NodeRole}
    {before after : Status} {t : Trace} {p : Except UpgradeError Tier.Progress}
    {r : Except UpgradeError Requeue} (h : Tier.Waiting spec ctx roles before t p after)
    (hr : (∃ e, r = .error e) ∨ ∃ q, p = .ok q) : ¬Status.Sets spec.condition before r after := by
  refine h.held.not_sets ?_
  rintro rfl
  obtain ⟨_, he⟩ | ⟨q, hq⟩ := hr
  · cases he
  · exact h.unset q hq

/-- the node plans of the attempt that a step has found have the selectors of their roles -/
def SelectorsKept (ctx : Context) (before : Status) (name : NodeRole → String → String)
    (t : Trace) : Prop :=
  ∀ suffix role existing, before.namingSuffix = some suffix →
    .got .nodePlan ctx.settings.upgradeNamespace (name role suffix) (some existing) ∈ t →
    NodePlanSpec.nodeSelector (NodePlan.spec existing) =
      some (NodePlan.roleSelector role ctx.settings.keys.controlPlane)

section
variable {ctx : Context} {before after : Status} {t : Trace} {r : Except UpgradeError Requeue}

/-- the selectors are kept as long as the node plans that are found are those that were built -/
theorem SelectorsKept.of_built (spec : Tier.Spec) {name : NodeRole → String → String}
    {suffix : String} (hsuffix : before.namingSuffix = some suffix)
    (hrole : ∀ role role', name role suffix = name role' suffix → role = role')
    (hselector : ∀ role, (spec.plan role).spec.nodeSelector =
      some (NodePlan.roleSelector role ctx.settings.keys.controlPlane))
    (hbuilt : ∀ ns n existing, .got .nodePlan ns n (some existing) ∈ t →
      ∃ role, n = name role suffix ∧ existing = spec.plan role) :
    SelectorsKept ctx before name t := by
  intro suffix' role existing hs hmem
  obtain rfl := Option.some.inj (hsuffix.symm.trans hs)
  obtain ⟨role', hname, rfl⟩ := hbuilt _ _ _ hmem
  obtain rfl := hrole role role' hname
  exact hselector role

/-- the step of the operating system that sets its condition has found all nodes there -/
theorem SystemPhase.converged_of_yields {releaseVersion : String} {os : OperatingSystem}
    (h : (SystemPhase.step ctx releaseVersion os).Yields before t r after)
    (hselect : SelectorsKept ctx before
      (fun role suffix => Naming.osPlan role os.zypperId os.version suffix) t)
    (hsets : Status.Sets Status.osUpgraded before r after) :
    ∃ nodes u, t = .listed .node none nodes :: u ∧ ∀ n ∈ nodes,
      n.Converged (.osImage os.prettyName) ∧
        ∃ a ∈ os.supportedArchs, a.isReportedAs n.architecture = true := by
  cases SystemPhase.course_of_yields h with
  | unable _ hne hheld => exact absurd hsets (hheld.not_sets fun he => absurd he hne)
  | refused | prepared => exact absurd hsets ((Status.Held.refl ctx.now _ before).not_sets nofun)
  | waiting _ _ _ _ hw hr => exact absurd hsets (hw.not_sets hr)
  | done nodes suffix secret _ hfit _ harrived =>
    refine ⟨nodes, _, rfl, fun n hn => ⟨?_, Nodes.isReportedAs_of_unsupported hfit.supported hn⟩⟩
    refine Tier.converged (SystemPhase.tiers ctx releaseVersion os nodes suffix) harrived
      (fun role existing hmem => ?_) n hn
    rw [SystemPhase.looked_tiers] at hmem
    exact hselect suffix role existing hfit.named
      (List.mem_cons_of_mem _ (List.mem_cons_of_mem _ hmem))

/-- the step of the distribution that sets its condition has found all nodes there, and nothing left
to do for the core components -/
theorem DistributionPhase.converged_of_yields {targets : KubernetesTargets}
    (h : (DistributionPhase.step ctx targets).Yields before t r after)
    (hselect : ∀ nodes d, .listed .node none nodes ∈ t → Distribution.detect nodes = .ok d →
      SelectorsKept ctx before
        (fun role suffix => Naming.kubernetesPlan role (d.target targets).version suffix) t)
    (hsets : Status.Sets Status.kubernetesUpgraded before r after) :
    ∃ nodes d u, t = .listed .node none nodes :: u ∧ Distribution.detect nodes = .ok d ∧
      (∀ n ∈ nodes, n.Converged (.kubelet (d.target targets).version)) ∧
        ∀ c ∈ (d.target targets).coreComponents, c.Settled ctx.settings u := by
  cases DistributionPhase.course_of_yields h with
  | unable => exact absurd hsets ((Status.Held.refl ctx.now _ before).not_sets nofun)
  | waiting _ _ _ _ hw hr => exact absurd hsets (hw.not_sets hr)
  | following _ _ _ _ _ _ hheld hopen => exact absurd hsets (hheld.not_sets (hopen _))
  | @done nodes d suffix _ t u hknown _ harrived _ hsettled =>
    refine ⟨nodes, d, t ++ u, rfl, hknown.detected, fun n hn => ?_, fun c hc => ?_⟩
    · refine Tier.converged (DistributionPhase.spec ctx targets d nodes suffix) harrived
        (fun role existing hmem => ?_) n hn
      rw [DistributionPhase.looked_spec] at hmem
      exact hselect nodes d List.mem_cons_self hknown.detected suffix role existing hknown.named
        (List.mem_cons_of_mem _ (List.mem_append_left u hmem))
    · exact (hsettled c hc).mono fun x hx => List.mem_append_right t hx

end

/-- a step that sets the condition of the operating system has read a list of nodes that have all
arrived and have a supported architecture; one that sets the condition of the distribution has read
a list of nodes that have all arrived, and has found nothing left to do for the core components -/
theorem converged_of_sets (ctx : Context) (before after : Status) (t : Trace)
    (r : Except UpgradeError Requeue) :
    (∀ releaseVersion os, (SystemPhase.step ctx releaseVersion os).Yields before t r after →
      SelectorsKept ctx before
        (fun role suffix => Naming.osPlan role os.zypperId os.version suffix) t →
      Status.Sets Status.osUpgraded before r after →
      ∃ nodes u, t = .listed .node none nodes :: u ∧ ∀ n ∈ nodes,
        n.Converged (.osImage os.prettyName) ∧
          ∃ a ∈ os.supportedArchs, a.isReportedAs n.architecture = true) ∧
    ∀ targets, (DistributionPhase.step ctx targets).Yields before t r after →
      (∀ nodes d, .listed .node none nodes ∈ t → Distribution.detect nodes = .ok d →
        SelectorsKept ctx before
          (fun role suffix => Naming.kubernetesPlan role (d.target targets).version suffix) t) →
      Status.Sets Status.kubernetesUpgraded before r after →
      ∃ nodes d u, t = .listed .node none nodes :: u ∧ Distribution.detect nodes = .ok d ∧
        (∀ n ∈ nodes, n.Converged (.kubelet (d.target targets).version)) ∧
          ∀ c ∈ (d.target targets).coreComponents, c.Settled ctx.settings u := by
  constructor
  · intro releaseVersion os h hselect hsets
    exact SystemPhase.converged_of_yields h hselect hsets
  · intro targets h hselect hsets
    exact DistributionPhase.converged_of_yields h hselect hsets

namespace TwoTiers
open OneNode (context os status targets)

/-- the worker has everything -/
def arrived : List Node := [OneNode.node, worker "SUSE Linux Micro 6.0" "v1.30.3+rke2r1"]

/-- the pass that ends the operating system finds both node plans and all nodes arrived -/
def systemTrace : Trace :=
  [.listed .node none halfway, SystemPhase.looked context "0a1b2c3d4e" (some {}),
    Tier.looked (system halfway) .controlPlane (some ((system halfway).plan .controlPlane)),
    Tier.looked (system halfway) .worker (some ((system halfway).plan .worker))]

/-- so does the one that ends the distribution; the core component is not there -/
def distributionTrace : Trace :=
  [.listed .node none arrived,
    Tier.looked (distribution arrived) .controlPlane
      (some ((distribution arrived).plan .controlPlane)),
    Tier.looked (distribution arrived) .worker (some ((distribution arrived).plan .worker)),
    .got .helmChart "kube-system" "rke2-coredns" none]

theorem systemTrace_yields :
    (SystemPhase.step context "3.1.0" os).Yields status systemTrace (.ok .immediately)
      (status.setCondition ⟨0, 0⟩ Status.osUpgraded .succeeded "All cluster nodes are upgraded") :=
  ⟨.ok halfway, _, rfl, .ok (some {}), _, rfl, .ok (some ((system halfway).plan .controlPlane)), _,
    rfl, .ok (some ((system halfway).plan .worker)), _, rfl, rfl, rfl⟩

theorem distributionTrace_yields :
    (DistributionPhase.step context targets).Yields status distributionTrace (.ok .immediately)
      (status.setCondition ⟨0, 0⟩ Status.kubernetesUpgraded .succeeded
        "All cluster nodes are upgraded") :=
  ⟨.ok arrived, _, rfl, .ok (some ((distribution arrived).plan .controlPlane)), _, rfl,
    .ok (some ((distribution arrived).plan .worker)), _, rfl, .ok none, _, rfl, rfl, rfl⟩

theorem system_selectorsKept :
    SelectorsKept context status
      (fun role suffix => Naming.osPlan role os.zypperId os.version suffix) systemTrace := by
  refine .of_built (system halfway) rfl (fun _ _ => Naming.osPlan_role)
    (fun role => by cases role <;> rfl) fun ns n existing hmem => ?_
  simp only [systemTrace, system, SystemPhase.looked_tiers, List.mem_cons, List.not_mem_nil,
    or_false] at hmem
  obtain he | he | he | he := hmem
  · cases he
  · cases he
  · obtain ⟨_, rfl, he⟩ := Exchange.got_inj he
    cases he
    exact ⟨.controlPlane, rfl, rfl⟩
  · obtain ⟨_, rfl, he⟩ := Exchange.got_inj he
    cases he
    exact ⟨.worker, rfl, rfl⟩

/-- the pass of the distribution has listed the nodes once -/
theorem eq_arrived {nodes : List Node} (h : .listed .node none nodes ∈ distributionTrace) :
    nodes = arrived := by
  simp only [distributionTrace, List.mem_cons, List.not_mem_nil, or_false] at h
  obtain he | he | he | he := h
  · cases he
    rfl
  · cases he
  · cases he
  · cases he

theorem distribution_selectorsKept {nodes : List Node} {d : Distribution}
    (hnodes : .listed .node none nodes ∈ distributionTrace)
    (hd : Distribution.detect nodes = .ok d) :
    SelectorsKept context status
      (fun role suffix => Naming.kubernetesPlan role (d.target targets).version suffix)
      distributionTrace := by
  cases eq_arrived hnodes
  cases hd
  refine .of_built (distribution arrived) rfl (fun _ _ => Naming.kubernetesPlan_role)
    (fun role => by cases role <;> rfl) fun ns n existing hmem => ?_
  simp only [distributionTrace, distribution, DistributionPhase.looked_spec, List.mem_cons,
    List.not_mem_nil, or_false] at hmem
  obtain he | he | he | he := hmem
  · cases he
  · obtain ⟨_, rfl, he⟩ := Exchange.got_inj he
    cases he
    exact ⟨.controlPlane, rfl, rfl⟩
  · obtain ⟨_, rfl, he⟩ := Exchange.got_inj he
    cases he
    exact ⟨.worker, rfl, rfl⟩
  · cases he

end TwoTiers

open TwoTiers in
theorem converged_of_sets_twoTiers :
    (∀ n ∈ halfway, n.Converged (.osImage "SUSE Linux Micro 6.0") ∧
      ∃ a ∈ [Arch.x86], a.isReportedAs n.architecture = true) ∧
    (∀ n ∈ arrived, n.Converged (.kubelet "v1.30.3+rke2r1")) ∧
    ∀ c ∈ [CoreComponent.chart "rke2-coredns" "1.29.4"],
      c.Settled OneNode.context.settings distributionTrace.tail := by
  obtain ⟨hsystem, _⟩ := converged_of_sets OneNode.context OneNode.status _ systemTrace _
  obtain ⟨_, _, hlisted, himage⟩ :=
    hsystem "3.1.0" OneNode.os systemTrace_yields system_selectorsKept ⟨rfl, .inr rfl⟩
  cases hlisted
  obtain ⟨_, hdistribution⟩ :=
    converged_of_sets OneNode.context OneNode.status _ distributionTrace _
  obtain ⟨_, _, _, hlisted, hd, hkubelet, hsettled⟩ :=
    hdistribution OneNode.targets distributionTrace_yields
      (fun _ _ => distribution_selectorsKept) ⟨rfl, .inr rfl⟩
  cases hlisted
  cases hd
  exact ⟨himage, hkubelet, hsettled⟩

end ReleaseUpgrade
