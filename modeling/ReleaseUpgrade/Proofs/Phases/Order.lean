import ReleaseUpgrade.Proofs.Phases.Run

/-!
# The order of the stages

What a pass may write depends on how far the upgrade has come.  The node plans of a phase are told
apart by how they are built, and each of them has its conditions.

* `NodePlan.IsSystem`, `NodePlan.IsDistribution`   the node plans of the two phases;
* `Upgrade.SystemReady`, `Upgrade.DistributionReady`, `Upgrade.ChartReady`   what holds when a node
                                     plan is created or a chart resource is written;
* `Upgrade.ordered_of_yields`        it holds whenever a pass does so.
-/

namespace ReleaseUpgrade

namespace NodePlan

/-- the plan upgrades the operating system on the nodes of a role -/
def IsSystem (role : NodeRole) (o : NodePlan) : Prop :=
  ∃ settings releaseVersion os suffix drain identity,
    o = ofSystem settings role releaseVersion os suffix drain identity

/-- the plan upgrades the distribution on the nodes of a role -/
def IsDistribution (role : NodeRole) (o : NodePlan) : Prop :=
  ∃ settings d version suffix drain identity,
    o = ofKubernetes settings role d version suffix drain identity

section
variable {role role' : NodeRole} {o : NodePlan}

theorem IsSystem.secrets_ne_nil (h : o.IsSystem role) : o.spec.secrets ≠ [] := by
  obtain ⟨_, _, _, _, _, _, rfl⟩ := h
  cases role <;> exact List.cons_ne_nil _ _

theorem IsDistribution.secrets_eq_nil (h : o.IsDistribution role) : o.spec.secrets = [] := by
  obtain ⟨_, _, _, _, _, _, rfl⟩ := h
  cases role <;> rfl

theorem IsSystem.not_isDistribution (h : o.IsSystem role) : ¬o.IsDistribution role' :=
  fun h' => h.secrets_ne_nil h'.secrets_eq_nil

/-- how many nodes a node plan of a role upgrades at a time -/
def concurrency : NodeRole → Int
  | .controlPlane => 1
  | .worker => 2

theorem IsSystem.concurrency_eq (h : o.IsSystem role) : o.spec.concurrency = concurrency role := by
  obtain ⟨_, _, _, _, _, _, rfl⟩ := h
  cases role <;> rfl

theorem IsDistribution.concurrency_eq (h : o.IsDistribution role) :
    o.spec.concurrency = concurrency role := by
  obtain ⟨_, _, _, _, _, _, rfl⟩ := h
  cases role <;> rfl

theorem role_eq_of_concurrency (h : concurrency role = concurrency role') : role = role' := by
  cases role <;> cases role' <;> first | rfl | cases h

end

end NodePlan

/-- the workers come after the control plane -/
theorem Tier.controlPlane_before_worker {ctx : Context} {nodes : List Node}
    {pre post : List NodeRole} (h : Tier.roles ctx nodes = pre ++ .worker :: post) :
    .controlPlane ∈ pre := by
  cases pre with
  | nil =>
    unfold Tier.roles at h
    split at h <;> cases h
  | cons role pre =>
    unfold Tier.roles at h
    split at h <;> (obtain ⟨rfl, _⟩ := List.cons.inj h; exact List.mem_cons_self)

namespace Upgrade

section
variable (ctx : Context) (before : Status) (past : Trace)

/-- when a node plan of the operating system is created: the secret of the attempt has been found
and all nodes have a supported architecture; for the workers, the node plan of the control plane has
been found and the nodes that it selects have arrived -/
def SystemReady (role : NodeRole) (o : NodePlan) : Prop :=
  ∃ m nodes suffix, ManifestPhase.Resolved ctx past (some m) ∧
    .listed .node none nodes ∈ past ∧ before.namingSuffix = some suffix ∧
    let os := m.spec.components.operatingSystem
    let name role := Naming.osPlan role os.zypperId os.version suffix
    o.metadata.nameAny = name role ∧
    (∃ secret : Secret, .got .secret ctx.settings.upgradeNamespace (Naming.osSecret suffix)
      (some secret) ∈ past) ∧
    (∀ n ∈ nodes, ∃ a ∈ os.supportedArchs, a.isReportedAs n.architecture = true) ∧
    (role = .worker → ∃ existing : NodePlan,
      .got .nodePlan ctx.settings.upgradeNamespace (name .controlPlane) (some existing) ∈ past ∧
        Nodes.Arrived nodes existing.spec.nodeSelector (.osImage os.prettyName))

/-- when a node plan of the distribution is created: the operating system is done; for the workers,
the node plan of the control plane has been found and the nodes that it selects have arrived -/
def DistributionReady (role : NodeRole) (o : NodePlan) : Prop :=
  before.isSucceeded Status.osUpgraded = true ∧
  ∃ m nodes d suffix, ManifestPhase.Resolved ctx past (some m) ∧
    .listed .node none nodes ∈ past ∧ Distribution.detect nodes = .ok d ∧
    before.namingSuffix = some suffix ∧
    let target := d.target m.spec.components.kubernetes
    let name role := Naming.kubernetesPlan role target.version suffix
    o.metadata.nameAny = name role ∧
    (role = .worker → ∃ existing : NodePlan,
      .got .nodePlan ctx.settings.upgradeNamespace (name .controlPlane) (some existing) ∈ past ∧
        Nodes.Arrived nodes existing.spec.nodeSelector (.kubelet target.version))

/-- when a chart resource is written: operating system and distribution are done, and the chart
belongs to the workload that has its turn -/
def ChartReady (o : HelmChart) : Prop :=
  before.isSucceeded Status.osUpgraded = true ∧
  before.isSucceeded Status.kubernetesUpgraded = true ∧
  ∃ m w, ManifestPhase.Resolved ctx past (some m) ∧ Turn before m.spec.components.workloads w ∧
    ∃ chart ∈ Workload.charts w, o.spec.chart = chart.name ∧ o.spec.version = chart.version

end

section
variable {ctx : Context} {before after : Status} {past t : Trace}
  {r : Except UpgradeError Requeue}

theorem Licensed.nodePlan {o : NodePlan} (h : Licensed ctx before past (.create .nodePlan o)) :
    (∃ role, o.IsSystem role ∧ SystemReady ctx before past role o) ∨
      ∃ role, o.IsDistribution role ∧ DistributionReady ctx before past role o := by
  cases h with
  | system m hresolved hos hallowed =>
    cases hallowed with
    | plan nodes suffix secret hnodes hfit hsecret htier =>
      obtain ⟨pre, role, post, hroles, hc, hnone, hpre⟩ := htier
      cases hc
      -- left are the name of the node plan, the architectures and the control plane
      refine .inl ⟨role, ⟨_, _, _, _, _, _, rfl⟩, m, nodes, suffix, hresolved, hnodes, hfit.named,
        ?_, ⟨secret, hsecret⟩, ?_, ?_⟩
      · cases role <;> rfl
      · intro n hn
        exact Nodes.isReportedAs_of_unsupported hfit.supported hn
      · rintro rfl
        obtain ⟨existing, hmem, harrived⟩ := hpre _ (Tier.controlPlane_before_worker hroles)
        rw [SystemPhase.looked_tiers] at hmem
        exact ⟨existing, hmem, harrived⟩
  | distribution m hresolved hos hk hallowed =>
    obtain ⟨nodes, d, suffix, hnodes, hknown, pre, role, post, hroles, hc, hnone, hpre⟩ := hallowed
    cases hc
    refine .inr ⟨role, ⟨_, _, _, _, _, _, rfl⟩, hos, m, nodes, d, suffix, hresolved, hnodes,
      hknown.detected, hknown.named, ?_, ?_⟩
    · cases role <;> rfl
    · rintro rfl
      obtain ⟨existing, hmem, harrived⟩ := hpre _ (Tier.controlPlane_before_worker hroles)
      rw [DistributionPhase.looked_spec] at hmem
      exact ⟨existing, hmem, harrived⟩
  | workload m w hresolved hos hk hturn hallowed =>
    obtain ⟨resources, _, chart, _, hallowed⟩ := hallowed
    cases hallowed

theorem Licensed.helmChart {c : Call} {o : HelmChart} (h : Licensed ctx before past c)
    (hc : c = .create .helmChart o ∨ c = .replace .helmChart o) :
    ChartReady ctx before past o := by
  cases h with
  | install => obtain hc | hc := hc <;> cases hc
  | system m _ _ hallowed =>
    cases hallowed with
    | secret => obtain hc | hc := hc <;> cases hc
    | plan _ _ _ _ _ _ htier =>
      obtain ⟨_, _, _, _, rfl, _⟩ := htier
      obtain hc | hc := hc <;> cases hc
  | distribution m _ _ _ hallowed =>
    obtain ⟨_, _, _, _, _, _, _, _, _, rfl, _⟩ := hallowed
    obtain hc | hc := hc <;> cases hc
  | workload m w hresolved hos hk hturn hallowed =>
    obtain ⟨resources, _, chart, hchart, hallowed⟩ := hallowed
    refine ⟨hos, hk, m, w, hresolved, hturn, chart, hchart, ?_⟩
    cases hallowed with
    | create => obtain hc | hc := hc <;> cases hc; exact ⟨rfl, rfl⟩
    | replace => obtain hc | hc := hc <;> cases hc; exact ⟨rfl, rfl⟩

/-- whatever the status before a pass, whatever has happened to the cluster and whichever of its
calls fail: each node plan that it creates is one of the two phases and of one role and is ready to
be created, and each chart resource that it writes is ready to be written -/
theorem ordered_of_yields {suffix : String} (h : (step ctx suffix).Yields before t r after)
    {x : Exchange} {rest : Trace} (hcut : t = past ++ x :: rest) :
    (∀ o : NodePlan, x.call = .create .nodePlan o →
      ∃ role, o.IsSystem role ∨ o.IsDistribution role) ∧
    (∀ role (o : NodePlan), x.call = .create .nodePlan o → o.IsSystem role →
      SystemReady ctx before past role o) ∧
    (∀ role (o : NodePlan), x.call = .create .nodePlan o → o.IsDistribution role →
      DistributionReady ctx before past role o) ∧
    ∀ o : HelmChart, x.call = .create .helmChart o ∨ x.call = .replace .helmChart o →
      ChartReady ctx before past o := by
  subst hcut
  have licensed (hw : x.call.writes = true) : Licensed ctx before past x.call :=
    (guarded_of_yields h).at hw
  have planned (o : NodePlan) (hx : x.call = .create .nodePlan o) :=
    (hx ▸ licensed (by rw [hx]; rfl) : Licensed ctx before past (.create .nodePlan o)).nodePlan
  refine ⟨fun o hx => ?_, fun role o hx ho => ?_, fun role o hx ho => ?_, fun o hx => ?_⟩
  · obtain ⟨role, ho, _⟩ | ⟨role, ho, _⟩ := planned o hx
    · exact ⟨role, .inl ho⟩
    · exact ⟨role, .inr ho⟩
  · obtain ⟨role', ho', hready⟩ | ⟨_, ho', _⟩ := planned o hx
    · obtain rfl := NodePlan.role_eq_of_concurrency (ho'.concurrency_eq ▸ ho.concurrency_eq)
      exact hready
    · exact absurd ho' ho.not_isDistribution
  · obtain ⟨_, ho', _⟩ | ⟨role', ho', hready⟩ := planned o hx
    · exact absurd ho ho'.not_isDistribution
    · obtain rfl := NodePlan.role_eq_of_concurrency (ho'.concurrency_eq ▸ ho.concurrency_eq)
      exact hready
  · exact (licensed (by obtain hx | hx := hx <;> rw [hx] <;> rfl)).helmChart hx

end

end Upgrade

namespace OneNode

/-- a cluster of one node, in the middle of an attempt -/
def context : Context where
  settings := {}
  plan := { spec := { releaseVersion := "3.1.0" } }
  now := ⟨0, 0⟩

def status : Status := { namingSuffix := some "0a1b2c3d4e" }

def node : Node where
  metadata := {
    name := some "node-1"
    labels := some [("node-role.kubernetes.io/control-plane", "true")] }
  status := some {
    conditions := some [{ type := "Ready", status := "True" }]
    info := some {
      architecture := "x86_64"
      kubeletVersion := "v1.30.3+rke2r1"
      osImage := "SUSE Linux Micro 6.0" } }

def os : OperatingSystem :=
  { version := "6.0", zypperId := "SL-Micro", supportedArchs := [.x86]
    prettyName := "SUSE Linux Micro 6.0" }

def targets : KubernetesTargets :=
  { rke2 := { version := "v1.30.3+rke2r1", coreComponents := [.chart "rke2-coredns" "1.29.4"] } }

def manifest : ReleaseManifest where
  spec := { releaseVersion := "3.1.0", components := { operatingSystem := os } }

/-- the node plan of the operating system for the only role -/
def osPlan : NodePlan :=
  (SystemPhase.tiers context "3.1.0" os [node] "0a1b2c3d4e").plan .controlPlane

/-- what a pass does before it creates the node plan -/
def beforePlan : Trace :=
  [.listed .releaseManifest (some "") [manifest], .listed .node none [node],
    SystemPhase.looked context "0a1b2c3d4e" (some {}),
    Tier.looked (SystemPhase.tiers context "3.1.0" os [node] "0a1b2c3d4e") .controlPlane none]

theorem plan_yields : ∃ event after,
    (Upgrade.step context "ffffffffff").Yields status
      (beforePlan ++ [.created .nodePlan osPlan, ⟨.publishEvent context.plan event, .ok ()⟩])
      (.ok none) after :=
  ⟨_, _, .ok [manifest], _, rfl, .ok [node], _, rfl, .ok (some {}), _, rfl, .ok none, _, rfl,
    .ok (), _, rfl, .ok (), _, rfl, rfl, rfl⟩

end OneNode

namespace TwoTiers
open OneNode (context node os status targets)

/-- a node outside the control plane -/
def worker (osImage kubeletVersion : String) : Node where
  metadata := { name := some "node-2" }
  status := some {
    conditions := some [{ type := "Ready", status := "True" }]
    info := some { architecture := "x86_64", kubeletVersion, osImage } }

/-- the worker has nothing yet, or only the operating system -/
def late : List Node := [node, worker "SUSE Linux Micro 5.5" "v1.29.8+rke2r1"]

def halfway : List Node := [node, worker "SUSE Linux Micro 6.0" "v1.29.8+rke2r1"]

def system (nodes : List Node) : Tier.Spec :=
  SystemPhase.tiers context "3.1.0" os nodes "0a1b2c3d4e"

def distribution (nodes : List Node) : Tier.Spec :=
  DistributionPhase.spec context targets .rke2 nodes "0a1b2c3d4e"

def metal : ReleaseChart :=
  { releaseName := "metal3", name := "metal3", version := "0.8.0", prettyName := "Metal3" }

def rancher : ReleaseChart :=
  { releaseName := "rancher", name := "rancher", version := "2.9.3", prettyName := "Rancher" }

def manifest : ReleaseManifest where
  spec := {
    releaseVersion := "3.1.0"
    components := { operatingSystem := os, kubernetes := targets, workloads := [metal, rancher] } }

/-- the status in which these conditions are true -/
def done (types : List String) : Status :=
  { status with conditions := types.map fun type => ⟨type, .isTrue, .succeeded, "", ⟨0, 0⟩⟩ }

/-- what a pass does before it creates the node plan of the operating system for the worker -/
def beforeSystem : Trace :=
  [.listed .releaseManifest (some "") [manifest], .listed .node none late,
    SystemPhase.looked context "0a1b2c3d4e" (some {}),
    Tier.looked (system late) .controlPlane (some ((system late).plan .controlPlane)),
    Tier.looked (system late) .worker none]

/-- what a pass does before it creates the node plan of the distribution for the worker -/
def beforeDistribution : Trace :=
  [.listed .releaseManifest (some "") [manifest], .listed .node none halfway,
    Tier.looked (distribution halfway) .controlPlane
      (some ((distribution halfway).plan .controlPlane)),
    Tier.looked (distribution halfway) .worker none]

/-- the second workload as it is installed -/
def installed : HelmRelease :=
  { name := "rancher", ns := "cattle-system", chartVersion := "2.8.5" }

/-- what a pass does before it takes over the second workload -/
def beforeChart : Trace :=
  [.listed .releaseManifest (some "") [manifest], .listed .helmChart none [],
    .found "rancher" (some installed)]

theorem system_yields : ∃ event after,
    (Upgrade.step context "ffffffffff").Yields (done [])
      (beforeSystem ++ [.created .nodePlan ((system late).plan .worker),
        ⟨.publishEvent context.plan event, .ok ()⟩]) (.ok none) after :=
  ⟨_, _, .ok [manifest], _, rfl, .ok late, _, rfl, .ok (some {}), _, rfl,
    .ok (some ((system late).plan .controlPlane)), _, rfl, .ok none, _, rfl, .ok (), _, rfl,
    .ok (), _, rfl, rfl, rfl⟩

theorem distribution_yields : ∃ event after,
    (Upgrade.step context "ffffffffff").Yields (done [Status.osUpgraded])
      (beforeDistribution ++ [.created .nodePlan ((distribution halfway).plan .worker),
        ⟨.publishEvent context.plan event, .ok ()⟩]) (.ok none) after :=
  ⟨_, _, .ok [manifest], _, rfl, .ok halfway, _, rfl,
    .ok (some ((distribution halfway).plan .controlPlane)), _, rfl, .ok none, _, rfl,
    .ok (), _, rfl, .ok (), _, rfl, rfl, rfl⟩

theorem chart_yields : ∃ event after,
    (Upgrade.step context "ffffffffff").Yields
      (done [Status.osUpgraded, Status.kubernetesUpgraded, "Metal3Upgraded"])
      (beforeChart ++ [.created .helmChart (Evaluation.adoption context rancher installed ""),
        ⟨.publishEvent context.plan event, .ok ()⟩]) (.ok none) after :=
  ⟨_, _, .ok [manifest], _, rfl, .ok [], _, rfl, .ok (some installed), _, rfl,
    .ok (), _, rfl, .ok (), _, rfl, rfl, rfl⟩

end TwoTiers

open TwoTiers in
theorem Upgrade.ordered_of_yields_twoTiers :
    SystemReady OneNode.context OneNode.status OneNode.beforePlan .controlPlane OneNode.osPlan ∧
    SystemReady OneNode.context (done []) beforeSystem .worker ((system late).plan .worker) ∧
    DistributionReady OneNode.context (done [Status.osUpgraded]) beforeDistribution .worker
      ((distribution halfway).plan .worker) ∧
    ChartReady OneNode.context
      (done [Status.osUpgraded, Status.kubernetesUpgraded, "Metal3Upgraded"]) beforeChart
      (Evaluation.adoption OneNode.context rancher installed "") := by
  obtain ⟨_, _, hplan⟩ := OneNode.plan_yields
  obtain ⟨_, _, hsystem⟩ := system_yields
  obtain ⟨_, _, hdistribution⟩ := distribution_yields
  obtain ⟨_, _, hchart⟩ := chart_yields
  refine ⟨?_, ?_, ?_, ?_⟩
  · exact (ordered_of_yields hplan rfl).2.1 .controlPlane _ rfl ⟨_, _, _, _, _, _, rfl⟩
  · exact (ordered_of_yields hsystem rfl).2.1 .worker _ rfl ⟨_, _, _, _, _, _, rfl⟩
  · exact (ordered_of_yields hdistribution rfl).2.2.1 .worker _ rfl ⟨_, _, _, _, _, _, rfl⟩
  · exact (ordered_of_yields hchart rfl).2.2.2 _ (.inl rfl)

end ReleaseUpgrade
