import ReleaseUpgrade.Phases.Distribution
import ReleaseUpgrade.Phases.Manifest
import ReleaseUpgrade.Phases.System
import ReleaseUpgrade.Phases.Workload
import ReleaseUpgrade.Proofs.Cluster.Writes
import ReleaseUpgrade.Proofs.Upgrade.Conditions

/-!
# What a phase leaves alone

A phase says how far it has come in one condition of the status that it works on.  Whatever the
answers of the cluster and wherever the phase ends, it changes nothing else in that status, it never
makes its condition pending, it does not write to the plan in the cluster, and it does not say that
the upgrade has come to its end.

* `Action.Makes P a`           all calls of the action are of a sort;
* `Action.Spares a`            no call of the action writes to the plan or announces the end;
* `Step.Rewrites now type s`   nor does one of the step `s`, and `s` changes nothing but the
                               condition of a type;
* `SystemPhase.rewrites_step`, `DistributionPhase.rewrites_step`, `Workload.rewrites_step`   each
                               phase and its condition.

What holds of its parts holds of an action or a step, so there is one lemma for each way to build
them.
-/

namespace ReleaseUpgrade

/-- the call looks up one object, or the latest release of a name -/
def Call.looksUp : Call → Bool
  | .get .. | .latestRelease _ => true
  | _ => false

theorem Call.isOrdinary_of_looksUp {c : Call} (h : c.looksUp = true) : c.isOrdinary = true := by
  cases c with
  | get | latestRelease => rfl
  | _ => cases h

namespace Action
variable {α β : Type}

/-- whatever the answers, all calls of the action are of a sort -/
def Makes (P : Call → Prop) (a : Action α) : Prop := ∀ t r, a.Yields t r → ∀ x ∈ t, P x.call

section
variable {P : Call → Prop}

theorem makes_pure (v : α) : (pure v : Action α).Makes P := by
  intro t r h
  obtain ⟨rfl, _⟩ := (yields_pure ..).mp h
  exact fun _ hx => absurd hx List.not_mem_nil

theorem makes_perform {c : Call} (hc : P c) : (perform c).Makes P := by
  intro t r h
  obtain rfl := (yields_perform ..).mp h
  exact List.forall_mem_singleton.mpr hc

theorem Makes.bind {a : Action α} {f : α → Action β} (ha : a.Makes P) (hf : ∀ v, (f v).Makes P) :
    (a >>= f).Makes P := by
  intro t r h
  obtain ⟨_, he, _⟩ | ⟨v, t₁, t₂, rfl, h₁, h₂⟩ := (yields_bind ..).mp h
  · exact ha _ _ he
  · exact List.forall_mem_append.mpr ⟨ha _ _ h₁, hf v _ _ h₂⟩

theorem Makes.mono {P' : Call → Prop} {a : Action α} (h : a.Makes P) (hP : ∀ c, P c → P' c) :
    a.Makes P' :=
  fun t r ht x hx => hP x.call (h t r ht x hx)

end

/-- whatever the answers, no call of the action writes to the plan or announces the end -/
def Spares (a : Action α) : Prop := ∀ t r, a.Yields t r → t.All Call.isOrdinary

theorem spares_iff {a : Action α} : a.Spares ↔ a.Makes fun c => c.isOrdinary = true := Iff.rfl

theorem spares_pure (v : α) : (pure v : Action α).Spares := spares_iff.mpr (makes_pure v)

theorem spares_throw (e : UpgradeError) : (throw e : Action α).Spares := by
  intro t r h
  obtain ⟨rfl, _⟩ := (yields_throw ..).mp h
  exact Trace.all_nil

theorem spares_ofExcept (e : Except UpgradeError α) : (ofExcept e).Spares := by
  intro t r h
  obtain ⟨rfl, _⟩ := (yields_ofExcept ..).mp h
  exact Trace.all_nil

theorem spares_perform {c : Call} (hc : c.isOrdinary = true) : (perform c).Spares :=
  spares_iff.mpr (makes_perform hc)

theorem spares_publish (plan : UpgradePlan) {event : Event} (h : event.reason ≠ "UpgradeCompleted") :
    (publish plan event).Spares := by
  intro t r ht
  obtain ⟨_, rfl, _⟩ := (yields_publish ..).mp ht
  exact Trace.all_single (Call.isOrdinary_iff.mpr ⟨rfl, decide_eq_false h⟩)

theorem spares_wait (milliseconds : Nat) : (wait milliseconds).Spares := by
  intro t r h
  obtain ⟨_, rfl, _⟩ := (yields_wait ..).mp h
  exact Trace.all_single rfl

theorem Spares.bind {a : Action α} {f : α → Action β} (ha : a.Spares) (hf : ∀ v, (f v).Spares) :
    (a >>= f).Spares :=
  spares_iff.mpr ((spares_iff.mp ha).bind hf)

theorem Spares.recover {a : Action α} {f : UpgradeError → Action α} (ha : a.Spares)
    (hf : ∀ e, (f e).Spares) : (a.recover f).Spares := by
  intro t r h
  obtain ⟨_, h, _⟩ | ⟨e, t₁, t₂, rfl, h₁, h₂⟩ := (yields_recover ..).mp h
  · exact ha _ _ h
  · exact (Trace.all_append t₁ t₂).mpr ⟨ha _ _ h₁, hf e _ _ h₂⟩

end Action

theorem Context.spares_create (ctx : Context) (k : Kind) (o : k.Object) :
    (ctx.create k o).Spares := by
  have hreason : k.text ++ "Created" ≠ "UpgradeCompleted" := by cases k <;> decide
  exact (Action.spares_perform rfl).bind fun _ => Action.spares_publish ctx.plan hreason

section
open ReleaseUpgrade.Action

theorem CoreComponent.makes_upgraded (settings : Settings) (c : CoreComponent) :
    (upgraded settings c).Makes fun c => c.looksUp = true := by
  cases c with
  | chart name version =>
    refine Makes.bind (makes_perform rfl) fun found? => ?_
    cases found? with
    | none => exact makes_pure _
    | some found =>
      dsimp only
      split
      · exact makes_pure _
      refine Makes.bind (makes_perform rfl) fun job? => ?_
      cases job? with
      | none => exact makes_pure _
      | some job =>
        dsimp only
        split
        · exact Makes.bind (makes_perform rfl) fun _ => makes_pure _
        · exact makes_pure _
  | deployment name containers =>
    refine Makes.bind (makes_perform rfl) fun found? => ?_
    cases found? <;> exact makes_pure _

theorem CoreComponent.makes_pending (settings : Settings) (cs : List CoreComponent) :
    (pending settings cs).Makes fun c => c.looksUp = true := by
  induction cs with
  | nil => exact makes_pure _
  | cons c rest ih =>
    refine (makes_upgraded settings c).bind fun upgraded? => ?_
    split
    · exact makes_pure _
    · exact ih

theorem CoreComponent.spares_pending (settings : Settings) (cs : List CoreComponent) :
    (pending settings cs).Spares :=
  spares_iff.mpr ((makes_pending settings cs).mono fun _ => Call.isOrdinary_of_looksUp)

namespace Evaluation
variable (ctx : Context) (chart : ReleaseChart)

theorem spares_adopt (installed : HelmRelease) : (adopt ctx chart installed).Spares := by
  unfold adopt
  split
  · exact spares_pure _
  · refine (spares_ofExcept _).bind fun values => ?_
    exact (ctx.spares_create _ _).bind fun _ => spares_pure _

theorem spares_advance (existing : HelmChart) : (advance ctx chart existing).Spares := by
  unfold advance
  split
  · refine (spares_ofExcept _).bind fun values => ?_
    exact (spares_perform rfl).bind fun _ => spares_pure _
  split
  · exact spares_pure _
  unfold follow
  split
  · exact spares_pure _
  refine (spares_perform rfl).bind fun job? => ?_
  cases job? <;> exact spares_pure _

theorem spares_state (resources : List HelmChart) : (state ctx resources chart).Spares := by
  refine (spares_perform rfl).bind fun installed? => ?_
  cases installed? with
  | none => exact spares_pure _
  | some installed =>
    refine (spares_ofExcept _).bind fun existing? => ?_
    cases existing? with
    | none => exact spares_adopt ctx chart installed
    | some existing => exact spares_advance ctx chart existing

end Evaluation

theorem Workload.spares_stateOf (ctx : Context) (resources : List HelmChart)
    (chart : ReleaseChart) : (stateOf ctx resources chart).Spares := by
  refine ((Evaluation.spares_state ctx chart resources).bind fun _ => spares_pure _).recover ?_
  intro e
  cases e <;> first | exact spares_pure _ | exact spares_throw _

namespace ManifestPhase
variable (ctx : Context)

theorem spares_resolve : (resolve ctx).Spares :=
  (spares_perform rfl).bind fun _ => spares_pure _

theorem spares_attempt (job : Job) : (attempt ctx job).Spares := by
  refine (ctx.spares_create _ _).recover fun e => ?_
  split
  · refine (spares_perform rfl).bind fun existing? => ?_
    cases existing? with
    | none => exact spares_throw _
    | some existing =>
      dsimp only
      split
      · exact spares_throw _
      · exact spares_pure _
  · exact spares_throw _

theorem spares_install : (install ctx).Spares := by
  unfold install
  induction delays with
  | nil => exact spares_attempt ctx (job ctx)
  | cons delay rest ih =>
    exact (spares_attempt ctx (job ctx)).recover fun _ => (spares_wait delay).bind fun _ => ih

end ManifestPhase

end

namespace Step
variable {α β : Type}

/-- whatever the answers, no call of the step writes to the plan or announces the end, and the step
changes nothing but the condition of a type -/
def Rewrites (now : Instant) (type : String) (s : Step α) : Prop :=
  ∀ before t r after, s.Yields before t r after →
    t.All Call.isOrdinary ∧ Status.Rewritten now type before after

section
variable {now : Instant} {type : String}

theorem rewrites_pure (v : α) : (pure v : Step α).Rewrites now type := by
  intro before t r after h
  obtain ⟨rfl, _, rfl⟩ := (yields_pure ..).mp h
  exact ⟨Trace.all_nil, .refl⟩

theorem rewrites_ofExcept (e : Except UpgradeError α) : (ofExcept e).Rewrites now type := by
  intro before t r after h
  obtain ⟨rfl, _, rfl⟩ := (yields_ofExcept ..).mp h
  exact ⟨Trace.all_nil, .refl⟩

theorem rewrites_lift {a : Action α} (ha : a.Spares) : (liftM a : Step α).Rewrites now type := by
  intro before t r after h
  obtain ⟨ha', rfl⟩ := (yields_lift ..).mp h
  exact ⟨ha t r ha', .refl⟩

theorem Rewrites.bind {s : Step α} {f : α → Step β} (hs : s.Rewrites now type)
    (hf : ∀ v, (f v).Rewrites now type) : (s >>= f).Rewrites now type := by
  intro before t r after h
  obtain ⟨_, he, _⟩ | ⟨v, _, t₁, t₂, rfl, h₁, h₂⟩ := (yields_bind ..).mp h
  · exact hs _ _ _ _ he
  · obtain ⟨hspares₁, hrewritten₁⟩ := hs _ _ _ _ h₁
    obtain ⟨hspares₂, hrewritten₂⟩ := hf v _ _ _ _ h₂
    exact ⟨(Trace.all_append t₁ t₂).mpr ⟨hspares₁, hspares₂⟩, hrewritten₁.trans hrewritten₂⟩

theorem Rewrites.bind_status {f : Status → Step β} (hf : ∀ v, (f v).Rewrites now type) :
    (status >>= f).Rewrites now type :=
  fun before t r after h => hf before before t r after ((yields_bind_status ..).mp h)

end

end Step

namespace Context
variable (ctx : Context) (type message : String)

theorem rewrites_setCondition {reason : Reason} (h : reason ≠ .pending) :
    (ctx.setCondition type reason message).Rewrites ctx.now type := by
  rintro before t r after ⟨rfl, hafter⟩
  cases hafter
  exact ⟨Trace.all_nil, .set reason message .refl h⟩

theorem rewrites_setInProgress : (ctx.setInProgress type message).Rewrites ctx.now type :=
  ctx.rewrites_setCondition type message nofun

theorem rewrites_setSucceeded : (ctx.setSucceeded type message).Rewrites ctx.now type :=
  ctx.rewrites_setCondition type message nofun

theorem rewrites_setFailed : (ctx.setFailed type message).Rewrites ctx.now type :=
  ctx.rewrites_setCondition type message nofun

end Context

open ReleaseUpgrade.Action ReleaseUpgrade.Step

section
variable (ctx : Context)

namespace Tier
variable (spec : Spec)

theorem rewrites_drive (role : NodeRole) :
    (drive ctx spec role).Rewrites ctx.now spec.condition := by
  refine (rewrites_lift (spares_perform rfl)).bind fun existing => ?_
  cases existing with
  | none =>
    refine (ctx.rewrites_setInProgress _ _).bind fun _ => ?_
    exact (rewrites_lift (ctx.spares_create _ _)).bind fun _ => rewrites_pure _
  | some existing =>
    refine (rewrites_ofExcept _).bind fun arrived => ?_
    cases arrived with
    | true => exact rewrites_pure _
    | false => exact (ctx.rewrites_setInProgress _ _).bind fun _ => rewrites_pure _

theorem rewrites_driveAll (roles : List NodeRole) :
    (driveAll ctx spec roles).Rewrites ctx.now spec.condition := by
  induction roles with
  | nil => exact rewrites_pure _
  | cons role rest ih =>
    refine (rewrites_drive ctx spec role).bind fun progress => ?_
    cases progress with
    | waiting => exact rewrites_pure _
    | upgraded => exact ih

end Tier

theorem SystemPhase.rewrites_step (releaseVersion : String) (os : OperatingSystem) :
    (step ctx releaseVersion os).Rewrites ctx.now Status.osUpgraded := by
  refine (rewrites_lift (spares_perform rfl)).bind fun nodes => ?_
  dsimp only
  split
  · refine .bind_status fun status => (rewrites_ofExcept _).bind fun suffix => ?_
    refine (rewrites_lift (spares_perform rfl)).bind fun secret? => ?_
    cases secret? with
    | none => exact (rewrites_lift (ctx.spares_create _ _)).bind fun _ => rewrites_pure _
    | some =>
      refine (Tier.rewrites_driveAll ctx (tiers ctx _ os nodes suffix) _).bind fun progress => ?_
      cases progress with
      | waiting => exact rewrites_pure _
      | upgraded => exact (ctx.rewrites_setSucceeded _ _).bind fun _ => rewrites_pure _
  · exact (ctx.rewrites_setFailed _ _).bind fun _ => rewrites_pure _

namespace DistributionPhase

theorem rewrites_followCore (target : DistributionTarget) :
    (followCore ctx target).Rewrites ctx.now Status.kubernetesUpgraded := by
  refine (rewrites_lift (CoreComponent.spares_pending _ _)).bind fun name? => ?_
  cases name? with
  | some => exact (ctx.rewrites_setInProgress _ _).bind fun _ => rewrites_pure _
  | none => exact (ctx.rewrites_setSucceeded _ _).bind fun _ => rewrites_pure _

theorem rewrites_step (targets : KubernetesTargets) :
    (step ctx targets).Rewrites ctx.now Status.kubernetesUpgraded := by
  refine (rewrites_lift (spares_perform rfl)).bind fun nodes => ?_
  refine (rewrites_ofExcept _).bind fun d => ?_
  refine .bind_status fun status => (rewrites_ofExcept _).bind fun suffix => ?_
  refine (Tier.rewrites_driveAll ctx (tiers ctx d _ nodes suffix) _).bind fun progress => ?_
  cases progress with
  | waiting => exact rewrites_pure _
  | upgraded => exact rewrites_followCore ctx _

end DistributionPhase

end

namespace Workload

section
variable (ctx : Context) (condition : String) (resources : List HelmChart)

theorem reason_ne_pending (s : ChartState) : s.reason ≠ .pending := by cases s <;> decide

theorem rewrites_record (state : ChartState) (release : String) :
    (record ctx condition state release).Rewrites ctx.now condition :=
  (ctx.rewrites_setCondition _ _ (reason_ne_pending state)).bind fun _ => rewrites_pure _

theorem rewrites_required (chart : ReleaseChart) :
    (required ctx condition resources chart).Rewrites ctx.now condition := by
  refine (rewrites_lift (spares_stateOf ctx resources chart)).bind fun state? => ?_
  cases state? with
  | ok => exact rewrites_pure _
  | error => exact (ctx.rewrites_setFailed _ _).bind fun _ => rewrites_pure _

theorem rewrites_dependencies (charts : List ReleaseChart) :
    (dependencies ctx condition resources charts).Rewrites ctx.now condition := by
  induction charts with
  | nil => exact rewrites_pure _
  | cons d rest ih =>
    refine (rewrites_required ctx condition resources d).bind fun state? => ?_
    cases state? with
    | none => exact rewrites_pure _
    | some state =>
      dsimp only
      split
      · exact ih
      · exact (rewrites_record ctx condition state _).bind fun _ => rewrites_pure _

section
variable (hcondition : condition ≠ "UpgradeCompleted")
include hcondition

theorem rewrites_addons (workload : String) (charts : List ReleaseChart) :
    (addons ctx condition workload resources charts).Rewrites ctx.now condition := by
  induction charts with
  | nil => exact rewrites_pure _
  | cons a rest ih =>
    refine (rewrites_lift (spares_stateOf ctx resources a)).bind fun state? => ?_
    cases state? with
    | error => exact (rewrites_lift (spares_publish _ hcondition)).bind fun _ => ih
    | ok state =>
      cases state with
      | inProgress => exact (ctx.rewrites_setInProgress _ _).bind fun _ => rewrites_pure _
      | unknown => exact rewrites_pure _
      | versionAlreadyInstalled => exact (rewrites_pure ()).bind fun _ => ih
      | notInstalled | succeeded | failed =>
        exact (rewrites_lift (spares_publish _ hcondition)).bind fun _ => ih

theorem rewrites_proceed (w : ReleaseChart) :
    (proceed ctx condition resources w).Rewrites ctx.now condition := by
  refine (rewrites_required ctx condition resources w).bind fun core? => ?_
  cases core? with
  | none => exact rewrites_pure _
  | some core =>
    dsimp only
    split
    · exact (ctx.rewrites_setFailed _ _).bind fun _ => rewrites_pure _
    split
    · refine (rewrites_addons ctx condition resources hcondition _ w.addons).bind fun progress => ?_
      cases progress with
      | stops => exact rewrites_pure _
      | goesOn => exact rewrites_record ctx condition core _
    · exact rewrites_record ctx condition core _

end

theorem rewrites_step (w : ReleaseChart) :
    (step ctx w).Rewrites ctx.now (Status.workloadUpgraded w.prettyName) := by
  refine (rewrites_lift (spares_perform rfl)).bind fun resources => ?_
  refine (rewrites_dependencies ctx _ resources w.dependencies).bind fun progress => ?_
  cases progress with
  | stops => exact rewrites_pure _
  | goesOn => exact rewrites_proceed ctx _ resources (Status.workloadUpgraded_ne_completed _) w

end

end Workload

end ReleaseUpgrade
