import ReleaseUpgrade.Phases.Distribution
import ReleaseUpgrade.Phases.System
import ReleaseUpgrade.Phases.Workload
import ReleaseUpgrade.Proofs.Cluster.Trace
import ReleaseUpgrade.Proofs.Upgrade.Conditions

/-!
# When a phase comes back at once

A phase asks for the next pass to come at once only if it is done itself: its condition is true, or
it is finished in the case of a workload.  While there is something to wait for, the next pass comes
after the delay between two looks, or when something changes.

* `Step.Ensures before s Q`   whenever the step ends with a value, the value and the status after it
                              are as `Q` tells;
* `SystemPhase.ensures_step`, `DistributionPhase.ensures_step`, `Workload.ensures_step`   each phase.

An error is no value, and nothing comes back at once after it.  There is one lemma for each way to
build a step.
-/

namespace ReleaseUpgrade

namespace Step
variable {α β : Type}

/-- whenever the step ends with a value, the value and the status after it are as `Q` tells -/
def Ensures (before : Status) (s : Step α) (Q : α → Status → Prop) : Prop :=
  ∀ t v after, s.Yields before t (.ok v) after → Q v after

section
variable {before : Status} {Q : α → Status → Prop}

theorem ensures_pure {v : α} (h : Q v before) : (pure v : Step α).Ensures before Q := by
  intro t w after hw
  obtain ⟨_, hv, rfl⟩ := (yields_pure ..).mp hw
  cases hv
  exact h

theorem Ensures.bind {R : β → Status → Prop} {s : Step β} {f : β → Step α}
    (hs : s.Ensures before R) (hf : ∀ v between, R v between → (f v).Ensures between Q) :
    (s >>= f).Ensures before Q := by
  intro t v after h
  obtain ⟨_, _, he⟩ | ⟨w, between, t₁, t₂, _, h₁, h₂⟩ := (yields_bind ..).mp h
  · cases he
  · exact hf w between (hs _ _ _ h₁) t₂ v after h₂

/-- the answers to an action may be any -/
theorem ensures_bind_lift {a : Action β} {f : β → Step α} (hf : ∀ v, (f v).Ensures before Q) :
    (liftM a >>= f : Step α).Ensures before Q := by
  intro t v after h
  obtain ⟨_, _, he, _⟩ | ⟨w, _, t₂, _, _, h₂⟩ := (yields_bind_lift ..).mp h
  · cases he
  · exact hf w t₂ v after h₂

theorem ensures_bind_ofExcept {x : Except UpgradeError β} {f : β → Step α}
    (hf : ∀ v, (f v).Ensures before Q) : (ofExcept x >>= f).Ensures before Q := by
  intro t v after h
  obtain ⟨_, _, _, he, _⟩ | ⟨w, _, h⟩ := (yields_bind_ofExcept ..).mp h
  · cases he
  · exact hf w t v after h

theorem ensures_bind_status {f : Status → Step α} (hf : (f before).Ensures before Q) :
    (status >>= f).Ensures before Q := hf

end

end Step

open ReleaseUpgrade.Step

section
variable {ctx : Context} {before : Status}

theorem Context.ensures_bind_setCondition {β : Type} {type message : String} {reason : Reason}
    {f : Unit → Step β} {Q : β → Status → Prop}
    (hf : (f ()).Ensures (before.setCondition ctx.now type reason message) Q) :
    (ctx.setCondition type reason message >>= f).Ensures before Q := hf

theorem Requeue.some_ne_immediately {milliseconds : Nat} (h : 0 < milliseconds) :
    (some milliseconds : Requeue) ≠ Requeue.immediately := by
  intro he
  exact absurd (Option.some.inj he) (Nat.ne_of_gt h)

theorem Requeue.none_ne_immediately : (none : Requeue) ≠ Requeue.immediately := nofun

variable (hpoll : 0 < ctx.settings.nodePollInterval)

section
include hpoll

namespace Tier
variable (spec : Spec)

/-- nodes that are waited for are not looked at again at once -/
theorem ensures_drive (role : NodeRole) :
    (drive ctx spec role).Ensures before fun progress _ =>
      ∀ requeue, progress = .waiting requeue → requeue ≠ Requeue.immediately := by
  refine ensures_bind_lift fun existing => ?_
  cases existing with
  | none =>
    refine ctx.ensures_bind_setCondition (ensures_bind_lift fun _ => ensures_pure ?_)
    rintro _ ⟨⟩
    exact Requeue.none_ne_immediately
  | some existing =>
    refine ensures_bind_ofExcept fun arrived => ?_
    cases arrived with
    | true => exact ensures_pure fun _ he => nomatch he
    | false =>
      refine ctx.ensures_bind_setCondition (ensures_pure ?_)
      rintro _ ⟨⟩
      exact Requeue.some_ne_immediately hpoll

theorem ensures_driveAll (roles : List NodeRole) :
    (driveAll ctx spec roles).Ensures before fun progress _ =>
      ∀ requeue, progress = .waiting requeue → requeue ≠ Requeue.immediately := by
  induction roles generalizing before with
  | nil => exact ensures_pure fun _ he => nomatch he
  | cons role rest ih =>
    refine (ensures_drive hpoll spec role).bind fun progress between hprogress => ?_
    cases progress with
    | waiting requeue => exact ensures_pure hprogress
    | upgraded => exact ih

end Tier

/-- the operating system comes back at once only after its condition has become true -/
theorem SystemPhase.ensures_step (releaseVersion : String) (os : OperatingSystem) :
    (step ctx releaseVersion os).Ensures before fun requeue after =>
      requeue = Requeue.immediately → after.isSucceeded Status.osUpgraded = true := by
  refine ensures_bind_lift fun nodes => ?_
  dsimp only
  split
  case isFalse => exact ctx.ensures_bind_setCondition (ensures_pure nofun)
  refine ensures_bind_status (ensures_bind_ofExcept fun suffix => ?_)
  refine ensures_bind_lift fun secret? => ?_
  cases secret? with
  | none => exact ensures_bind_lift fun _ => ensures_pure nofun
  | some =>
    refine (Tier.ensures_driveAll hpoll _ _).bind fun progress between hprogress => ?_
    cases progress with
    | waiting requeue => exact ensures_pure fun he => absurd he (hprogress requeue rfl)
    | upgraded =>
      refine ctx.ensures_bind_setCondition (ensures_pure fun _ => ?_)
      exact (Status.isSucceeded_setCondition ..).mpr rfl

namespace DistributionPhase

theorem ensures_followCore (target : DistributionTarget) :
    (followCore ctx target).Ensures before fun requeue after =>
      requeue = Requeue.immediately → after.isSucceeded Status.kubernetesUpgraded = true := by
  refine ensures_bind_lift fun name? => ?_
  cases name? with
  | some =>
    refine ctx.ensures_bind_setCondition (ensures_pure fun he => ?_)
    exact absurd he (Requeue.some_ne_immediately hpoll)
  | none =>
    refine ctx.ensures_bind_setCondition (ensures_pure fun _ => ?_)
    exact (Status.isSucceeded_setCondition ..).mpr rfl

/-- the distribution comes back at once only after its condition has become true -/
theorem ensures_step (targets : KubernetesTargets) :
    (step ctx targets).Ensures before fun requeue after =>
      requeue = Requeue.immediately → after.isSucceeded Status.kubernetesUpgraded = true := by
  refine ensures_bind_lift fun nodes => ensures_bind_ofExcept fun d => ?_
  refine ensures_bind_status (ensures_bind_ofExcept fun suffix => ?_)
  refine (Tier.ensures_driveAll hpoll _ _).bind fun progress between hprogress => ?_
  cases progress with
  | waiting requeue => exact ensures_pure fun he => absurd he (hprogress requeue rfl)
  | upgraded => exact ensures_followCore hpoll _

end DistributionPhase

end

namespace Workload

section
variable (condition : String) (resources : List HelmChart)

/-- a state finishes the condition if it lets the upgrade go on -/
theorem locks_reason (state : ChartState) : Admission.locks state.reason = !state.goesOn := by
  cases state <;> rfl

theorem ensures_record (state : ChartState) (release : String) :
    (record ctx condition state release).Ensures before fun requeue after =>
      requeue = Requeue.immediately → after.isFinished condition = true := by
  refine ctx.ensures_bind_setCondition (ensures_pure fun he => ?_)
  have hgoes : state.goesOn = true := by
    by_contra hstays
    rw [if_neg hstays] at he
    exact Requeue.none_ne_immediately he
  rw [Status.isFinished_setCondition, locks_reason, hgoes]
  rfl

/-- several chart resources finish the condition -/
theorem ensures_required (chart : ReleaseChart) :
    (required ctx condition resources chart).Ensures before fun state? after =>
      state? = none → after.isFinished condition = true := by
  refine ensures_bind_lift fun state? => ?_
  cases state? with
  | ok state => exact ensures_pure nofun
  | error release =>
    refine ctx.ensures_bind_setCondition (ensures_pure fun _ => ?_)
    exact Status.isFinished_setCondition ..

theorem ensures_dependencies (charts : List ReleaseChart) :
    (dependencies ctx condition resources charts).Ensures before fun progress after =>
      progress = .stops .immediately → after.isFinished condition = true := by
  induction charts generalizing before with
  | nil => exact ensures_pure nofun
  | cons d rest ih =>
    refine (ensures_required condition resources d).bind fun state? between hstate => ?_
    cases state? with
    | none => exact ensures_pure fun _ => hstate rfl
    | some state =>
      dsimp only
      split
      · exact ih
      · refine (ensures_record condition state _).bind fun requeue after hrecord => ?_
        exact ensures_pure fun he => hrecord (Progress.stops.inj he)

section
include hpoll

/-- an add-on that is waited for is not looked at again at once -/
theorem ensures_addons (workload : String) (charts : List ReleaseChart) :
    (addons ctx condition workload resources charts).Ensures before fun progress _ =>
      progress ≠ .stops .immediately := by
  induction charts generalizing before with
  | nil => exact ensures_pure nofun
  | cons a rest ih =>
    refine ensures_bind_lift fun state? => ?_
    cases state? with
    | error => exact ensures_bind_lift fun _ => ih
    | ok state =>
      cases state with
      | inProgress =>
        refine ctx.ensures_bind_setCondition (ensures_pure fun he => ?_)
        exact Requeue.some_ne_immediately hpoll (Progress.stops.inj he)
      | unknown => exact ensures_pure nofun
      | versionAlreadyInstalled =>
        have htold : (pure () : Step Unit).Ensures before fun _ _ => True := ensures_pure trivial
        exact htold.bind fun _ _ _ => ih
      | notInstalled | succeeded | failed => exact ensures_bind_lift fun _ => ih

theorem ensures_finish (w : ReleaseChart) (core : ChartState) :
    (finish ctx condition resources w core).Ensures before fun requeue after =>
      requeue = Requeue.immediately → after.isFinished condition = true := by
  refine (ensures_addons hpoll condition resources _ w.addons).bind fun progress _ hne => ?_
  cases progress with
  | stops requeue => exact ensures_pure fun he => absurd (congrArg Progress.stops he) hne
  | goesOn => exact ensures_record condition core _

theorem ensures_proceed (w : ReleaseChart) :
    (proceed ctx condition resources w).Ensures before fun requeue after =>
      requeue = Requeue.immediately → after.isFinished condition = true := by
  refine (ensures_required condition resources w).bind fun core? between hcore => ?_
  cases core? with
  | none => exact ensures_pure fun _ => hcore rfl
  | some core =>
    dsimp only
    split
    · refine ctx.ensures_bind_setCondition (ensures_pure fun _ => ?_)
      exact Status.isFinished_setCondition ..
    split
    · exact ensures_finish hpoll condition resources w core
    · exact ensures_record condition core _

/-- a workload comes back at once only after its condition has become finished -/
theorem ensures_step (w : ReleaseChart) :
    (step ctx w).Ensures before fun requeue after =>
      requeue = Requeue.immediately →
        after.isFinished (Status.workloadUpgraded w.prettyName) = true := by
  refine ensures_bind_lift fun resources => ?_
  refine (ensures_dependencies _ resources w.dependencies).bind fun progress between hstops => ?_
  cases progress with
  | stops requeue => exact ensures_pure fun he => hstops (congrArg Progress.stops he)
  | goesOn => exact ensures_proceed hpoll _ resources w

end

end

end Workload

end

end ReleaseUpgrade
