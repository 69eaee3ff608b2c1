import ReleaseUpgrade.Phases.Run
import ReleaseUpgrade.Proofs.Cluster.Trace
import ReleaseUpgrade.Proofs.Upgrade.Conditions

/-!
# What a phase reports

A phase sets its condition at most once.  What it calls, what it ends with and what it sets the
condition to depend on the answers of the cluster and on the suffix of the attempt, but on nothing
else in the status and not on the time.

* `Report`           what the condition is set to, if it is;
* `Step.Reports`     at two times a step does the same and reports the same, and what it reports goes
                     with what it ends with;
* `Status.Opens`, `Workload.Opens`   a report after which the phase is not done;
* `SystemPhase.reports_step`, `DistributionPhase.reports_step`, `Workload.reports_step`   each phase.

There is one lemma for each way to build a step; the phases follow by walking their definitions.
-/

namespace ReleaseUpgrade

/-- the reason and the message that a condition is set to, or nothing -/
abbrev Report := Option (Reason × String)

namespace Status

/-- the status with the condition of a type set as reported -/
def noted (now : Instant) (type : String) (s : Status) : Report → Status
  | none => s
  | some (reason, message) => s.setCondition now type reason message

section
variable (now later : Instant) (type : String)

theorem setIn_setIn (reason : Reason) (message : String) (cs : List Condition) :
    setIn later type reason message (setIn now type reason message cs) =
      setIn now type reason message cs := by
  induction cs with
  | nil => simp [setIn]
  | cons c rest ih =>
    by_cases hc : c.type = type
    · rw [setIn, if_pos hc, setIn, if_pos hc, if_pos rfl]
    · rw [setIn, if_neg hc, setIn, if_neg hc, ih]

/-- a report that is made again, at whatever time, changes nothing -/
theorem noted_noted (s : Status) (report : Report) :
    (s.noted now type report).noted later type report = s.noted now type report := by
  obtain _ | ⟨reason, message⟩ := report
  · rfl
  · show setCondition later type reason message (setCondition now type reason message s) = _
    rw [setCondition, setCondition, setIn_setIn]
    rfl

theorem namingSuffix_noted (s : Status) (report : Report) :
    (s.noted now type report).namingSuffix = s.namingSuffix := by
  cases report <;> rfl

theorem observedGeneration_noted (s : Status) (report : Report) :
    (s.noted now type report).observedGeneration = s.observedGeneration := by
  cases report <;> rfl

theorem condition?_noted_of_ne (s : Status) (report : Report) {other : String} (h : other ≠ type) :
    (s.noted now type report).condition? other = s.condition? other := by
  obtain _ | ⟨reason, message⟩ := report
  · rfl
  · exact condition?_setCondition_of_ne now type reason message s h

end

end Status

/-- the context at another time -/
def Context.at (ctx : Context) (now : Instant) : Context := { ctx with now }

namespace Step
variable {α β : Type}

/-- a value that a step ends with goes with its report; a step that fails has not reported anything,
unless it is `lax` -/
def Meets (lax : Prop) (Q : α → Report → Prop) : Except UpgradeError α → Report → Prop
  | .ok v, report => Q v report
  | .error _, report => lax ∨ report = none

/-- whenever the step `s` ends, it has set at most the condition of a type, and the step `s'` at
another time does the same from every status that names the same attempt -/
def Reports (now later : Instant) (type : String) (lax : Prop) (Q : α → Report → Prop)
    (s s' : Step α) : Prop :=
  ∀ before t r after, s.Yields before t r after →
    ∃ report, Meets lax Q r report ∧ after = before.noted now type report ∧
      ∀ other : Status, other.namingSuffix = before.namingSuffix →
        s'.Yields other t r (other.noted later type report)

section
variable {now later : Instant} {type : String} {lax : Prop} {Q : α → Report → Prop}

theorem reports_pure {v : α} (h : Q v none) :
    Reports now later type lax Q (pure v) (pure v) := by
  intro before t r after hv
  obtain ⟨rfl, rfl, rfl⟩ := (yields_pure ..).mp hv
  exact ⟨none, h, rfl, fun other _ => (yields_pure ..).mpr ⟨rfl, rfl, rfl⟩⟩

theorem reports_bind_lift {a : Action β} {f f' : β → Step α}
    (hf : ∀ v, Reports now later type lax Q (f v) (f' v)) :
    Reports now later type lax Q (liftM a >>= f) (liftM a >>= f') := by
  intro before t r after h
  obtain ⟨e, ha, rfl, rfl⟩ | ⟨v, u, w, rfl, ha, hw⟩ := (yields_bind_lift ..).mp h
  · exact ⟨none, .inr rfl, rfl, fun other _ =>
      (yields_bind_lift ..).mpr (.inl ⟨e, ha, rfl, rfl⟩)⟩
  · obtain ⟨report, hQ, hafter, hagain⟩ := hf v _ _ _ _ hw
    exact ⟨report, hQ, hafter, fun other hother =>
      (yields_bind_lift ..).mpr (.inr ⟨v, u, w, rfl, ha, hagain other hother⟩)⟩

theorem reports_bind_ofExcept {x : Except UpgradeError β} {f f' : β → Step α}
    (hf : ∀ v, Reports now later type lax Q (f v) (f' v)) :
    Reports now later type lax Q (ofExcept x >>= f) (ofExcept x >>= f') := by
  intro before t r after h
  obtain ⟨e, hx, rfl, rfl, rfl⟩ | ⟨v, hx, hw⟩ := (yields_bind_ofExcept ..).mp h
  · exact ⟨none, .inr rfl, rfl, fun other _ =>
      (yields_bind_ofExcept ..).mpr (.inl ⟨e, hx, rfl, rfl, rfl⟩)⟩
  · obtain ⟨report, hQ, hafter, hagain⟩ := hf v _ _ _ _ hw
    exact ⟨report, hQ, hafter, fun other hother =>
      (yields_bind_ofExcept ..).mpr (.inr ⟨v, hx, hagain other hother⟩)⟩

/-- all that is read of the status is the suffix of the attempt -/
theorem reports_bind_suffix {f f' : String → Step α}
    (hf : ∀ suffix, Reports now later type lax Q (f suffix) (f' suffix)) :
    Reports now later type lax Q
      (status >>= fun s => ofExcept (Context.namingSuffix s) >>= f)
      (status >>= fun s => ofExcept (Context.namingSuffix s) >>= f') := by
  intro before t r after h
  have hread := reports_bind_ofExcept (x := Context.namingSuffix before) hf
  obtain ⟨report, hQ, hafter, hagain⟩ := hread _ _ _ _ ((yields_bind_status ..).mp h)
  refine ⟨report, hQ, hafter, fun other hother => (yields_bind_status ..).mpr ?_⟩
  have hsame : Context.namingSuffix other = Context.namingSuffix before := by
    rw [Context.namingSuffix, hother]
    rfl
  rw [hsame]
  exact hagain other hother

/-- once something has been reported, the value is only handed on -/
theorem Reports.bind {R : β → Report → Prop} {s s' : Step β} {f f' : β → Step α}
    (hs : Reports now later type lax R s s')
    (hnone : ∀ v, R v none → Reports now later type lax Q (f v) (f' v))
    (hsome : ∀ v report, R v (some report) →
      ∃ w, f v = pure w ∧ f' v = pure w ∧ Q w (some report)) :
    Reports now later type lax Q (s >>= f) (s' >>= f') := by
  intro before t r after h
  obtain ⟨e, he, rfl⟩ | ⟨v, between, u, w, rfl, hu, hw⟩ := (yields_bind ..).mp h
  · obtain ⟨report, hR, hafter, hagain⟩ := hs _ _ _ _ he
    exact ⟨report, hR, hafter, fun other hother =>
      (yields_bind ..).mpr (.inl ⟨e, hagain other hother, rfl⟩)⟩
  obtain ⟨report, hR, rfl, hagain⟩ := hs _ _ _ _ hu
  -- at most one of both steps reports, so one report is enough for both
  cases report with
  | none =>
    obtain ⟨report, hQ, hafter, hrest⟩ := hnone v hR _ _ _ _ hw
    exact ⟨report, hQ, hafter, fun other hother =>
      (yields_bind ..).mpr (.inr ⟨v, other, u, w, rfl, hagain other hother, hrest other hother⟩)⟩
  | some report =>
    obtain ⟨x, hf, hf', hQ⟩ := hsome v report hR
    rw [hf] at hw
    obtain ⟨rfl, rfl, rfl⟩ := (yields_pure ..).mp hw
    refine ⟨some report, hQ, rfl, fun other hother => (yields_bind ..).mpr (.inr ?_)⟩
    refine ⟨v, _, u, [], rfl, hagain other hother, ?_⟩
    rw [hf']
    exact (yields_pure ..).mpr ⟨rfl, rfl, rfl⟩

end

section
variable {ctx : Context} {later : Instant} {type message : String} {reason : Reason} {lax : Prop}
  {Q : α → Report → Prop} {v : α}

/-- a condition is set, and the step ends -/
theorem reports_setCondition (h : Q v (some (reason, message))) :
    Reports ctx.now later type lax Q (ctx.setCondition type reason message >>= fun _ => pure v)
      ((ctx.at later).setCondition type reason message >>= fun _ => pure v) := by
  intro before t r after hs
  have hs := (ctx.yields_bind_setCondition t type reason message (fun _ => pure v) ..).mp hs
  obtain ⟨rfl, rfl, rfl⟩ := (yields_pure ..).mp hs
  refine ⟨some (reason, message), h, rfl, fun other _ => ?_⟩
  exact ((ctx.at later).yields_bind_setCondition ..).mpr ((yields_pure ..).mpr ⟨rfl, rfl, rfl⟩)

/-- a condition is set, and then an action is done, whose failure comes too late -/
theorem reports_setCondition_lift {a : Action β} (h : Q v (some (reason, message))) :
    Reports ctx.now later type True Q
      (ctx.setCondition type reason message >>= fun _ => liftM a >>= fun _ => pure v)
      ((ctx.at later).setCondition type reason message >>= fun _ => liftM a >>= fun _ => pure v)
      := by
  intro before t r after hs
  have hs := (ctx.yields_bind_setCondition t type reason message
    (fun _ => liftM a >>= fun _ => pure v) ..).mp hs
  refine ⟨some (reason, message), ?_, ?_, fun other _ => ?_⟩
  · obtain ⟨_, _, rfl, _⟩ | ⟨_, _, _, _, _, hlast⟩ := (yields_bind_lift ..).mp hs
    · exact .inl trivial
    · obtain ⟨_, rfl, _⟩ := (yields_pure ..).mp hlast
      exact h
  · obtain ⟨_, _, _, rfl⟩ | ⟨_, _, _, _, _, hlast⟩ := (yields_bind_lift ..).mp hs
    · rfl
    · obtain ⟨_, _, rfl⟩ := (yields_pure ..).mp hlast
      rfl
  · refine ((ctx.at later).yields_bind_setCondition ..).mpr ((yields_bind_lift ..).mpr ?_)
    obtain ⟨e, ha, hr, _⟩ | ⟨w, u, x, rfl, ha, hlast⟩ := (yields_bind_lift ..).mp hs
    · exact .inl ⟨e, ha, hr, rfl⟩
    · obtain ⟨rfl, hr, _⟩ := (yields_pure ..).mp hlast
      exact .inr ⟨w, u, [], rfl, ha, (yields_pure ..).mpr ⟨rfl, hr, rfl⟩⟩

end

end Step

open ReleaseUpgrade.Step

section
variable (ctx : Context) (later : Instant)

/-- unless the pass is to be repeated at once, what has been reported does not say that the condition
is true -/
def Status.Opens (requeue : Requeue) (report : Report) : Prop :=
  requeue ≠ .immediately → ∀ reason message, report = some (reason, message) →
    reason.status ≠ .isTrue

namespace Tier
variable (spec : Spec)

/-- nodes that have arrived are not reported, and nodes that are waited for are in progress -/
def Told : Progress → Report → Prop
  | .upgraded, report => report = none
  | .waiting _, report => ∀ reason message, report = some (reason, message) →
    reason.status ≠ .isTrue

theorem told_inProgress (requeue : Requeue) (message : String) :
    Told (.waiting requeue) (some (.inProgress, message)) := by
  rintro _ _ ⟨⟩
  exact nofun

theorem reports_drive (role : NodeRole) :
    Reports ctx.now later spec.condition True Told (drive ctx spec role)
      (drive (ctx.at later) spec role) := by
  refine reports_bind_lift fun existing => ?_
  cases existing with
  | none => exact reports_setCondition_lift (told_inProgress _ _)
  | some existing =>
    refine reports_bind_ofExcept fun arrived => ?_
    cases arrived with
    | true => exact reports_pure rfl
    | false => exact reports_setCondition (told_inProgress _ _)

theorem reports_driveAll (roles : List NodeRole) :
    Reports ctx.now later spec.condition True Told (driveAll ctx spec roles)
      (driveAll (ctx.at later) spec roles) := by
  induction roles with
  | nil => exact reports_pure rfl
  | cons role rest ih =>
    refine (reports_drive ctx later spec role).bind (fun progress hnone => ?_) ?_
    · cases progress with
      | waiting requeue => exact reports_pure hnone
      | upgraded => exact ih
    · intro progress report htold
      cases progress with
      | waiting requeue => exact ⟨.waiting requeue, rfl, rfl, htold⟩
      | upgraded => cases htold

end Tier

theorem SystemPhase.reports_step (releaseVersion : String) (os : OperatingSystem) :
    Reports ctx.now later Status.osUpgraded True Status.Opens (step ctx releaseVersion os)
      (step (ctx.at later) releaseVersion os) := by
  refine reports_bind_lift fun nodes => ?_
  dsimp only
  split
  case isFalse =>
    refine reports_setCondition ?_
    rintro _ _ _ ⟨⟩
    exact nofun
  refine reports_bind_suffix fun suffix => reports_bind_lift fun secret? => ?_
  cases secret? with
  | none => exact reports_bind_lift fun _ => reports_pure nofun
  | some =>
    refine (Tier.reports_driveAll ctx later (tiers ctx _ os nodes suffix) _).bind ?_ ?_
    · intro progress _
      cases progress with
      | waiting requeue => exact reports_pure nofun
      | upgraded => exact reports_setCondition fun hne => absurd rfl hne
    · intro progress report htold
      cases progress with
      | waiting requeue => exact ⟨requeue, rfl, rfl, fun _ => htold⟩
      | upgraded => cases htold

namespace DistributionPhase

theorem reports_followCore (target : DistributionTarget) :
    Reports ctx.now later Status.kubernetesUpgraded True Status.Opens (followCore ctx target)
      (followCore (ctx.at later) target) := by
  refine reports_bind_lift fun name? => ?_
  cases name? with
  | some =>
    refine reports_setCondition ?_
    rintro _ _ _ ⟨⟩
    exact nofun
  | none => exact reports_setCondition fun hne => absurd rfl hne

theorem reports_step (targets : KubernetesTargets) :
    Reports ctx.now later Status.kubernetesUpgraded True Status.Opens (step ctx targets)
      (step (ctx.at later) targets) := by
  refine reports_bind_lift fun nodes => reports_bind_ofExcept fun d => ?_
  refine reports_bind_suffix fun suffix => ?_
  refine (Tier.reports_driveAll ctx later (tiers ctx d _ nodes suffix) _).bind ?_ ?_
  · intro progress _
    cases progress with
    | waiting requeue => exact reports_pure nofun
    | upgraded => exact reports_followCore ctx later _
  · intro progress report htold
    cases progress with
    | waiting requeue => exact ⟨requeue, rfl, rfl, fun _ => htold⟩
    | upgraded => cases htold

end DistributionPhase

namespace Workload

/-- unless the pass is to be repeated at once, what has been reported does not finish the
condition -/
def Opens (requeue : Requeue) (report : Report) : Prop :=
  requeue ≠ .immediately → ∀ reason message, report = some (reason, message) →
    Admission.locks reason = true

/-- a part that lets the workload go on is not reported -/
def Told : Progress → Report → Prop
  | .goesOn, report => report = none
  | .stops requeue, report => Opens requeue report

section
variable (condition : String) (resources : List HelmChart)

theorem opens_inProgress (requeue : Requeue) (message : String) :
    Opens requeue (some (.inProgress, message)) := by
  rintro _ _ _ ⟨⟩
  rfl

theorem reports_record (state : ChartState) (release : String) :
    Reports ctx.now later condition False Opens (record ctx condition state release)
      (record (ctx.at later) condition state release) := by
  refine reports_setCondition ?_
  rintro hne _ _ ⟨⟩
  cases state with
  | unknown | inProgress => rfl
  | notInstalled | versionAlreadyInstalled | succeeded | failed => exact absurd rfl hne

/-- a state is not reported; several chart resources are -/
theorem reports_required (chart : ReleaseChart) :
    Reports ctx.now later condition False (fun state? report => state? = none ∨ report = none)
      (required ctx condition resources chart)
      (required (ctx.at later) condition resources chart) := by
  refine reports_bind_lift fun state? => ?_
  cases state? with
  | ok state => exact reports_pure (.inr rfl)
  | error release => exact reports_setCondition (.inl rfl)

theorem reports_dependencies (charts : List ReleaseChart) :
    Reports ctx.now later condition False Told (dependencies ctx condition resources charts)
      (dependencies (ctx.at later) condition resources charts) := by
  induction charts with
  | nil => exact reports_pure rfl
  | cons d rest ih =>
    refine (reports_required ctx later condition resources d).bind (fun state? _ => ?_) ?_
    · cases state? with
      | none => exact reports_pure nofun
      | some state =>
        dsimp only
        split
        · exact ih
        · refine (reports_record ctx later condition state _).bind (fun _ _ => ?_) ?_
          · exact reports_pure nofun
          · exact fun requeue report hopens => ⟨.stops requeue, rfl, rfl, hopens⟩
    · rintro _ report (rfl | he)
      · exact ⟨.stops .immediately, rfl, rfl, fun hne => absurd rfl hne⟩
      · cases he

theorem reports_addons (workload : String) (charts : List ReleaseChart) :
    Reports ctx.now later condition False Told (addons ctx condition workload resources charts)
      (addons (ctx.at later) condition workload resources charts) := by
  induction charts with
  | nil => exact reports_pure rfl
  | cons a rest ih =>
    refine reports_bind_lift fun state? => ?_
    cases state? with
    | error release => exact reports_bind_lift fun _ => ih
    | ok state =>
      cases state with
      | inProgress => exact reports_setCondition (opens_inProgress _ _)
      | unknown => exact reports_pure nofun
      | versionAlreadyInstalled => exact ih
      | notInstalled | succeeded | failed => exact reports_bind_lift fun _ => ih

theorem reports_finish (w : ReleaseChart) (core : ChartState) :
    Reports ctx.now later condition False Opens (finish ctx condition resources w core)
      (finish (ctx.at later) condition resources w core) := by
  refine (reports_addons ctx later condition resources _ w.addons).bind ?_ ?_
  · intro progress _
    cases progress with
    | stops requeue => exact reports_pure nofun
    | goesOn => exact reports_record ctx later condition core _
  · intro progress report htold
    cases progress with
    | stops requeue => exact ⟨requeue, rfl, rfl, htold⟩
    | goesOn => cases htold

theorem reports_proceed (w : ReleaseChart) :
    Reports ctx.now later condition False Opens (proceed ctx condition resources w)
      (proceed (ctx.at later) condition resources w) := by
  refine (reports_required ctx later condition resources w).bind (fun core? _ => ?_) ?_
  · cases core? with
    | none => exact reports_pure nofun
    | some core =>
      dsimp only
      split
      · exact reports_setCondition fun hne => absurd rfl hne
      split
      · exact reports_finish ctx later condition resources w core
      · exact reports_record ctx later condition core _
  · rintro _ report (rfl | he)
    · exact ⟨.immediately, rfl, rfl, fun hne => absurd rfl hne⟩
    · cases he

theorem reports_step (w : ReleaseChart) :
    Reports ctx.now later (Status.workloadUpgraded w.prettyName) False Opens (step ctx w)
      (step (ctx.at later) w) := by
  refine reports_bind_lift fun resources => ?_
  refine (reports_dependencies ctx later _ resources w.dependencies).bind ?_ ?_
  · intro progress _
    cases progress with
    | stops requeue => exact reports_pure nofun
    | goesOn => exact reports_proceed ctx later _ resources w
  · intro progress report htold
    cases progress with
    | stops requeue => exact ⟨requeue, rfl, rfl, htold⟩
    | goesOn => cases htold

end

end Workload

end

end ReleaseUpgrade
