import ReleaseUpgrade.Phases.Run
import ReleaseUpgrade.Proofs.Cluster.Store
import ReleaseUpgrade.Proofs.Naming.InstallJob
import ReleaseUpgrade.Proofs.Phases.Attempt
import ReleaseUpgrade.Proofs.Phases.Manifest

/-!
# Whose job publishes the manifest

A plan whose manifest is missing needs a job, and the name of the job is that of the release.  The
cluster may not take the name, and it may be that of a job that another plan has created.

* `Program.Calm`               a cluster in which events and waiting change nothing;
* `Store.strict`               a cluster that takes legal names only;
* `Upgrade.creates_iff_plain`  there the job is created exactly if the version is plain;
* `ManifestPhase.Publishes`    a job that has been created for a plan;
* `ManifestPhase.taken_of_retry`    success means that the job has been created or found;
* `ManifestPhase.takes_iff_alike`   what is found may be the job of another plan, exactly if the
                               versions are alike.
-/

namespace ReleaseUpgrade

namespace Store
variable {s : Store} {k : Kind} {o : k.Object}

/-- a cluster that refuses to create objects whose names are not legal -/
def strict (refusal : UpgradeError) : Program.Handler Store
  | .create k o, s =>
    if Naming.isLegal (k.metadata o).nameAny then s.create k o else (.error refusal, s)
  | c, s => answer c s

theorem strict_of_legal {refusal : UpgradeError}
    (h : Naming.isLegal (k.metadata o).nameAny = true) :
    strict refusal (.create k o) s = s.create k o :=
  if_pos h

theorem strict_of_illegal {refusal : UpgradeError}
    (h : ¬Naming.isLegal (k.metadata o).nameAny = true) :
    strict refusal (.create k o) s = (.error refusal, s) :=
  if_neg h

theorem create_of_none (h : (s.objects k).find? (isSame k o) = none) :
    s.create k o = (.ok (), s.withObjects k (s.objects k ++ [o])) := by
  rw [create, h]

theorem create_of_live {present : k.Object} (h : (s.objects k).find? (isSame k o) = some present)
    (hlive : (k.metadata present).isTerminating = false) :
    s.create k o = (.error (.alreadyExists (path k o)), s) := by
  rw [create, h]
  dsimp only
  rw [hlive, Bool.and_false, if_neg Bool.false_ne_true]

end Store

/-- events and waiting leave the state as it is -/
structure Program.Calm {σ : Type} (handler : Program.Handler σ) : Prop where
  publish : ∀ plan event s, (handler (.publishEvent plan event) s).2 = s
  wait : ∀ milliseconds s, (handler (.wait milliseconds) s).2 = s

theorem Store.calm_answer : Program.Calm Store.answer := ⟨fun _ _ _ => rfl, fun _ _ => rfl⟩

theorem Store.calm_strict (refusal : UpgradeError) : Program.Calm (Store.strict refusal) :=
  ⟨fun _ _ _ => rfl, fun _ _ => rfl⟩

section
variable {σ : Type} {handler : Program.Handler σ} {s s' : σ} {e : UpgradeError}

namespace Action
variable {α : Type} {a : Action α}

theorem run_recover_of_ok {v : α} (h : Program.run handler a.run s = (.ok v, s'))
    (f : UpgradeError → Action α) : Program.run handler (a.recover f).run s = (.ok v, s') := by
  show Program.run handler (a.run >>= _) s = _
  rw [Program.run_bind, h]
  rfl

theorem run_recover_of_error (h : Program.run handler a.run s = (.error e, s'))
    (f : UpgradeError → Action α) :
    Program.run handler (a.recover f).run s = Program.run handler (f e).run s' := by
  show Program.run handler (a.run >>= _) s = _
  rw [Program.run_bind, h]

end Action

namespace Step
variable {α β : Type} {a : Action α}

theorem run_bind_lift_of_ok {v : α} (h : Program.run handler a.run s = (.ok v, s'))
    (f : α → Step β) (status : Status) :
    Program.run handler ((liftM a >>= f : Step β).outcome status) s =
      Program.run handler ((f v).outcome status) s' := by
  show Program.run handler ((a.run >>= fun x => Program.done (x, status)) >>= _) s = _
  rw [Program.run_bind, Program.run_bind, h]
  rfl

theorem run_bind_lift_of_error (h : Program.run handler a.run s = (.error e, s'))
    (f : α → Step β) (status : Status) :
    Program.run handler ((liftM a >>= f : Step β).outcome status) s =
      ((.error e, status), s') := by
  show Program.run handler ((a.run >>= fun x => Program.done (x, status)) >>= _) s = _
  rw [Program.run_bind, Program.run_bind, h]
  rfl

end Step

namespace Context
variable {ctx : Context} {k : Kind} {o : k.Object}

theorem run_create_of_ok (hcalm : Program.Calm handler)
    (h : handler (.create k o) s = (.ok (), s')) :
    Program.run handler (ctx.create k o).run s = (.ok (), s') := by
  show Program.run handler (.call (.create k o) _) s = _
  rw [Program.run_call, h]
  exact congrArg (Prod.mk _) (hcalm.publish ..)

theorem run_create_of_error (h : handler (.create k o) s = (.error e, s')) :
    Program.run handler (ctx.create k o).run s = (.error e, s') := by
  show Program.run handler (.call (.create k o) _) s = _
  rw [Program.run_call, h]
  rfl

end Context

variable {ctx : Context}

namespace ManifestPhase
variable {job : Job}

theorem run_resolve {manifests : List ReleaseManifest}
    (h : handler (.list .releaseManifest (some (planNamespace ctx))) s = (.ok manifests, s)) :
    Program.run handler (resolve ctx).run s =
      (.ok (manifests.find? fun m => m.spec.releaseVersion = ctx.plan.spec.releaseVersion), s) := by
  show Program.run handler (.call (.list .releaseManifest _) _) s = _
  rw [Program.run_call, h]
  rfl

/-! An attempt ends in one of three ways: the job is created, it is refused, or it is there. -/

theorem run_attempt_of_created (hcalm : Program.Calm handler)
    (h : handler (.create .job job) s = (.ok (), s')) :
    Program.run handler (attempt ctx job).run s = (.ok (), s') :=
  Action.run_recover_of_ok (Context.run_create_of_ok (k := .job) hcalm h) _

theorem run_attempt_of_refused (h : handler (.create .job job) s = (.error e, s))
    (he : e.isConflict = false) : Program.run handler (attempt ctx job).run s = (.error e, s) := by
  have hcreate : Program.run handler (ctx.create .job job).run s = (.error e, s) :=
    Context.run_create_of_error (k := .job) h
  rw [attempt, Action.run_recover_of_error hcreate, he]
  rfl

theorem run_attempt_of_live (h : handler (.create .job job) s = (.error e, s))
    (he : e.isConflict = true) {existing : Job}
    (hget : handler (.get .job job.metadata.nsOr job.metadata.nameAny) s = (.ok (some existing), s))
    (hlive : existing.metadata.isTerminating = false) :
    Program.run handler (attempt ctx job).run s = (.ok (), s) := by
  have hcreate : Program.run handler (ctx.create .job job).run s = (.error e, s) :=
    Context.run_create_of_error (k := .job) h
  rw [attempt, Action.run_recover_of_error hcreate, he]
  show Program.run handler (.call (.get .job job.metadata.nsOr job.metadata.nameAny) _) s = _
  rw [Program.run_call, hget]
  show Program.run handler (ExceptT.run (if existing.metadata.isTerminating then _ else _)) s = _
  rw [hlive, if_neg Bool.false_ne_true]
  rfl

theorem run_retry_of_ok {attempt : Action Unit}
    (h : Program.run handler attempt.run s = (.ok (), s')) (delays : List Nat) :
    Program.run handler (retry attempt delays).run s = (.ok (), s') := by
  cases delays with
  | nil => exact h
  | cons => exact Action.run_recover_of_ok h _

/-- an attempt that fails and changes nothing fails again -/
theorem run_retry_of_error (hcalm : Program.Calm handler) {attempt : Action Unit}
    (h : Program.run handler attempt.run s = (.error e, s)) (delays : List Nat) :
    Program.run handler (retry attempt delays).run s = (.error e, s) := by
  induction delays with
  | nil => exact h
  | cons delay rest ih =>
    refine (Action.run_recover_of_error h _).trans ?_
    show Program.run handler (retry attempt rest).run (handler (.wait delay) s).2 = _
    rw [hcalm.wait, ih]

end ManifestPhase

namespace Upgrade
variable {suffix : String} {status : Status}

/-- if there is no manifest, all that a step does is to install it -/
theorem run_step_of_ok
    (hresolve : Program.run handler (ManifestPhase.resolve ctx).run s = (.ok none, s))
    (hinstall : Program.run handler (ManifestPhase.install ctx).run s = (.ok (), s')) :
    Program.run handler ((step ctx suffix).outcome status) s = ((.ok none, status), s') :=
  (Step.run_bind_lift_of_ok hresolve _ status).trans (Step.run_bind_lift_of_ok hinstall _ status)

theorem run_step_of_error
    (hresolve : Program.run handler (ManifestPhase.resolve ctx).run s = (.ok none, s))
    (hinstall : Program.run handler (ManifestPhase.install ctx).run s = (.error e, s')) :
    Program.run handler ((step ctx suffix).outcome status) s = ((.error e, status), s') :=
  (Step.run_bind_lift_of_ok hresolve _ status).trans
    (Step.run_bind_lift_of_error hinstall _ status)

end Upgrade

end

namespace ManifestPhase

/-- the namespace of the plan has no manifest of the release that the plan asks for -/
def Unpublished (ctx : Context) (s : Store) : Prop :=
  ∀ m ∈ s.manifests, m.metadata.ns = some (planNamespace ctx) →
    m.spec.releaseVersion ≠ ctx.plan.spec.releaseVersion

/-- the job that is there under the name of the one that the plan needs -/
def present? (ctx : Context) (s : Store) : Option Job :=
  s.get? .job (planNamespace ctx) (Naming.installJob ctx.plan.spec.releaseVersion)

section
variable {ctx : Context} {s : Store} {refusal : UpgradeError}

theorem find?_manifest (h : Unpublished ctx s) :
    (s.list .releaseManifest (some (planNamespace ctx))).find?
      (fun m : ReleaseManifest => m.spec.releaseVersion = ctx.plan.spec.releaseVersion) = none := by
  refine List.find?_eq_none.mpr fun m hm hversion => ?_
  obtain ⟨hmem, hns⟩ := List.mem_filter.mp hm
  exact h m hmem (of_decide_eq_true hns) (of_decide_eq_true hversion)

theorem run_resolve_of_unpublished (refusal : UpgradeError) (h : Unpublished ctx s) :
    Program.run (Store.strict refusal) (resolve ctx).run s = (.ok none, s) := by
  have hlist : Store.strict refusal (.list .releaseManifest (some (planNamespace ctx))) s =
      (.ok (s.list .releaseManifest (some (planNamespace ctx))), s) := rfl
  rw [run_resolve hlist, find?_manifest h]

theorem run_install_of_legal
    (hlegal : Naming.isLegal (Naming.installJob ctx.plan.spec.releaseVersion) = true)
    (hnone : present? ctx s = none) :
    Program.run (Store.strict refusal) (install ctx).run s =
      (.ok (), s.withObjects .job (s.jobs ++ [job ctx])) := by
  have hcreate : Store.strict refusal (.create .job (job ctx)) s =
      (.ok (), s.withObjects .job (s.jobs ++ [job ctx])) :=
    (Store.strict_of_legal (k := .job) (o := job ctx) hlegal).trans
      (Store.create_of_none (k := .job) (o := job ctx) hnone)
  exact run_retry_of_ok (run_attempt_of_created (Store.calm_strict refusal) hcreate) delays

theorem run_install_of_illegal (hrefusal : refusal.isConflict = false)
    (hlegal : ¬Naming.isLegal (Naming.installJob ctx.plan.spec.releaseVersion) = true) :
    Program.run (Store.strict refusal) (install ctx).run s = (.error refusal, s) := by
  have hcreate : Store.strict refusal (.create .job (job ctx)) s = (.error refusal, s) :=
    Store.strict_of_illegal (k := .job) (o := job ctx) hlegal
  exact run_retry_of_error (Store.calm_strict refusal) (run_attempt_of_refused hcreate hrefusal)
    delays

end

end ManifestPhase

namespace OneNode

/-- a plan that asks for a version -/
def contextFor (version : String) : Context :=
  contextAt { planAt "1" none with spec := { releaseVersion := version } }

def prerelease : SemVer := { major := 3, minor := 1, patch := 0, pre := ["rc", "1"] }

def hyphenated : SemVer := { major := 3, minor := 1, patch := 0, pre := ["rc-1"] }

def built : SemVer := { prerelease with build := ["build", "5"] }

theorem releaseVersion_prerelease : Admission.releaseVersion "3.1.0-rc.1" = .ok prerelease := rfl

theorem releaseVersion_hyphenated : Admission.releaseVersion "3.1.0-rc-1" = .ok hyphenated := rfl

theorem releaseVersion_built : Admission.releaseVersion "3.1.0-rc.1+build.5" = .ok built := rfl

theorem isPlain_prerelease : prerelease.IsPlain := by
  have hlower : prerelease.pre.all (fun id => id.toList.all fun c => !c.isUpper) = true := rfl
  refine ⟨rfl, by simpa only [List.all_eq_true, Bool.not_eq_true'] using hlower, fun id hid => ?_⟩
  cases hid
  decide

theorem alike_hyphenated : prerelease.Alike hyphenated := ⟨rfl, rfl, rfl, by decide, rfl⟩

/-- what a cluster says of a name that is not legal -/
def invalidName : UpgradeError := .cluster (.answered 422 "Invalid" "Job is invalid")

end OneNode

/-- for every plan that is admitted: the name of its job is legal exactly if the version that it
asks for is plain.  On a cluster that takes legal names only, where the manifest is missing and no
job has that name, the step of the plan creates the job if the version is plain; and if it is not,
the step ends with the refusal of the cluster and nothing has changed -/
theorem Upgrade.creates_iff_plain {ctx : Context} (hadmitted : Admission.create ctx.plan = .ok ()) :
    ∃ v, Admission.releaseVersion ctx.plan.spec.releaseVersion = .ok v ∧
      (Naming.isLegal (Naming.installJob ctx.plan.spec.releaseVersion) = true ↔ v.IsPlain) ∧
      ∀ (refusal : UpgradeError) (suffix : String) (status : Status) (s : Store),
        refusal.isConflict = false → ManifestPhase.Unpublished ctx s →
        ManifestPhase.present? ctx s = none →
          (v.IsPlain → Program.run (Store.strict refusal) ((step ctx suffix).outcome status) s =
            ((.ok none, status), s.withObjects .job (s.jobs ++ [ManifestPhase.job ctx]))) ∧
          (¬v.IsPlain → Program.run (Store.strict refusal) ((step ctx suffix).outcome status) s =
            ((.error refusal, status), s)) := by
  obtain ⟨v, hv⟩ := Admission.requested_of_create hadmitted
  have hlegal := Naming.isLegal_installJob_iff hv
  refine ⟨v, hv, hlegal, fun refusal suffix status s hrefusal hunpublished hnone => ?_⟩
  have hresolve := ManifestPhase.run_resolve_of_unpublished refusal hunpublished
  constructor
  · intro hplain
    exact run_step_of_ok hresolve (ManifestPhase.run_install_of_legal (hlegal.mpr hplain) hnone)
  · intro hplain
    exact run_step_of_error hresolve
      (ManifestPhase.run_install_of_illegal hrefusal fun h => hplain (hlegal.mp h))

/-- the job of a prerelease is created, and that of a prerelease with a build is not -/
theorem Upgrade.creates_iff_plain_prerelease :
    let ctx := OneNode.contextFor "3.1.0-rc.1"
    let built := OneNode.contextFor "3.1.0-rc.1+build.5"
    Program.run (Store.strict OneNode.invalidName) ((step ctx "0a1b2c3d4e").outcome {}) {} =
        ((.ok none, {}), ({} : Store).withObjects .job [ManifestPhase.job ctx]) ∧
      Program.run (Store.strict OneNode.invalidName) ((step built "0a1b2c3d4e").outcome {}) {} =
        ((.error OneNode.invalidName, {}), {}) := by
  intro ctx built
  have hprerelease : Admission.releaseVersion ctx.plan.spec.releaseVersion =
      .ok OneNode.prerelease := OneNode.releaseVersion_prerelease
  have hbuilt : Admission.releaseVersion built.plan.spec.releaseVersion = .ok OneNode.built :=
    OneNode.releaseVersion_built
  have hempty (ctx : Context) : ManifestPhase.Unpublished ctx {} := fun _ hm =>
    absurd hm List.not_mem_nil
  have hnone (ctx : Context) : ManifestPhase.present? ctx {} = none := rfl
  constructor
  · obtain ⟨v, hv, _, hrun⟩ := creates_iff_plain (Admission.create_of_requested hprerelease)
    obtain rfl : v = OneNode.prerelease := Except.ok.inj (hv.symm.trans hprerelease)
    exact (hrun _ _ _ _ rfl (hempty ctx) (hnone ctx)).1 OneNode.isPlain_prerelease
  · obtain ⟨v, hv, _, hrun⟩ := creates_iff_plain (Admission.create_of_requested hbuilt)
    obtain rfl : v = OneNode.built := Except.ok.inj (hv.symm.trans hbuilt)
    refine (hrun _ _ _ _ rfl (hempty built) (hnone built)).2 fun h => ?_
    exact absurd h.build (by decide)

/-- a build in the version is in the way of the job -/
theorem Naming.illegal_build :
    ¬∀ plan, Admission.create plan = .ok () →
      isLegal (installJob plan.spec.releaseVersion) = true := by
  intro h
  have hbuilt : Admission.releaseVersion
      (OneNode.contextFor "3.1.0-rc.1+build.5").plan.spec.releaseVersion = .ok OneNode.built :=
    OneNode.releaseVersion_built
  have hlegal := h _ (Admission.create_of_requested hbuilt)
  exact absurd ((isLegal_installJob_iff hbuilt).mp hlegal).build (by decide)

namespace ManifestPhase

/-- the job has been created to publish the manifest of the release that the plan asks for -/
structure Publishes (ctx : Context) (existing : Job) : Prop where
  ns : existing.metadata.ns = (job ctx).metadata.ns
  name : existing.metadata.nameAny = (job ctx).metadata.nameAny
  spec : existing.spec = (job ctx).spec

/-- a lookup has found a job that stays under the name of the one that the plan needs -/
def Found (ctx : Context) (t : Trace) (existing : Job) : Prop :=
  .got .job (planNamespace ctx) (Naming.installJob ctx.plan.spec.releaseVersion)
      (some existing) ∈ t ∧
    existing.metadata.isTerminating = false

section
variable {ctx other : Context} {t : Trace} {v w : SemVer}

theorem Found.append {existing : Job} {u : Trace} (h : Found ctx u existing) :
    Found ctx (t ++ u) existing :=
  ⟨List.mem_append_right t h.1, h.2⟩

theorem found_of_settle {e : UpgradeError} (h : (settle (job ctx) e).Yields t (.ok ())) :
    ∃ existing, Found ctx t existing := by
  obtain ⟨_, _, he⟩ | ⟨found, _, rfl, hrest⟩ := (Action.yields_bind_get ..).mp h
  · cases he
  cases found with
  | none => cases ((Action.yields_throw ..).mp hrest).2
  | some existing =>
    dsimp only at hrest
    split at hrest
    · cases ((Action.yields_throw ..).mp hrest).2
    · rename_i hlive
      exact ⟨existing, List.mem_cons_self, Bool.eq_false_iff.mpr hlive⟩

/-- an attempt that succeeds has created the job or found one -/
theorem taken_of_attempt (h : (attempt ctx (job ctx)).Yields t (.ok ())) :
    .created .job (job ctx) ∈ t ∨ ∃ existing, Found ctx t existing := by
  obtain ⟨_, hc, _⟩ | ⟨e, u, v, rfl, hc, hrest⟩ := (Action.yields_recover ..).mp h
  · obtain ⟨_, _, he⟩ | ⟨_, _, rfl, _, _⟩ := (Context.yields_create ..).mp hc
    · cases he
    · exact .inl List.mem_cons_self
  · split at hrest
    · obtain ⟨existing, hfound⟩ := found_of_settle hrest
      exact .inr ⟨existing, hfound.append⟩
    · cases ((Action.yields_throw ..).mp hrest).2

/-- however often it is tried, success means that the job has been created or that one was there -/
theorem taken_of_retry {delays : List Nat}
    (h : (retry (attempt ctx (job ctx)) delays).Yields t (.ok ())) :
    .created .job (job ctx) ∈ t ∨ ∃ existing, Found ctx t existing := by
  induction delays generalizing t with
  | nil => exact taken_of_attempt h
  | cons delay rest ih =>
    obtain ⟨_, ha, _⟩ | ⟨e, u, v, rfl, _, hrest⟩ := (Action.yields_recover ..).mp h
    · exact taken_of_attempt ha
    obtain ⟨_, _, he⟩ | ⟨_, w, v, rfl, _, hmore⟩ := (Action.yields_bind ..).mp hrest
    · cases he
    obtain hcreated | ⟨existing, hfound⟩ := ih hmore
    · exact .inl (List.mem_append_right u (List.mem_append_right w hcreated))
    · exact .inr ⟨existing, hfound.append.append⟩

theorem run_install_of_live {s : Store} {existing : Job} (h : present? ctx s = some existing)
    (hlive : existing.metadata.isTerminating = false) :
    Program.run Store.answer (install ctx).run s = (.ok (), s) := by
  have hcreate := Store.create_of_live (k := .job) (o := job ctx) h hlive
  have hget : Store.answer (.get .job (job ctx).metadata.nsOr (job ctx).metadata.nameAny) s =
      (.ok (some existing), s) := congrArg (fun found => (Except.ok found, s)) h
  exact run_retry_of_ok (run_attempt_of_live hcreate rfl hget hlive) delays

theorem run_install_of_none {s : Store} (h : present? ctx s = none) :
    Program.run Store.answer (install ctx).run s =
      (.ok (), s.withObjects .job (s.jobs ++ [job ctx])) :=
  run_retry_of_ok (run_attempt_of_created Store.calm_answer
    (Store.create_of_none (k := .job) (o := job ctx) h)) delays

/-- where the job of another plan is there and stays, and no second one of its name or of the name
that is needed, it is taken for the one that is needed exactly if these names are the same -/
theorem takes_iff_name {s : Store} {existing : Job} (hother : Publishes other existing)
    (hlive : existing.metadata.isTerminating = false)
    (hns : planNamespace other = planNamespace ctx) (hthere : present? other s = some existing)
    (hsingle : ∀ found, present? ctx s = some found → found = existing) :
    Program.run Store.answer (install ctx).run s = (.ok (), s) ↔
      Naming.installJob ctx.plan.spec.releaseVersion =
        Naming.installJob other.plan.spec.releaseVersion := by
  constructor
  · intro hrun
    cases hfound : present? ctx s with
    | none =>
      have hcreated := (run_install_of_none hfound).symm.trans hrun
      have hjobs : (s.jobs ++ [job ctx]).length = s.jobs.length :=
        congrArg (fun r => r.2.jobs.length) hcreated
      rw [List.length_append] at hjobs
      exact absurd hjobs (Nat.succ_ne_self _)
    | some found =>
      rw [hsingle found hfound] at hfound
      have hnamed : Store.isNamed .job _ _ existing = true := List.find?_some hfound
      exact (congrArg Key.name (Store.isNamed_iff.mp hnamed)).symm.trans hother.name
  · intro hname
    have hpresent : present? ctx s = some existing := by
      rw [present?, ← hns, hname]
      exact hthere
    exact run_install_of_live hpresent hlive

end

/-- for all plans that ask for versions: their jobs share a name exactly if the versions are alike,
and versions without hyphens in their identifiers are alike only if they are the same.  Whatever the
cluster answers, installing succeeds only if it has created the job or has found one that stays, and
if that one has been created for another plan, the versions are alike.  And if they are alike, the
live job of another plan in the namespace is always taken for the one that is needed -/
theorem takes_iff_alike {ctx other : Context} {v w : SemVer}
    (hv : Admission.releaseVersion ctx.plan.spec.releaseVersion = .ok v)
    (hw : Admission.releaseVersion other.plan.spec.releaseVersion = .ok w) :
    (Naming.installJob ctx.plan.spec.releaseVersion =
        Naming.installJob other.plan.spec.releaseVersion ↔ v.Alike w) ∧
      ((∀ id ∈ v.pre ++ v.build, '-' ∉ id.toList) → (∀ id ∈ w.pre ++ w.build, '-' ∉ id.toList) →
        v.Alike w → v = w) ∧
      (∀ t, (install ctx).Yields t (.ok ()) → .created .job (job ctx) ∈ t ∨
        ∃ existing, Found ctx t existing ∧
          (existing.metadata.nameAny = Naming.installJob ctx.plan.spec.releaseVersion →
            Publishes other existing → v.Alike w)) ∧
      ∀ existing, Publishes other existing → existing.metadata.isTerminating = false →
        planNamespace other = planNamespace ctx →
        ∀ s : Store, present? other s = some existing →
          (∀ found, present? ctx s = some found → found = existing) →
          (Program.run Store.answer (install ctx).run s = (.ok (), s) ↔ v.Alike w) := by
  obtain ⟨_, hspelt⟩ := Naming.toList_installJob hv
  obtain ⟨_, hspelt'⟩ := Naming.toList_installJob hw
  have hnames := Naming.installJob_eq_iff hv hw
  refine ⟨hnames, fun hpre hpre' halike => halike.eq hspelt hspelt' hpre hpre', fun t ht => ?_, ?_⟩
  · obtain hcreated | ⟨existing, hfound⟩ := taken_of_retry ht
    · exact .inl hcreated
    · exact .inr ⟨existing, hfound, fun hname hother =>
        hnames.mp (hname.symm.trans hother.name)⟩
  · intro existing hother hlive hns s hthere hsingle
    rw [takes_iff_name hother hlive hns hthere hsingle, hnames]

theorem publishes_self (ctx : Context) : Publishes ctx (job ctx) := ⟨rfl, rfl, rfl⟩

theorem present?_self (ctx : Context) : present? ctx { jobs := [job ctx] } = some (job ctx) :=
  List.find?_cons_of_pos (Store.isSame_self (k := .job))

theorem eq_of_present? {ctx : Context} {existing found : Job}
    (h : present? ctx { jobs := [existing] } = some found) : found = existing := by
  have hmem : found ∈ [existing] := List.mem_of_find?_eq_some h
  exact List.mem_singleton.mp hmem

/-- versions that differ in a dot share a job -/
theorem takes_iff_alike_prerelease :
    let s : Store := { jobs := [job (OneNode.contextFor "3.1.0-rc-1")] }
    Program.run Store.answer (install (OneNode.contextFor "3.1.0-rc.1")).run s = (.ok (), s) := by
  intro s
  have hv : Admission.releaseVersion (OneNode.contextFor "3.1.0-rc.1").plan.spec.releaseVersion =
      .ok OneNode.prerelease := OneNode.releaseVersion_prerelease
  have hw : Admission.releaseVersion (OneNode.contextFor "3.1.0-rc-1").plan.spec.releaseVersion =
      .ok OneNode.hyphenated := OneNode.releaseVersion_hyphenated
  obtain ⟨_, _, _, htakes⟩ := takes_iff_alike hv hw
  exact (htakes _ (publishes_self _) rfl rfl s (present?_self _) fun _ => eq_of_present?).mpr
    OneNode.alike_hyphenated

end ManifestPhase

/-- two versions of which one has a hyphen where the other has a dot -/
theorem Naming.installJob_shared :
    ¬∀ text text' v w, Admission.releaseVersion text = .ok v →
      Admission.releaseVersion text' = .ok w → v ≠ w → installJob text ≠ installJob text' := by
  intro h
  have hv := OneNode.releaseVersion_prerelease
  have hw := OneNode.releaseVersion_hyphenated
  exact h _ _ _ _ hv hw (by decide) ((installJob_eq_iff hv hw).mpr OneNode.alike_hyphenated)

end ReleaseUpgrade
