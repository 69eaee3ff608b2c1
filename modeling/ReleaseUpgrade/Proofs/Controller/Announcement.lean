import ReleaseUpgrade.Metrics.Basic
import ReleaseUpgrade.Proofs.Controller.History

/-!
# How often the end is announced

A pass that reaches the release publishes an event and counts the release as completed.  Later passes
know of it from the status alone, and the status is written after the event.  If the write fails, a
later pass reaches the release once more.

* `Visit`, `Visits`               passes over the stored versions of a plan that asks for one release;
* `Visit.completes`               the pass reaches the release;
* `Visits.settled_or_open`        the stored plan learns of it at most once;
* `Visits.announced_unless_lost`  so the end is announced once, and once more for each status that has
                                  been lost.
-/

namespace ReleaseUpgrade

/-- how often the trace says that the upgrade has come to its end -/
def Trace.announcements (t : Trace) : Nat := t.countP (·.call.announces)

theorem Trace.announcements_append (u v : Trace) :
    announcements (u ++ v) = announcements u + announcements v := List.countP_append

theorem Trace.All.announcements_eq {t : Trace} {p : Call → Bool} (h : t.All p)
    (hp : ∀ c, p c = true → c.announces = false) : t.announcements = 0 :=
  List.countP_eq_zero.mpr fun x hx => by rw [hp x.call (h x hx)]; exact Bool.false_ne_true

theorem Call.announces_eq_false_of_cleans {c : Call} (h : c.cleans = true) :
    c.announces = false := by
  cases c <;> first | rfl | cases h

/-- the release is reached in the status, and was not in the one before -/
def Status.reaches (release : String) (before status : Status) : Bool :=
  status.lastSuccessfulRelease = some release && before.lastSuccessfulRelease != some release

theorem Status.reaches_eq_true {release : String} {before status : Status} :
    reaches release before status = true ↔
      status.lastSuccessfulRelease = some release ∧
        before.lastSuccessfulRelease ≠ some release := by
  rw [reaches, Bool.and_eq_true, decide_eq_true_iff, bne_iff_ne]

theorem Status.reaches_of_eq {release : String} {before status : Status}
    (h : status.lastSuccessfulRelease = before.lastSuccessfulRelease) :
    reaches release before status = false := by
  refine Bool.eq_false_iff.mpr fun hreaches => ?_
  obtain ⟨hnew, hold⟩ := reaches_eq_true.mp hreaches
  exact hold (h ▸ hnew)

/-- the pass reaches the release -/
def Reconciliation.completes (release : String) (r : Reconciliation) : Bool :=
  r.progress.any fun (before, status) => Status.reaches release before status

section
variable {ctx : Context} {suffix : String} {t : Trace}

theorem Upgrade.announcements_of_complete {before after : Status} {r : Except UpgradeError Requeue}
    (h : (complete ctx).Yields before t r after) :
    t.announcements = (Status.reaches ctx.plan.spec.releaseVersion before after).toNat := by
  obtain ⟨_, hafter, _⟩ := complete_of_yields h
  have h := (Step.yields_bind_status ..).mp h
  split at h
  · rename_i hnew
    obtain ⟨_, _, _, rfl, hp, hlast⟩ | ⟨_, hp, _⟩ :=
      ((Step.yields_bind_lift ..).mp ((Step.yields_bind_modify ..).mp h)).symm
    · obtain ⟨answer, rfl, _⟩ := (Action.yields_publish ..).mp hp
      obtain ⟨rfl, _⟩ := (Step.yields_pure ..).mp hlast
      rw [Status.reaches_eq_true.mpr ⟨by rw [hafter], bne_iff_ne.mp hnew⟩]
      rfl
    · obtain ⟨_, _, he⟩ := (Action.yields_publish ..).mp hp
      cases he
  · obtain ⟨rfl, _, rfl⟩ := (Step.yields_pure ..).mp h
    rw [Status.reaches_of_eq rfl]
    rfl

theorem Upgrade.announcements_of_yields {before after : Status} {r : Except UpgradeError Requeue}
    (h : (step ctx suffix).Yields before t r after) :
    t.announcements = (Status.reaches ctx.plan.spec.releaseVersion before after).toNat := by
  have hordinary {u : Trace} (hu : u.All Call.isOrdinary) : u.announcements = 0 :=
    hu.announcements_eq fun _ hc => (Call.isOrdinary_iff.mp hc).2
  obtain ⟨ht, hkept⟩ | ⟨u, v, rfl, hu, hend⟩ := calls_of_yields h
  · rw [hordinary ht, Status.reaches_of_eq hkept]
    rfl
  · rw [Trace.announcements_append, hordinary hu, announcements_of_complete hend, Nat.zero_add]

/-- a pass announces the end exactly when it reaches the release -/
theorem Controller.announcements_of_yields {r : Reconciliation}
    (h : (reconcile ctx suffix).Yields t r) :
    t.announcements = (r.completes ctx.plan.spec.releaseVersion).toNat := by
  cases course_of_yields h with
  | finalize _ hf =>
    obtain ⟨released, _, _, rfl, hrelease, hlast⟩ := (Program.yields_bind ..).mp hf
    have hnone : r.progress = none := by
      cases released <;> obtain ⟨_, rfl⟩ := hlast <;> rfl
    rw [(cleans_of_finalize hf).announcements_eq fun _ => Call.announces_eq_false_of_cleans,
      Reconciliation.completes, hnone]
    rfl
  | advance _ _ hs =>
    rw [Trace.announcements_append, Upgrade.announcements_of_yields hs]
    rfl
  | guard => rfl

end

namespace Metrics
variable (m : Metrics) (p : PlanLabels)

/-- how often a release of a plan has been counted as completed -/
def completions (release : String) : UInt64 := (m.completed.get? (p, release)).getD 0

theorem completed_recordPhase (now : Nat) (previous current : String) :
    (m.recordPhase now p previous current).completed = m.completed := by
  unfold recordPhase transition observePhaseDuration setPhaseInfo ensurePhaseStart
  dsimp only
  split
  · rfl
  · dsimp only
    split <;> rfl

theorem completed_recordFailedConditions (count : Nat) :
    (m.recordFailedConditions p count).completed = m.completed := by
  unfold recordFailedConditions
  split <;> rfl

theorem completions_recordProgress (now : Nat) (before status : Status) (release : String) :
    (m.recordProgress now p before status).completions p release =
      m.completions p release + UInt64.ofNat (Status.reaches release before status).toNat := by
  have hsame : ((m.recordPhase now p before.activePhase.text
      status.activePhase.text).recordFailedConditions p (before.newlyFailed status)).completed =
      m.completed := by
    rw [completed_recordFailedConditions, completed_recordPhase]
  unfold recordProgress completions
  dsimp only
  cases hreached : status.lastSuccessfulRelease with
  | none =>
    have hnot : Status.reaches release before status = false := by
      rw [Status.reaches, hreached]
      rfl
    rw [hnot, hsame]
    exact (UInt64.add_zero _).symm
  | some reached =>
    -- a release that was there before is not counted again
    by_cases hold : before.lastSuccessfulRelease = some reached
    · rw [Status.reaches_of_eq (hreached.trans hold.symm)]
      dsimp only
      rw [if_pos hold, hsame]
      exact (UInt64.add_zero _).symm
    · dsimp only
      rw [if_neg hold, recordCompleted, hsame]
      by_cases he : reached = release
      · subst he
        rw [Status.reaches_eq_true.mpr ⟨hreached, hold⟩, Series.get?_update_self]
        rfl
      · have hnot : Status.reaches release before status = false :=
          Bool.eq_false_iff.mpr fun hreaches =>
            he (Option.some.inj (hreached.symm.trans (Status.reaches_eq_true.mp hreaches).1))
        rw [hnot, Series.get?_update_of_ne fun hkey => he (Prod.mk.inj hkey).2]
        exact (UInt64.add_zero _).symm

theorem completions_record (now elapsed : Nat) {r : Reconciliation} (hstays : r.released = false)
    (release : String) :
    (m.record now elapsed p r).completions p release =
      m.completions p release + UInt64.ofNat (r.completes release).toNat := by
  unfold record
  dsimp only
  rw [hstays, if_neg Bool.false_ne_true, Reconciliation.completes]
  cases r.progress with
  | none => exact (UInt64.add_zero _).symm
  | some progress => exact completions_recordProgress m p now progress.1 progress.2 release

end Metrics

/-- a pass over a plan, with the status that becomes of it -/
structure Visit where
  ctx : Context
  suffix : String
  trace : Trace
  result : Reconciliation
  ran : (Controller.reconcile ctx suffix).Yields trace result
  /-- the clock at the end of the pass, and how long the pass took -/
  clock : Nat
  elapsed : Nat
  /-- the stored plan has got the status that the pass writes -/
  kept : Bool

namespace Visit

/-- the pass reaches the release that the plan asks for -/
def completes (v : Visit) : Bool := v.result.completes v.ctx.plan.spec.releaseVersion

/-- the pass in the metrics -/
def record (v : Visit) : Metrics → Metrics :=
  Metrics.record v.clock v.elapsed (.ofPlan v.ctx.plan) v.result

/-- how often the passes say that the upgrade has come to its end -/
def announcements (visits : List Visit) : Nat :=
  visits.foldr (fun v n => v.trace.announcements + n) 0

/-- the metrics after the passes, of which the first one is the last -/
def recorded (visits : List Visit) (m : Metrics) : Metrics := visits.foldr record m

variable {visits : List Visit}

theorem announcements_eq : announcements visits = visits.countP completes := by
  induction visits with
  | nil => rfl
  | cons v visits ih =>
    have hv : v.trace.announcements = v.completes.toNat := Controller.announcements_of_yields v.ran
    rw [announcements, List.foldr_cons, hv, List.countP_cons]
    rw [announcements] at ih
    rw [ih, Nat.add_comm]
    cases v.completes <;> rfl

theorem completions_recorded {p : PlanLabels} {release : String}
    (h : ∀ v ∈ visits, .ofPlan v.ctx.plan = p ∧ v.ctx.plan.spec.releaseVersion = release)
    (hstays : ∀ v ∈ visits, v.result.released = false) (m : Metrics) :
    (recorded visits m).completions p release =
      m.completions p release + UInt64.ofNat (visits.countP completes) := by
  induction visits with
  | nil => exact (UInt64.add_zero _).symm
  | cons v visits ih =>
    obtain ⟨⟨rfl, rfl⟩, hrest⟩ := List.forall_mem_cons.mp h
    obtain ⟨hv, hstays⟩ := List.forall_mem_cons.mp hstays
    show (v.record (recorded visits m)).completions _ _ = _
    rw [record, Metrics.completions_record _ _ _ _ hv, ih hrest hstays, List.countP_cons,
      UInt64.ofNat_add, ← UInt64.add_assoc]
    change _ + UInt64.ofNat v.completes.toNat = _
    cases v.completes <;> rfl

end Visit

/-- another version of a plan that asks for the same -/
structure SameAsked (new plan : UpgradePlan) : Prop where
  spec_eq : new.spec = plan.spec
  labels_eq : PlanLabels.ofPlan new = PlanLabels.ofPlan plan

/-- the stored versions of a plan while it asks for one release, and the passes that have read one of
them; the current version and the last pass come first -/
inductive Visits : List UpgradePlan → List Visit → Prop
  | stored {plan} : Fresh [] plan → Visits [plan] []
  /-- nothing but the metadata changes, such as the finalizers -/
  | touched {plan past visits new} : Visits (plan :: past) visits → SameAsked new plan →
      new.status = plan.status → Fresh (plan :: past) new → Visits (new :: plan :: past) visits
  /-- a pass writes no status, or the write has been refused or got lost -/
  | lost {plan past visits} (v : Visit) : Visits (plan :: past) visits →
      v.ctx.plan ∈ plan :: past →
      (∀ status, ⟨.patchStatus v.ctx.plan status, .ok ()⟩ ∉ v.trace) → v.kept = false →
      Visits (plan :: past) (v :: visits)
  /-- a pass writes its status and names the current version; the answer may get lost -/
  | written {plan past visits new} (v : Visit) (status answer) : Visits (plan :: past) visits →
      v.ctx.plan ∈ plan :: past → ⟨.patchStatus v.ctx.plan status, answer⟩ ∈ v.trace →
      Rest.revision? (Rest.statusPatch v.ctx.plan status) =
        plan.metadata.resourceVersion.map Json.str →
      v.kept = true → SameAsked new plan → new.status = some status → Fresh (plan :: past) new →
      Visits (new :: plan :: past) (v :: visits)

theorem Controller.progress_of_written {ctx : Context} {suffix : String} {t : Trace}
    {r : Reconciliation} {plan : UpgradePlan} {status : Status}
    {answer : Except UpgradeError Unit} (h : (reconcile ctx suffix).Yields t r)
    (hmem : ⟨.patchStatus plan status, answer⟩ ∈ t) :
    r.progress = some (ctx.plan.statusOr, status) := by
  cases course_of_yields h with
  | finalize _ hf => cases cleans_of_finalize hf _ hmem
  | advance _ _ hs =>
    obtain hmem | hlast := List.mem_append.mp hmem
    · cases Upgrade.spares_of_yields hs _ hmem
    · obtain ⟨_, rfl⟩ := Call.patchStatus.inj (congrArg Exchange.call (List.mem_singleton.mp hlast))
      rfl
  | guard => cases congrArg Exchange.call (List.mem_singleton.mp hmem)

theorem SameAsked.refl (plan : UpgradePlan) : SameAsked plan plan := ⟨rfl, rfl⟩

theorem SameAsked.symm {new plan : UpgradePlan} (h : SameAsked new plan) : SameAsked plan new :=
  ⟨h.spec_eq.symm, h.labels_eq.symm⟩

theorem SameAsked.trans {a b c : UpgradePlan} (hab : SameAsked a b) (hbc : SameAsked b c) :
    SameAsked a c :=
  ⟨hab.spec_eq.trans hbc.spec_eq, hab.labels_eq.trans hbc.labels_eq⟩

/-- the stored plan says that it has reached the release that it asks for -/
def UpgradePlan.IsReached (plan : UpgradePlan) : Prop :=
  plan.statusOr.lastSuccessfulRelease = some plan.spec.releaseVersion

/-- the pass reaches the release, and the stored plan gets to know -/
def Visit.settles (v : Visit) : Bool := v.completes && v.kept

/-- the pass reaches the release, but its status is lost -/
def Visit.forgets (v : Visit) : Bool := v.completes && !v.kept

namespace Visits
variable {plan : UpgradePlan} {past : List UpgradePlan} {visits : List Visit}

theorem fresh (h : Visits (plan :: past) visits) : Fresh past plan := by
  generalize hv : plan :: past = versions at h
  induction h with
  | stored hfresh | touched _ _ _ hfresh | written _ _ _ _ _ _ _ _ _ _ hfresh =>
    cases hv
    exact hfresh
  | lost _ _ _ _ _ ih => exact ih hv

theorem asks (h : Visits (plan :: past) visits) : ∀ old ∈ plan :: past, SameAsked old plan := by
  have later {plan past new} (hold : ∀ old ∈ plan :: past, SameAsked old plan)
      (hsame : SameAsked new plan) : ∀ old ∈ new :: plan :: past, SameAsked old new := by
    intro old hmem
    obtain rfl | hmem := List.mem_cons.mp hmem
    · exact .refl old
    · exact (hold old hmem).trans hsame.symm
  generalize hv : plan :: past = versions at h
  induction h generalizing plan past with
  | stored =>
    cases hv
    exact List.forall_mem_singleton.mpr (.refl _)
  | touched _ hsame _ _ ih | written _ _ _ _ _ _ _ _ hsame _ _ ih =>
    cases hv
    exact later (ih rfl) hsame
  | lost _ _ _ _ _ ih => exact ih hv

theorem visited (h : Visits (plan :: past) visits) : ∀ v ∈ visits, SameAsked v.ctx.plan plan := by
  generalize hv : plan :: past = versions at h
  induction h generalizing plan past with
  | stored => exact fun _ hmem => absurd hmem List.not_mem_nil
  | touched _ hsame _ _ ih =>
    cases hv
    exact fun v hmem => (ih rfl v hmem).trans hsame.symm
  | lost v hprev hread _ _ ih =>
    cases hv
    exact List.forall_mem_cons.mpr ⟨hprev.asks _ hread, ih rfl⟩
  | written v _ _ hprev hread _ _ _ hsame _ _ ih =>
    cases hv
    refine List.forall_mem_cons.mpr ⟨(hprev.asks _ hread).trans hsame.symm, fun v hmem => ?_⟩
    exact (ih rfl v hmem).trans hsame.symm

/-- no pass has settled the upgrade, or one has and the stored plan has reached the release -/
theorem settled_or_open (h : Visits (plan :: past) visits) :
    visits.countP Visit.settles = 0 ∨ visits.countP Visit.settles = 1 ∧ plan.IsReached := by
  generalize hv : plan :: past = versions at h
  induction h generalizing plan past with
  | stored => exact .inl rfl
  | touched _ hsame hstatus _ ih =>
    cases hv
    refine (ih rfl).imp_right fun ⟨hone, hreached⟩ => ⟨hone, ?_⟩
    rw [UpgradePlan.IsReached, UpgradePlan.statusOr, hstatus, hsame.spec_eq]
    exact hreached
  | lost v _ _ _ hlost ih =>
    have hv' : v.settles = false := by rw [Visit.settles, hlost, Bool.and_false]
    rw [List.countP_cons_of_neg (by rw [hv']; exact Bool.false_ne_true)]
    exact ih hv
  | @written plan past visits new v status answer hprev hread hcall haccepted hkept hsame hstatus _
      ih =>
    cases hv
    -- a write names the version that the pass has read, so that is the current one
    have hread : v.ctx.plan = plan := by
      rw [Rest.revision?_statusPatch] at haccepted
      exact hprev.fresh.read_eq hread haccepted
    have hprogress := Controller.progress_of_written v.ran hcall
    obtain ⟨_, _, hs⟩ := Controller.written_of_yields v.ran hcall
    have hnoted := Upgrade.lastSuccessfulRelease_of_yields hs
    rw [hread] at hprogress hnoted
    have hcompletes : v.completes = Status.reaches plan.spec.releaseVersion plan.statusOr status := by
      rw [Visit.completes, Reconciliation.completes, hprogress, hread]
      rfl
    have hreached : new.IsReached ↔
        status.lastSuccessfulRelease = some plan.spec.releaseVersion := by
      rw [UpgradePlan.IsReached, UpgradePlan.statusOr, hstatus, hsame.spec_eq]
      rfl
    rw [hreached]
    by_cases hv : v.completes = true
    · -- the plan has not reached the release before, so no pass has settled it
      obtain ⟨hnew, hold⟩ := Status.reaches_eq_true.mp (hcompletes ▸ hv)
      obtain hnone | ⟨_, habsurd⟩ := ih rfl
      · rw [List.countP_cons_of_pos (by rw [Visit.settles, hv, hkept]; rfl), hnone]
        exact .inr ⟨rfl, hnew⟩
      · exact absurd habsurd hold
    · rw [List.countP_cons_of_neg (by rw [Visit.settles, Bool.and_eq_true]; exact fun hc => hv hc.1)]
      refine (ih rfl).imp_right fun ⟨hone, hreached⟩ => ⟨hone, ?_⟩
      exact hnoted.elim (fun hkept => hkept.trans hreached) id

end Visits

/-- for every plan, whatever the passes over it while it asks for one release, whatever the cluster
answers and whichever statuses get lost: the passes announce the end as often as they reach the
release, and while the plan stays they count it as often; that is at most once, and once more for
each pass that has reached the release and whose status has been lost -/
theorem Visits.announced_unless_lost {plan : UpgradePlan} {past : List UpgradePlan}
    {visits : List Visit} (h : Visits (plan :: past) visits) (m : Metrics) :
    Visit.announcements visits = visits.countP Visit.completes ∧
      ((∀ v ∈ visits, v.result.released = false) →
        (Visit.recorded visits m).completions (.ofPlan plan) plan.spec.releaseVersion =
          m.completions (.ofPlan plan) plan.spec.releaseVersion +
            UInt64.ofNat (visits.countP Visit.completes)) ∧
      visits.countP Visit.completes ≤ 1 + visits.countP Visit.forgets := by
  refine ⟨Visit.announcements_eq, fun hstays => ?_, ?_⟩
  · refine Visit.completions_recorded (fun v hv => ?_) hstays m
    have hsame := h.visited v hv
    exact ⟨hsame.labels_eq, congrArg UpgradeSpec.releaseVersion hsame.spec_eq⟩
  · have hsplit : visits.countP Visit.completes =
        visits.countP Visit.settles + visits.countP Visit.forgets := by
      rw [List.countP_eq_countP_filter_add visits Visit.completes Visit.kept, List.countP_filter,
        List.countP_filter]
      rfl
    obtain hnone | ⟨hone, _⟩ := h.settled_or_open <;> omega

namespace OneNode

/-- a pass that reaches the release -/
def reachingVisit (answer : Except UpgradeError Unit) (kept : Bool) : Visit where
  ctx := contextAt (planAt "5" metalDone)
  suffix := "ffffffffff"
  trace := _
  result := _
  ran := Controller.reconcile_yields rfl rfl (complete_step_yields "5") answer
  clock := 0
  elapsed := 0
  kept

/-- the status of the first pass is lost, so a second one reaches the release again -/
def reachingVisits : List Visit :=
  [reachingVisit (.ok ()) true, reachingVisit (.error (.cluster .other)) false]

theorem reached_twice : Visits [planAt "6" reached, planAt "5" metalDone] reachingVisits := by
  have h₀ : Visits [planAt "5" metalDone] [] := .stored ⟨"5", rfl, by decide⟩
  have h₁ : Visits [planAt "5" metalDone] [reachingVisit (.error (.cluster .other)) false] := by
    refine .lost _ h₀ List.mem_cons_self (fun status hmem => ?_) rfl
    obtain hmem | hlast := List.mem_append.mp hmem
    · cases Upgrade.spares_of_yields (complete_step_yields "5") _ hmem
    · cases List.mem_singleton.mp hlast
  refine .written _ reached (.ok ()) h₁ List.mem_cons_self ?_ rfl rfl ⟨rfl, rfl⟩ rfl
    ⟨"6", rfl, by decide⟩
  exact List.mem_append_right _ List.mem_cons_self

end OneNode

theorem Visits.announced_unless_lost_oneNode :
    Visit.announcements OneNode.reachingVisits = 2 ∧
      (Visit.recorded OneNode.reachingVisits {}).completions ⟨"upgrade", "lifecycle-system"⟩ "3.1.0" =
        2 ∧
      OneNode.reachingVisits.countP Visit.forgets = 1 := by
  obtain ⟨hannounced, hcounted, _⟩ := Visits.announced_unless_lost OneNode.reached_twice {}
  exact ⟨hannounced, hcounted (by decide), by decide⟩

/-- the end can be announced and counted twice -/
theorem Visits.announced_twice :
    ¬∀ (plan : UpgradePlan) (past : List UpgradePlan) (visits : List Visit),
      Visits (plan :: past) visits → Visit.announcements visits ≤ 1 ∧
        (Visit.recorded visits {}).completions (.ofPlan plan) plan.spec.releaseVersion ≤ 1 := by
  intro h
  obtain ⟨hle, _⟩ := h _ _ _ OneNode.reached_twice
  exact absurd hle (by decide)

end ReleaseUpgrade
