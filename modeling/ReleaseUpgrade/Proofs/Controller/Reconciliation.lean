import ReleaseUpgrade.Controller.Reconciliation
import ReleaseUpgrade.Proofs.Phases.Run

/-!
# The course of a reconciliation

* `Controller.Course`    the traces of a pass over a plan, as the plan is being deleted, carries the
                         finalizer, or neither;
* `unput_of_yields`      nothing is created or replaced for a plan that is being deleted;
* `guarded_of_yields`, `writes_of_yields`   what is written for a plan that stays, and how often.
-/

namespace ReleaseUpgrade

namespace Controller

/-- the traces of a pass over a plan -/
inductive Course (ctx : Context) (suffix : String) : Trace → Reconciliation → Prop
  | finalize {t r} : ctx.plan.metadata.isTerminating = true → (finalize ctx).Yields t r →
      Course ctx suffix t r
  | advance {t outcome status answer} : ctx.plan.metadata.isTerminating = false →
      isGuarded ctx = true → (Upgrade.step ctx suffix).Yields ctx.plan.statusOr t outcome status →
      Course ctx suffix (t ++ [⟨.patchStatus ctx.plan status, answer⟩])
        { result := UpgradeError.join outcome answer
          progress := some (ctx.plan.statusOr, status) }
  | guard {answer result} : ctx.plan.metadata.isTerminating = false → isGuarded ctx = false →
      Course ctx suffix [⟨.setFinalizers ctx.plan
        (ctx.plan.finalizers ++ [ctx.settings.keys.finalizer]), answer⟩] { result }

section
variable {ctx : Context} {suffix : String} {t : Trace}

theorem course_of_yields {r : Reconciliation} (h : (reconcile ctx suffix).Yields t r) :
    Course ctx suffix t r := by
  unfold reconcile at h
  cases hterm : ctx.plan.metadata.isTerminating with
  | true =>
    rw [hterm, if_pos rfl] at h
    exact .finalize hterm h
  | false =>
    rw [hterm, if_neg Bool.false_ne_true] at h
    cases hguard : isGuarded ctx with
    | true =>
      rw [hguard, if_pos rfl] at h
      obtain ⟨⟨outcome, status⟩, u, v, rfl, hstep, hrest⟩ := (Program.yields_bind ..).mp h
      obtain ⟨written, _, _, rfl, ⟨answer, _, rfl, rfl, rfl⟩, rfl, rfl⟩ :=
        (Program.yields_bind ..).mp hrest
      exact .advance hterm hguard hstep
    | false =>
      rw [hguard, if_neg Bool.false_ne_true] at h
      obtain ⟨_, _, _, rfl, ⟨answer, _, rfl, rfl, rfl⟩, rfl, rfl⟩ := (Program.yields_bind ..).mp h
      exact .guard hterm hguard

theorem cleans_of_deleteAll {ns : String} {k : Kind} {objects : List k.Object}
    {r : Except UpgradeError Unit} (h : (Cleanup.deleteAll ns k objects).Yields t r) :
    t.All Call.cleans := by
  induction objects generalizing t with
  | nil =>
    obtain ⟨rfl, _⟩ := (Action.yields_pure ..).mp h
    exact Trace.all_nil
  | cons o rest ih =>
    obtain ⟨_, rfl, _⟩ | ⟨_, v, rfl, hrest⟩ := (Action.yields_bind_perform ..).mp h
    · exact Trace.all_single rfl
    · exact (Trace.all_append [_] v).mpr ⟨Trace.all_single rfl, ih hrest⟩

theorem cleans_of_clean {r : Except UpgradeError Cleanup.Outcome}
    (h : (Cleanup.clean ctx).Yields t r) : t.All Call.cleans := by
  obtain ⟨_, rfl, _⟩ | ⟨plans, _, rfl, hrest⟩ := (Action.yields_bind_list ..).mp h
  · exact Trace.all_single rfl
  refine (Trace.all_append [_] _).mpr ⟨Trace.all_single rfl, ?_⟩
  dsimp only at hrest
  split at hrest
  · obtain ⟨rfl, _⟩ := (Action.yields_pure ..).mp hrest
    exact Trace.all_nil
  obtain ⟨_, hd, _⟩ | ⟨_, _, _, rfl, hd, hnext⟩ := (Action.yields_bind ..).mp hrest
  · exact cleans_of_deleteAll hd
  refine (Trace.all_append _ _).mpr ⟨cleans_of_deleteAll hd, ?_⟩
  obtain ⟨_, rfl, _⟩ | ⟨secrets, _, rfl, hmore⟩ := (Action.yields_bind_list ..).mp hnext
  · exact Trace.all_single rfl
  refine (Trace.all_append [_] _).mpr ⟨Trace.all_single rfl, ?_⟩
  obtain ⟨_, hd, _⟩ | ⟨_, _, _, rfl, hd, hlast⟩ := (Action.yields_bind ..).mp hmore
  · exact cleans_of_deleteAll hd
  obtain ⟨rfl, _⟩ := (Action.yields_pure ..).mp hlast
  rw [List.append_nil]
  exact cleans_of_deleteAll hd

theorem cleans_of_release {r : Except UpgradeError Bool} (h : (release ctx).Yields t r) :
    t.All Call.cleans := by
  unfold release at h
  split at h
  · obtain ⟨rfl, _⟩ := (Action.yields_pure ..).mp h
    exact Trace.all_nil
  obtain ⟨_, hc, _⟩ | ⟨cleaned, u, v, rfl, hc, hrest⟩ := (Action.yields_bind ..).mp h
  · exact cleans_of_clean hc
  refine (Trace.all_append u v).mpr ⟨cleans_of_clean hc, ?_⟩
  cases cleaned with
  | deferred =>
    obtain ⟨rfl, _⟩ := (Action.yields_pure ..).mp hrest
    exact Trace.all_nil
  | completed =>
    obtain ⟨_, rfl, _⟩ | ⟨_, _, rfl, hlast⟩ := (Action.yields_bind_perform ..).mp hrest
    · exact Trace.all_single rfl
    · obtain ⟨rfl, _⟩ := (Action.yields_pure ..).mp hlast
      exact Trace.all_single rfl

/-- a pass over a plan that is being deleted makes the calls of the release -/
theorem release_of_finalize {r : Reconciliation} (h : (finalize ctx).Yields t r) :
    ∃ released, (release ctx).Yields t released := by
  obtain ⟨released, u, v, rfl, hrelease, hlast⟩ := (Program.yields_bind ..).mp h
  have hv : v = [] := by
    cases released <;> exact hlast.1
  rw [hv, List.append_nil]
  exact ⟨released, hrelease⟩

theorem cleans_of_finalize {r : Reconciliation} (h : (finalize ctx).Yields t r) :
    t.All Call.cleans := by
  obtain ⟨_, hrelease⟩ := release_of_finalize h
  exact cleans_of_release hrelease

theorem unput_of_yields {r : Reconciliation} (h : (reconcile ctx suffix).Yields t r)
    (hterm : ctx.plan.metadata.isTerminating = true) : t.Unput := by
  cases course_of_yields h with
  | finalize _ hf => exact fun x hx => Call.puts_eq_false_of_cleans (cleans_of_finalize hf x hx)
  | advance hstays | guard hstays =>
    rw [hstays] at hterm
    cases hterm

theorem guarded_of_yields {r : Reconciliation} (h : (reconcile ctx suffix).Yields t r)
    (hterm : ctx.plan.metadata.isTerminating = false) :
    t.Guarded (Upgrade.Licensed ctx ctx.plan.statusOr) := by
  cases course_of_yields h with
  | finalize hgoes =>
    rw [hgoes] at hterm
    cases hterm
  | advance _ _ hs =>
    exact (Trace.guarded_append _ _).mpr
      ⟨Upgrade.guarded_of_yields hs, (Trace.quiet_single rfl).guarded⟩
  | guard => exact (Trace.quiet_single rfl).guarded

/-- a pass over a plan that stays writes at most once, or all that it writes is the job of the
manifest -/
theorem writes_of_yields {r : Reconciliation} (h : (reconcile ctx suffix).Yields t r)
    (hterm : ctx.plan.metadata.isTerminating = false) (hgen : t.Genuine) :
    t.Brief True ∨ ManifestPhase.Creates .job (ManifestPhase.job ctx) t := by
  cases course_of_yields h with
  | finalize hgoes =>
    rw [hgoes] at hterm
    cases hterm
  | advance _ _ hs =>
    have hlast (status answer) : Trace.Quiet [⟨.patchStatus ctx.plan status, answer⟩] :=
      Trace.quiet_single rfl
    refine (Upgrade.writes_of_yields hs ((Trace.genuine_append _ _).mp hgen).1).imp
      (fun hbrief => hbrief.append_quiet (hlast _ _)) fun hjob => ?_
    exact (ManifestPhase.creates_append _ _).mpr
      ⟨hjob, ManifestPhase.creates_of_quiet (hlast _ _)⟩
  | guard => exact .inl (.inl (Trace.quiet_single rfl))

end

end Controller

end ReleaseUpgrade
