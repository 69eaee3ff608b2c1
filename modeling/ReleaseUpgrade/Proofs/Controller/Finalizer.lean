import ReleaseUpgrade.Proofs.Controller.Reconciliation
import ReleaseUpgrade.Proofs.Phases.Dispatch

/-!
# When a pass sets the finalizers

A pass sets the finalizers of its plan at its end or not at all: to give the plan the finalizer,
which is then all that the pass does, or to take it away once the objects of the plan have been
swept.

* `Cleanup.sweep`          the objects of a kind have been listed, and those of the plan deleted;
* `swept_of_yields`        a cleaning that is complete has swept the node plans, then the secrets;
* `Controller.Sets`        the finalizers that a pass sets, and what it has done before;
* `Controller.sets_of_yields`, `Controller.sets_of_unguarded`   no pass sets others, and a pass over
                           a plan without the finalizer does nothing else;
* `Controller.marked_of_yields`   the node plans and secrets that a pass writes have the marks of
                           its plan.
-/

namespace ReleaseUpgrade

/-- the call sets the finalizers of the plan -/
def Call.setsFinalizers : Call → Bool
  | .setFinalizers .. => true
  | _ => false

theorem Call.setsFinalizers_eq_false {c : Call} (h : c.sparesPlan = true) :
    c.setsFinalizers = false := by
  cases c <;> first | rfl | cases h

/-- the objects that go when the plan goes -/
def Kind.IsSwept (k : Kind) : Prop := k = .nodePlan ∨ k = .secret

namespace Cleanup

/-- an object has been deleted -/
abbrev deleted (ns : String) (k : Kind) (o : k.Object) : Exchange :=
  ⟨.delete k ns (k.metadata o).nameAny, .ok ()⟩

/-- the objects of a kind have been listed, and those of the plan have been deleted in turn -/
def sweep (ctx : Context) (k : Kind) (objects : List k.Object) : Trace :=
  .listed k (some ctx.settings.upgradeNamespace) objects ::
    (owned ctx k objects).map (deleted ctx.settings.upgradeNamespace k)

section
variable {ctx : Context} {ns : String} {k : Kind} {t : Trace}

theorem spares_deleteAll (objects : List k.Object) : (deleteAll ns k objects).Spares := by
  induction objects with
  | nil => exact Action.spares_pure _
  | cons o rest ih => exact (Action.spares_perform rfl).bind fun _ => ih

theorem spares_clean : (clean ctx).Spares := by
  refine (Action.spares_perform rfl).bind fun plans => ?_
  dsimp only
  split
  · exact Action.spares_pure _
  refine (spares_deleteAll _).bind fun _ => (Action.spares_perform rfl).bind fun secrets => ?_
  exact (spares_deleteAll _).bind fun _ => Action.spares_pure _

theorem deleted_of_yields {objects : List k.Object}
    (h : (deleteAll ns k objects).Yields t (.ok ())) : t = objects.map (deleted ns k) := by
  induction objects generalizing t with
  | nil => exact ((Action.yields_pure ..).mp h).1
  | cons o rest ih =>
    obtain ⟨_, _, he⟩ | ⟨_, v, rfl, hrest⟩ := (Action.yields_bind_perform ..).mp h
    · cases he
    · rw [ih hrest]
      rfl

/-- when the objects of the plan are gone, both kinds have been swept -/
theorem swept_of_yields (h : (clean ctx).Yields t (.ok .completed)) :
    ∃ plans secrets, t = sweep ctx .nodePlan plans ++ sweep ctx .secret secrets := by
  obtain ⟨_, _, he⟩ | ⟨plans, _, rfl, hrest⟩ := (Action.yields_bind_list ..).mp h
  · cases he
  dsimp only at hrest
  split at hrest
  · obtain ⟨_, he⟩ := (Action.yields_pure ..).mp hrest
    cases he
  obtain ⟨_, _, he⟩ | ⟨_, u, _, rfl, hplans, hnext⟩ := (Action.yields_bind ..).mp hrest
  · cases he
  obtain ⟨_, _, he⟩ | ⟨secrets, _, rfl, hmore⟩ := (Action.yields_bind_list ..).mp hnext
  · cases he
  obtain ⟨_, _, he⟩ | ⟨_, v, _, rfl, hsecrets, hlast⟩ := (Action.yields_bind ..).mp hmore
  · cases he
  obtain ⟨rfl, _⟩ := (Action.yields_pure ..).mp hlast
  refine ⟨plans, secrets, ?_⟩
  rw [deleted_of_yields hplans, deleted_of_yields hsecrets, List.append_nil]
  rfl

end

end Cleanup

/-- a call that is made nowhere before the last one is the last one -/
theorem Trace.cut_at_last {u past rest : Trace} {x y : Exchange}
    (h : past ++ x :: rest = u ++ [y]) (hx : x ∉ u) : past = u ∧ x = y ∧ rest = [] := by
  obtain rfl | ⟨rest, z, rfl⟩ := List.eq_nil_or_concat rest
  · obtain ⟨hpast, hlast⟩ := List.append_inj' h rfl
    exact ⟨hpast, List.head_eq_of_cons_eq hlast, rfl⟩
  · rw [List.concat_eq_append, ← List.cons_append, ← List.append_assoc] at h
    obtain ⟨hu, _⟩ := List.append_inj' h rfl
    refine absurd ?_ hx
    rw [← hu]
    exact List.mem_append_right past List.mem_cons_self

namespace Controller

/-- the finalizers that a pass sets, after what it has done -/
inductive Sets (ctx : Context) : Trace → List String → Prop
  | guard : isGuarded ctx = false →
      Sets ctx [] (ctx.plan.finalizers ++ [ctx.settings.keys.finalizer])
  | release (plans secrets) : isGuarded ctx = true →
      Sets ctx (Cleanup.sweep ctx .nodePlan plans ++ Cleanup.sweep ctx .secret secrets)
        (ctx.plan.finalizers.filter fun f => f != ctx.settings.keys.finalizer)

section
variable {ctx : Context} {suffix : String} {t past rest : Trace} {x : Exchange}
  {r : Reconciliation}

/-- the finalizer is taken away at the end of a complete cleaning -/
theorem sets_of_release {released : Except UpgradeError Bool}
    (h : (release ctx).Yields (past ++ x :: rest) released) (hx : x.call.setsFinalizers = true) :
    ∃ finalizers, x.call = .setFinalizers ctx.plan finalizers ∧ rest = [] ∧
      Sets ctx past finalizers := by
  -- cleaning sets no finalizers, so the call is the one that comes after it
  have unset {u : Trace} {outcome : Except UpgradeError Cleanup.Outcome}
      (hu : (Cleanup.clean ctx).Yields u outcome) : x ∉ u := by
    intro hmem
    have hspares := (Call.isOrdinary_iff.mp (Cleanup.spares_clean u outcome hu x hmem)).1
    rw [Call.setsFinalizers_eq_false hspares] at hx
    cases hx
  have hmem : x ∈ past ++ x :: rest := List.mem_append_right past List.mem_cons_self
  unfold release at h
  split at h
  · obtain ⟨hnil, _⟩ := (Action.yields_pure ..).mp h
    rw [hnil] at hmem
    cases hmem
  rename_i hguarded
  have hguarded : isGuarded ctx = true := by simpa using hguarded
  obtain ⟨_, hclean, _⟩ | ⟨outcome, u, v, heq, hclean, hrest⟩ := (Action.yields_bind ..).mp h
  · exact absurd hmem (unset hclean)
  cases outcome with
  | deferred =>
    obtain ⟨rfl, _⟩ := (Action.yields_pure ..).mp hrest
    rw [heq, List.append_nil] at hmem
    exact absurd hmem (unset hclean)
  | completed =>
    have hlast : ∃ answer, v = [⟨.setFinalizers ctx.plan
        (ctx.plan.finalizers.filter fun f => f != ctx.settings.keys.finalizer), answer⟩] := by
      obtain ⟨e, hv, _⟩ | ⟨_, w, hv, hlast⟩ := (Action.yields_bind_perform ..).mp hrest
      · exact ⟨_, hv⟩
      · obtain ⟨rfl, _⟩ := (Action.yields_pure ..).mp hlast
        exact ⟨_, hv⟩
    obtain ⟨answer, rfl⟩ := hlast
    obtain ⟨rfl, rfl, rfl⟩ := Trace.cut_at_last heq (unset hclean)
    obtain ⟨plans, secrets, rfl⟩ := Cleanup.swept_of_yields hclean
    exact ⟨_, rfl, rfl, .release plans secrets hguarded⟩

theorem sets_of_yields (h : (reconcile ctx suffix).Yields (past ++ x :: rest) r)
    (hx : x.call.setsFinalizers = true) :
    ∃ finalizers, x.call = .setFinalizers ctx.plan finalizers ∧ rest = [] ∧
      Sets ctx past finalizers := by
  generalize ht : past ++ x :: rest = t at h
  cases course_of_yields h with
  | finalize _ hf =>
    obtain ⟨_, hrelease⟩ := release_of_finalize hf
    rw [← ht] at hrelease
    exact sets_of_release hrelease hx
  | @advance u _ status answer _ _ hs =>
    -- neither the step of the upgrade nor the writing of its status sets the finalizers
    have hmem : x ∈ u ++ [⟨.patchStatus ctx.plan status, answer⟩] := by
      rw [← ht]
      exact List.mem_append_right past List.mem_cons_self
    obtain hmem | hmem := List.mem_append.mp hmem
    · rw [Call.setsFinalizers_eq_false (Upgrade.spares_of_yields hs x hmem)] at hx
      cases hx
    · rw [List.mem_singleton.mp hmem] at hx
      cases hx
  | guard _ hguarded =>
    obtain ⟨rfl, rfl, rfl⟩ := Trace.cut_at_last (u := []) ht List.not_mem_nil
    exact ⟨_, rfl, rfl, .guard hguarded⟩

/-- a pass over a plan without the finalizer does nothing but set the finalizers -/
theorem sets_of_unguarded (h : (reconcile ctx suffix).Yields t r) (hguarded : isGuarded ctx = false)
    (hx : x ∈ t) : x.call.setsFinalizers = true := by
  cases course_of_yields h with
  | finalize _ hf =>
    obtain ⟨_, hrelease⟩ := release_of_finalize hf
    unfold release at hrelease
    rw [hguarded] at hrelease
    obtain ⟨rfl, _⟩ := (Action.yields_pure ..).mp hrelease
    cases hx
  | advance _ hguard =>
    rw [hguard] at hguarded
    cases hguarded
  | guard =>
    rw [List.mem_singleton.mp hx]
    rfl

theorem marked_of_licensed {before : Status} {k : Kind} {o : k.Object} {c : Call}
    (h : Upgrade.Licensed ctx before past c) (hk : k.IsSwept)
    (hc : c = .create k o ∨ c = .replace k o) :
    (k.metadata o).annotations = some ctx.identity := by
  cases h with
  | install =>
    obtain hc | hc := hc <;> cases hc
    obtain hk | hk := hk <;> cases hk
  | system m _ _ hallowed =>
    cases hallowed with
    | secret =>
      obtain hc | hc := hc <;> cases hc
      rfl
    | plan nodes suffix _ _ _ _ htier =>
      obtain ⟨_, role, _, _, rfl, _⟩ := htier
      obtain hc | hc := hc <;> cases hc
      cases role <;> rfl
  | distribution m _ _ _ hallowed =>
    obtain ⟨nodes, d, suffix, _, _, _, role, _, _, rfl, _⟩ := hallowed
    obtain hc | hc := hc <;> cases hc
    cases role <;> rfl
  | workload m w _ _ _ _ hallowed =>
    obtain ⟨_, _, chart, _, hwrite⟩ := hallowed
    cases hwrite with
    | create | replace =>
      obtain hc | hc := hc <;> cases hc
      obtain hk | hk := hk <;> cases hk

/-- the node plans and the secrets that a pass creates have the marks of its plan -/
theorem marked_of_yields (h : (reconcile ctx suffix).Yields t r) (hx : x ∈ t) {k : Kind}
    {o : k.Object} (hk : k.IsSwept) (hc : x.call = .create k o ∨ x.call = .replace k o) :
    (k.metadata o).annotations = some ctx.identity := by
  have hputs : x.call.puts = true := by obtain hc | hc := hc <;> rw [hc] <;> rfl
  cases hterm : ctx.plan.metadata.isTerminating with
  | true =>
    rw [unput_of_yields h hterm x hx] at hputs
    cases hputs
  | false =>
    obtain ⟨pre, post, rfl⟩ := List.append_of_mem hx
    exact marked_of_licensed ((guarded_of_yields h hterm).at (Call.writes_of_puts hputs)) hk hc

end

end Controller

end ReleaseUpgrade
