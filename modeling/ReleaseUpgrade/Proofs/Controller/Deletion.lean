import ReleaseUpgrade.Proofs.Controller.Orphans

/-!
# How a plan is released

A plan that is being deleted loses the finalizer when the objects that are marked with it are gone.
What fails on the way ends the pass, and the next one takes up what is left.

* `Action.Strict`                   a call that fails is the last one of an action;
* `Cleanup.Doomed`                  an object may be deleted: it is marked with the plan;
* `Cleanup.run_deleteAll`           what a store holds after a deletion;
* `Controller.Orderly`, `Controller.Completes`   the calls of a pass, and what one achieves in which
                                    no call fails;
* `Controller.release_orderly`      every pass is like that.
-/

namespace ReleaseUpgrade

namespace Action
variable {α β : Type}

/-- a call that fails is the last one, and its error is the result -/
def Strict (a : Action α) : Prop :=
  ∀ (past : Trace) (x : Exchange) (rest : Trace) (r : Except UpgradeError α) (e : UpgradeError),
    a.Yields (past ++ x :: rest) r → x.answer = .error e → rest = [] ∧ r = .error e

theorem strict_pure (v : α) : (pure v : Action α).Strict := by
  intro past x rest r e h _
  obtain ⟨hnil, _⟩ := (yields_pure ..).mp h
  exact absurd hnil (List.append_ne_nil_of_right_ne_nil past (List.cons_ne_nil x rest))

theorem strict_perform (c : Call) : (perform c).Strict := by
  intro past x rest r e h he
  obtain ⟨rfl, rfl, rfl⟩ := Trace.cut_at_last (u := []) ((yields_perform ..).mp h)
    List.not_mem_nil
  exact ⟨rfl, he⟩

theorem Strict.bind {a : Action α} {f : α → Action β} (ha : a.Strict) (hf : ∀ v, (f v).Strict) :
    (a >>= f).Strict := by
  intro past x rest r e h he
  obtain ⟨e', ha', rfl⟩ | ⟨v, t, u, heq, ha', hf'⟩ := (yields_bind ..).mp h
  · obtain ⟨rfl, herror⟩ := ha past x rest _ e ha' he
    cases herror
    exact ⟨rfl, rfl⟩
  obtain ⟨m, rfl, hm⟩ | ⟨m, rfl, rfl⟩ := List.append_eq_append_iff.mp heq
  · cases m with
    | nil =>
      rw [List.nil_append] at hm
      exact hf v [] x rest r e (hm ▸ hf') he
    | cons y m =>
      obtain ⟨rfl, rfl⟩ := List.cons.inj hm
      obtain ⟨_, herror⟩ := ha past x m _ e ha' he
      cases herror
  · exact hf v m x rest r e hf' he

/-- an action goes on with what it has got -/
theorem run_bind_of_ok {σ : Type} {handler : Program.Handler σ} {a : Action α} {s s' : σ} {v : α}
    (h : Program.run handler a.run s = (.ok v, s')) (f : α → Action β) :
    Program.run handler (a >>= f).run s = Program.run handler (f v).run s' := by
  show Program.run handler (a.run >>= _) s = _
  rw [Program.run_bind, h]
  rfl

end Action

namespace Store

theorem withObjects_objects (s : Store) (k : Kind) : s.withObjects k (s.objects k) = s := by
  cases k <;> rfl

theorem withObjects_withObjects (s : Store) (k : Kind) (os os' : List k.Object) :
    (s.withObjects k os).withObjects k os' = s.withObjects k os' := by
  cases k <;> rfl

end Store

namespace Cleanup

section
variable {ctx : Context} {ns : String} {k : Kind} {t : Trace}

theorem strict_deleteAll (objects : List k.Object) : (deleteAll ns k objects).Strict := by
  induction objects with
  | nil => exact Action.strict_pure ()
  | cons o rest ih => exact (Action.strict_perform _).bind fun _ => ih

theorem strict_clean : (clean ctx).Strict := by
  refine (Action.strict_perform _).bind fun plans => ?_
  dsimp only
  split
  · exact Action.strict_pure _
  refine (strict_deleteAll _).bind fun _ => (Action.strict_perform _).bind fun secrets => ?_
  exact (strict_deleteAll _).bind fun _ => Action.strict_pure _

/-- the call deletes an object that has been listed in the upgrade namespace, and that is marked
with the plan -/
inductive Doomed (ctx : Context) (past : Trace) : Call → Prop
  | intro {k : Kind} {objects : List k.Object} {o : k.Object} : k.IsSwept →
      .listed k (some ctx.settings.upgradeNamespace) objects ∈ past → o ∈ owned ctx k objects →
      Doomed ctx past (.delete k ctx.settings.upgradeNamespace (k.metadata o).nameAny)

theorem Doomed.prepend {past : Trace} {c : Call} (h : Doomed ctx past c) (u : Trace) :
    Doomed ctx (u ++ past) c := by
  cases h with
  | intro hk hlisted ho => exact .intro hk (List.mem_append_right u hlisted) ho

/-- only what is given is deleted -/
theorem guarded_of_deleteAll {objects : List k.Object} {r : Except UpgradeError Unit}
    (h : (deleteAll ns k objects).Yields t r) :
    t.Guarded fun _ c => ∃ o ∈ objects, c = .delete k ns (k.metadata o).nameAny := by
  induction objects generalizing t with
  | nil =>
    obtain ⟨rfl, _⟩ := (Action.yields_pure ..).mp h
    trivial
  | cons o rest ih =>
    obtain ⟨_, rfl, _⟩ | ⟨_, v, rfl, hrest⟩ := (Action.yields_bind_perform ..).mp h
    · exact ⟨fun _ => ⟨o, List.mem_cons_self, rfl⟩, trivial⟩
    · refine ⟨fun _ => ⟨o, List.mem_cons_self, rfl⟩, (ih hrest).mono ?_⟩
      rintro _ c ⟨p, hp, rfl⟩
      exact ⟨p, List.mem_cons_of_mem o hp, rfl⟩

/-- after a listing, only objects of the plan are deleted -/
theorem guarded_of_listed {objects : List k.Object} {r : Except UpgradeError Unit} (hk : k.IsSwept)
    (h : (deleteAll ctx.settings.upgradeNamespace k (owned ctx k objects)).Yields t r) :
    Trace.Guarded (Doomed ctx) (.listed k (some ctx.settings.upgradeNamespace) objects :: t) := by
  refine ⟨nofun, (guarded_of_deleteAll h).mono ?_⟩
  rintro past c ⟨o, ho, rfl⟩
  exact .intro hk List.mem_cons_self ho

theorem guarded_of_clean {r : Except UpgradeError Outcome} (h : (clean ctx).Yields t r) :
    t.Guarded (Doomed ctx) := by
  obtain ⟨_, rfl, _⟩ | ⟨plans, _, rfl, hrest⟩ := (Action.yields_bind_list ..).mp h
  · exact (Trace.quiet_single rfl).guarded
  dsimp only at hrest
  split at hrest
  · obtain ⟨rfl, _⟩ := (Action.yields_pure ..).mp hrest
    exact (Trace.quiet_single rfl).guarded
  obtain ⟨_, hd, _⟩ | ⟨_, u, _, rfl, hd, hnext⟩ := (Action.yields_bind ..).mp hrest
  · exact guarded_of_listed (.inl rfl) hd
  rw [← List.cons_append]
  refine (guarded_of_listed (.inl rfl) hd).append (Q := Doomed ctx) ?_ fun _ _ hQ => hQ.prepend _
  obtain ⟨_, rfl, _⟩ | ⟨secrets, _, rfl, hmore⟩ := (Action.yields_bind_list ..).mp hnext
  · exact (Trace.quiet_single rfl).guarded
  obtain ⟨_, hd, _⟩ | ⟨_, _, _, rfl, hd, hlast⟩ := (Action.yields_bind ..).mp hmore
  · exact guarded_of_listed (.inr rfl) hd
  obtain ⟨rfl, _⟩ := (Action.yields_pure ..).mp hlast
  rw [List.append_nil]
  exact guarded_of_listed (.inr rfl) hd

theorem begins_of_clean {r : Except UpgradeError Outcome} (h : (clean ctx).Yields t r) :
    ∃ answer rest, t = ⟨.list .nodePlan (some ctx.settings.upgradeNamespace), answer⟩ :: rest := by
  obtain ⟨_, rfl, _⟩ | ⟨_, _, rfl, _⟩ := (Action.yields_bind_list ..).mp h
  · exact ⟨_, _, rfl⟩
  · exact ⟨_, _, rfl⟩

/-- nothing more is done while a node plan of the plan is applying -/
theorem deferred_of_clean {plans : List NodePlan} {rest : Trace} {r : Except UpgradeError Outcome}
    (h : (clean ctx).Yields
      (.listed .nodePlan (some ctx.settings.upgradeNamespace) plans :: rest) r)
    (happlying : ∃ p ∈ owned ctx .nodePlan plans, NodePlan.isApplying p = true) :
    rest = [] ∧ r = .ok .deferred := by
  obtain ⟨_, heq, _⟩ | ⟨objects, u, heq, hrest⟩ := (Action.yields_bind_list ..).mp h
  · cases heq
  · cases heq
    dsimp only at hrest
    rw [if_pos (List.any_eq_true.mpr happlying)] at hrest
    exact (Action.yields_pure ..).mp hrest

end

section
variable {ctx : Context} {k : Kind} {s : Store}

/-- one of the objects has the name of `o` in the namespace -/
def isAmong (ns : String) (k : Kind) (objects : List k.Object) (o : k.Object) : Bool :=
  objects.any fun p => Store.isNamed k (some ns) (k.metadata p).nameAny o

/-- in a store objects are deleted with all that have their names -/
theorem run_deleteAll (ns : String) (objects : List k.Object) (s : Store) :
    Program.run Store.answer (deleteAll ns k objects).run s =
      (.ok (), s.withObjects k ((s.objects k).filter fun o => !isAmong ns k objects o)) := by
  induction objects generalizing s with
  | nil =>
    have hall : (s.objects k).filter (fun o => !isAmong ns k [] o) = s.objects k :=
      List.filter_eq_self.mpr fun _ _ => rfl
    rw [hall, Store.withObjects_objects]
    rfl
  | cons o rest ih =>
    show Program.run Store.answer (deleteAll ns k rest).run (s.remove k (some ns) _) = _
    rw [ih, Store.remove, Store.objects_withObjects, Store.withObjects_withObjects,
      List.filter_filter]
    refine congrArg (fun os => (_, s.withObjects k os)) (List.filter_congr fun p _ => ?_)
    rw [isAmong, isAmong, List.any_cons, Bool.not_or, Bool.and_comm]

theorem isAmong_iff {ns : String} {objects : List k.Object} {o : k.Object}
    (hns : ∀ p ∈ objects, (k.metadata p).ns = some ns) :
    isAmong ns k objects o = true ↔ ∃ p ∈ objects, k.key p = k.key o := by
  rw [isAmong, List.any_eq_true]
  refine exists_congr fun p => and_congr_right fun hp => ?_
  rw [Store.isNamed_iff, ← hns p hp]
  exact eq_comm

/-- the objects that a pass finds of those that are marked with the plan -/
def found (ctx : Context) (s : Store) (k : Kind) : List k.Object :=
  owned ctx k (s.list k (some ctx.settings.upgradeNamespace))

theorem mem_found {o : k.Object} : o ∈ found ctx s k ↔ o ∈ s.objects k ∧
    (k.metadata o).ns = some ctx.settings.upgradeNamespace ∧
      Naming.isOwnedBy ctx.settings.keys (k.metadata o) ctx.plan = true := by
  rw [found, owned, Store.list, List.mem_filter, List.mem_filter, decide_eq_true_iff, and_assoc]

/-- what is left of the objects of a kind -/
def left (ctx : Context) (s : Store) (k : Kind) : List k.Object :=
  (s.objects k).filter fun o =>
    !isAmong ctx.settings.upgradeNamespace k (found ctx s k) o

theorem mem_left {o : k.Object} : o ∈ left ctx s k ↔
    o ∈ s.objects k ∧ ¬∃ p ∈ found ctx s k, k.key p = k.key o := by
  rw [left, List.mem_filter, Bool.not_eq_true', ← Bool.not_eq_true,
    isAmong_iff fun p hp => (mem_found.mp hp).2.1]

theorem run_clean (hidle : ∀ p ∈ found ctx s .nodePlan, NodePlan.isApplying p = false) :
    Program.run Store.answer (clean ctx).run s =
      (.ok .completed, { s with
        nodePlans := left ctx s .nodePlan
        secrets := left ctx s .secret }) := by
  have hlisted (k : Kind) (s : Store) : Program.run Store.answer
      (Action.list k (some ctx.settings.upgradeNamespace)).run s =
        (.ok (s.list k (some ctx.settings.upgradeNamespace)), s) := rfl
  refine (Action.run_bind_of_ok (hlisted .nodePlan s) _).trans ?_
  dsimp only
  split
  · rename_i hany
    obtain ⟨p, hp, happlying⟩ := List.any_eq_true.mp hany
    exact absurd happlying (ne_true_of_eq_false (hidle p hp))
  refine (Action.run_bind_of_ok (run_deleteAll _ _ _) _).trans ?_
  refine (Action.run_bind_of_ok (hlisted .secret _) _).trans ?_
  exact Action.run_bind_of_ok (run_deleteAll _ _ _) _

end

end Cleanup

theorem Rest.deleted_iff {k : Kind} {ns name : String} {r : Response} :
    answerOf (.delete k ns name) r = .ok () ↔
      (∃ j, document r = .ok j ∧ deletion? k j = some ()) ∨
        ∃ reason message, document r = .error (.answered 404 reason message) := by
  show lift (deleted k r) = .ok () ↔ _
  unfold deleted content
  cases document r with
  | ok j =>
    cases hread : deletion? k j with
    | some u => exact iff_of_true (by dsimp only; rw [hread]; rfl) (.inl ⟨j, rfl, hread⟩)
    | none =>
      refine iff_of_false (by dsimp only; rw [hread]; exact nofun) ?_
      rintro (⟨_, hj, hsome⟩ | ⟨_, _, hj⟩)
      · cases hj
        rw [hread] at hsome
        cases hsome
      · cases hj
  | error e =>
    cases e with
    | answered code reason message =>
      dsimp only
      split
      · rename_i hcode
        exact iff_of_true rfl (.inr ⟨reason, message, hcode ▸ rfl⟩)
      · rename_i hcode
        refine iff_of_false nofun ?_
        rintro (⟨_, hj, _⟩ | ⟨_, _, hj⟩)
        · cases hj
        · cases hj
          exact hcode rfl
    | _ =>
      refine iff_of_false nofun ?_
      rintro (⟨_, hj, _⟩ | ⟨_, _, hj⟩) <;> cases hj

namespace Controller

/-- the calls of a pass over a plan that is being deleted, and its result -/
structure Orderly (ctx : Context) (t : Trace) (released : Except UpgradeError Bool) : Prop where
  begins : ∃ answer rest,
    t = ⟨.list .nodePlan (some ctx.settings.upgradeNamespace), answer⟩ :: rest
  /-- while a node plan of the plan is applying, nothing is done -/
  waits : ∀ plans rest,
    t = .listed .nodePlan (some ctx.settings.upgradeNamespace) plans :: rest →
    (∃ p ∈ plans, Naming.isOwnedBy ctx.settings.keys (NodePlan.metadata p) ctx.plan = true ∧
      NodePlan.isApplying p = true) →
    rest = [] ∧ released = .ok false
  /-- what is deleted has been listed, and it is marked with this plan and no other one -/
  deletes : ∀ past x rest, t = past ++ x :: rest → x.call.writes = true →
    ∃ (k : Kind) (objects : List k.Object) (o : k.Object) (ns : String), k.IsSwept ∧
      .listed k (some ctx.settings.upgradeNamespace) objects ∈ past ∧ o ∈ objects ∧
      x.call = .delete k ctx.settings.upgradeNamespace (k.metadata o).nameAny ∧
      ctx.plan.metadata.ns = some ns ∧
      Naming.owner? ctx.settings.keys (k.metadata o) = some (ctx.plan.metadata.nameAny, ns) ∧
      ∀ other : UpgradePlan, Naming.isOwnedBy ctx.settings.keys (k.metadata o) other = true →
        other.Same ctx.plan
  /-- the finalizer is taken away when all objects of the plan have been deleted -/
  finalizes : ∀ past x rest, t = past ++ x :: rest → x.call.setsFinalizers = true →
    rest = [] ∧
    x.call = .setFinalizers ctx.plan
      (ctx.plan.finalizers.filter fun f => f != ctx.settings.keys.finalizer) ∧
    ∀ k, k.IsSwept → ∃ objects : List k.Object,
      .listed k (some ctx.settings.upgradeNamespace) objects ∈ past ∧
      ∀ o ∈ objects, Naming.isOwnedBy ctx.settings.keys (k.metadata o) ctx.plan = true →
        ⟨.delete k ctx.settings.upgradeNamespace (k.metadata o).nameAny, .ok ()⟩ ∈ past
  /-- a call that fails is the last one; unless it is that of the finalizers, there is none -/
  stops : ∀ past x rest e, t = past ++ x :: rest → x.answer = .error e →
    rest = [] ∧ released = .error e ∧
      (x.call.setsFinalizers = false → ∀ y ∈ t, y.call.setsFinalizers = false)

/-- what a pass in which no call fails makes of a store -/
structure Completes (ctx : Context) (s s' : Store) : Prop where
  finalizers : s'.finalizers =
    some (ctx.plan.finalizers.filter fun f => f != ctx.settings.keys.finalizer)
  clear : ∀ k, k.IsSwept → Cleanup.found ctx s' k = []
  /-- all objects stay but those under the keys of objects that are marked with the plan -/
  kept : ∀ (k : Kind) (o : k.Object), o ∈ s'.objects k ↔ o ∈ s.objects k ∧
    ¬(k.IsSwept ∧ ∃ p ∈ Cleanup.found ctx s k, k.key p = k.key o)

section
variable {ctx : Context} {t : Trace} {released : Except UpgradeError Bool} {s : Store}

theorem strict_release : (release ctx).Strict := by
  unfold release
  split
  · exact Action.strict_pure _
  refine Cleanup.strict_clean.bind fun outcome => ?_
  cases outcome with
  | deferred => exact Action.strict_pure _
  | completed => exact (Action.strict_perform _).bind fun _ => Action.strict_pure _

variable (hguarded : isGuarded ctx = true)
include hguarded

/-- the objects go first; then the finalizer, unless they are kept -/
theorem release_eq :
    release ctx = Cleanup.clean ctx >>= fun
      | .deferred => return false
      | .completed => do
        Action.setFinalizers ctx.plan
          (ctx.plan.finalizers.filter fun f => f != ctx.settings.keys.finalizer)
        return true := by
  rw [release, hguarded]
  rfl

theorem guarded_of_release (h : (release ctx).Yields t released) :
    t.Guarded (Cleanup.Doomed ctx) := by
  rw [release_eq hguarded] at h
  obtain ⟨_, hclean, _⟩ | ⟨outcome, u, v, rfl, hclean, hrest⟩ := (Action.yields_bind ..).mp h
  · exact Cleanup.guarded_of_clean hclean
  refine (Trace.guarded_append u v).mpr ⟨Cleanup.guarded_of_clean hclean, Trace.Quiet.guarded ?_⟩
  cases outcome with
  | deferred =>
    obtain ⟨rfl, _⟩ := (Action.yields_pure ..).mp hrest
    exact Trace.quiet_nil
  | completed =>
    obtain ⟨_, rfl, _⟩ | ⟨_, w, rfl, hlast⟩ := (Action.yields_bind_perform ..).mp hrest
    · exact Trace.quiet_single rfl
    · obtain ⟨rfl, _⟩ := (Action.yields_pure ..).mp hlast
      exact Trace.quiet_single rfl

theorem begins_of_release (h : (release ctx).Yields t released) : ∃ answer rest,
    t = ⟨.list .nodePlan (some ctx.settings.upgradeNamespace), answer⟩ :: rest := by
  rw [release_eq hguarded] at h
  obtain ⟨_, hclean, _⟩ | ⟨_, u, v, rfl, hclean, _⟩ := (Action.yields_bind ..).mp h
  · exact Cleanup.begins_of_clean hclean
  · obtain ⟨answer, rest, rfl⟩ := Cleanup.begins_of_clean hclean
    exact ⟨answer, rest ++ v, rfl⟩

theorem waits_of_release {plans : List NodePlan} {rest : Trace}
    (h : (release ctx).Yields
      (.listed .nodePlan (some ctx.settings.upgradeNamespace) plans :: rest) released)
    (happlying : ∃ p ∈ Cleanup.owned ctx .nodePlan plans, NodePlan.isApplying p = true) :
    rest = [] ∧ released = .ok false := by
  rw [release_eq hguarded] at h
  obtain ⟨_, hclean, _⟩ | ⟨outcome, u, v, heq, hclean, hrest⟩ := (Action.yields_bind ..).mp h
  · obtain ⟨_, herror⟩ := Cleanup.deferred_of_clean hclean happlying
    cases herror
  obtain ⟨answer, w, rfl⟩ := Cleanup.begins_of_clean hclean
  obtain ⟨hlisted, rfl⟩ := List.cons.inj heq
  cases hlisted
  obtain ⟨rfl, houtcome⟩ := Cleanup.deferred_of_clean hclean happlying
  cases houtcome
  obtain ⟨rfl, rfl⟩ := (Action.yields_pure ..).mp hrest
  exact ⟨rfl, rfl⟩

theorem finalizes_of_release {past rest : Trace} {x : Exchange}
    (h : (release ctx).Yields (past ++ x :: rest) released) (hx : x.call.setsFinalizers = true) :
    rest = [] ∧
    x.call = .setFinalizers ctx.plan
      (ctx.plan.finalizers.filter fun f => f != ctx.settings.keys.finalizer) ∧
    ∃ plans secrets, past =
      Cleanup.sweep ctx .nodePlan plans ++ Cleanup.sweep ctx .secret secrets := by
  obtain ⟨_, hcall, hrest, hsets⟩ := sets_of_release h hx
  cases hsets with
  | guard hnot =>
    rw [hguarded] at hnot
    cases hnot
  | release plans secrets => exact ⟨hrest, hcall, plans, secrets, rfl⟩

omit hguarded in
/-- a sweep has deleted every object of the plan that it has listed -/
theorem deleted_of_sweep {k : Kind} {objects : List k.Object} {past : Trace}
    (h : Cleanup.sweep ctx k objects ⊆ past) :
    .listed k (some ctx.settings.upgradeNamespace) objects ∈ past ∧
      ∀ o ∈ objects, Naming.isOwnedBy ctx.settings.keys (k.metadata o) ctx.plan = true →
        ⟨.delete k ctx.settings.upgradeNamespace (k.metadata o).nameAny, .ok ()⟩ ∈ past :=
  ⟨h List.mem_cons_self, fun _ ho howned =>
    h (List.mem_cons_of_mem _ (List.mem_map_of_mem (List.mem_filter.mpr ⟨ho, howned⟩)))⟩

theorem orderly_of_yields (h : (release ctx).Yields t released) : Orderly ctx t released where
  begins := begins_of_release hguarded h
  waits := by
    rintro plans rest rfl ⟨p, hp, howned, happlying⟩
    exact waits_of_release hguarded h ⟨p, List.mem_filter.mpr ⟨hp, howned⟩, happlying⟩
  deletes := by
    rintro past x rest rfl hx
    have hdoomed := (guarded_of_release hguarded h).at hx
    generalize x.call = c at hdoomed
    cases hdoomed with
    | @intro k objects o hk hlisted ho =>
      obtain ⟨ho, howned⟩ := List.mem_filter.mp ho
      obtain ⟨⟨name, ns⟩, howner, hplan⟩ := (Option.any_eq_true ..).mp howned
      obtain ⟨hname, hns⟩ := (Bool.and_eq_true_iff ..).mp hplan
      rw [decide_eq_true_iff] at hname hns
      refine ⟨k, objects, o, ns, hk, hlisted, ho, rfl, hns.symm, hname ▸ howner, ?_⟩
      intro other hother
      rw [Naming.isOwnedBy, howner] at hother
      obtain ⟨hname', hns'⟩ := (Bool.and_eq_true_iff ..).mp hother
      rw [decide_eq_true_iff] at hname' hns'
      exact ⟨hname'.symm.trans hname, hns'.symm.trans hns⟩
  finalizes := by
    rintro past x rest rfl hx
    obtain ⟨hrest, hcall, plans, secrets, rfl⟩ := finalizes_of_release hguarded h hx
    refine ⟨hrest, hcall, fun k hk => ?_⟩
    obtain rfl | rfl := hk
    · exact ⟨plans, deleted_of_sweep (List.subset_append_left _ _)⟩
    · exact ⟨secrets, deleted_of_sweep (List.subset_append_right _ _)⟩
  stops := by
    rintro past x rest e rfl he
    obtain ⟨rfl, hreleased⟩ := strict_release past x rest released e h he
    refine ⟨rfl, hreleased, fun hx y hy => eq_false_of_ne_true fun hsets => ?_⟩
    -- a call that sets the finalizers is the last one too
    obtain ⟨u, v, huv⟩ := List.append_of_mem hy
    rw [huv] at h
    obtain ⟨rfl, _⟩ := finalizes_of_release hguarded h hsets
    obtain ⟨_, hlast⟩ := List.append_inj' huv rfl
    rw [List.head_eq_of_cons_eq hlast, hsets] at hx
    cases hx

theorem run_release (hidle : ∀ p ∈ Cleanup.found ctx s .nodePlan, NodePlan.isApplying p = false) :
    Program.run Store.answer (release ctx).run s =
      (.ok true, { s with
        nodePlans := Cleanup.left ctx s .nodePlan
        secrets := Cleanup.left ctx s .secret
        finalizers := some
          (ctx.plan.finalizers.filter fun f => f != ctx.settings.keys.finalizer) }) := by
  rw [release_eq hguarded, Action.run_bind_of_ok (Cleanup.run_clean hidle)]
  rfl

omit hguarded in
theorem completes_left : Completes ctx s { s with
    nodePlans := Cleanup.left ctx s .nodePlan
    secrets := Cleanup.left ctx s .secret
    finalizers := some
      (ctx.plan.finalizers.filter fun f => f != ctx.settings.keys.finalizer) } := by
  generalize hs' : ({ s with
    nodePlans := Cleanup.left ctx s .nodePlan
    secrets := Cleanup.left ctx s .secret
    finalizers := some
      (ctx.plan.finalizers.filter fun f => f != ctx.settings.keys.finalizer) } : Store) = s'
  have hleft (k : Kind) (hk : k.IsSwept) : s'.objects k = Cleanup.left ctx s k := by
    rw [← hs']
    obtain rfl | rfl := hk <;> rfl
  have hother (k : Kind) (hk : ¬k.IsSwept) : s'.objects k = s.objects k := by
    rw [← hs']
    cases k with
    | nodePlan => exact absurd (.inl rfl) hk
    | secret => exact absurd (.inr rfl) hk
    | _ => rfl
  refine ⟨by rw [← hs'], fun k hk => List.eq_nil_iff_forall_not_mem.mpr fun o ho => ?_,
    fun k o => ?_⟩
  · obtain ⟨hmem, hns, howned⟩ := Cleanup.mem_found.mp ho
    rw [hleft k hk, Cleanup.mem_left] at hmem
    exact hmem.2 ⟨o, Cleanup.mem_found.mpr ⟨hmem.1, hns, howned⟩, rfl⟩
  · by_cases hk : k.IsSwept
    · rw [hleft k hk, Cleanup.mem_left, and_iff_right hk]
    · rw [hother k hk]
      exact ⟨fun h => ⟨h, fun hswept => hk hswept.1⟩, And.left⟩

end

/-- A pass over a plan that is being deleted, whatever the cluster answers: it does nothing while a
node plan of the plan is applying, deletes only objects that are marked with the plan, takes the
finalizer away only after all of them, and ends with the first call that fails.  Whatever such a
pass has left in a store, the next one in which no call fails takes it away, and then the finalizer.
What is deleted has been deleted, or it was not found. -/
theorem release_orderly (hguarded : isGuarded ctx = true) :
    (∀ t released, (release ctx).Yields t released → Orderly ctx t released) ∧
    (∀ s : Store, (∀ p ∈ Cleanup.found ctx s .nodePlan, NodePlan.isApplying p = false) →
      ∃ s', Program.run Store.answer (release ctx).run s = (.ok true, s') ∧ Completes ctx s s') ∧
    ∀ (k : Kind) (ns name : String) (r : Response),
      Rest.answerOf (.delete k ns name) r = .ok () ↔
        (∃ j, Rest.document r = .ok j ∧ Rest.deletion? k j = some ()) ∨
          ∃ reason message, Rest.document r = .error (.answered 404 reason message) :=
  ⟨fun _ _ => orderly_of_yields hguarded,
    fun _ hidle => ⟨_, run_release hguarded hidle, completes_left⟩,
    fun _ _ _ _ => Rest.deleted_iff⟩

end Controller

namespace OneNode

/-- the deletion of the secret fails -/
def refusedDeletion : Trace := [
  .listed .nodePlan (some "cattle-system") [],
  .listed .secret (some "cattle-system") [foreignSecret, ownSecret],
  ⟨.delete .secret "cattle-system" "os-upgrade-secret-0a1b2c3d4e", .error (.cluster .connection)⟩]

theorem refusedDeletion_yields :
    (Controller.release (contextAt doomed.plan)).Yields refusedDeletion
      (.error (.cluster .connection)) :=
  ⟨.ok [], _, rfl, .ok [foreignSecret, ownSecret], _, rfl, .error (.cluster .connection), _, rfl,
    rfl, rfl⟩

end OneNode

theorem Controller.release_orderly_oneNode :
    isGuarded (OneNode.contextAt OneNode.doomed.plan) = true ∧
    Orderly (OneNode.contextAt OneNode.doomed.plan) OneNode.refusedDeletion
      (.error (.cluster .connection)) ∧
    ∃ s', Program.run Store.answer (release (OneNode.contextAt OneNode.doomed.plan)).run
        OneNode.doomed.store = (.ok true, s') ∧
      Completes (OneNode.contextAt OneNode.doomed.plan) OneNode.doomed.store s' ∧
      s'.secrets = [OneNode.foreignSecret] := by
  have hguarded : isGuarded (OneNode.contextAt OneNode.doomed.plan) = true := rfl
  have hsecrets : (Program.run Store.answer (release (OneNode.contextAt OneNode.doomed.plan)).run
    OneNode.doomed.store).2.secrets = [OneNode.foreignSecret] := rfl
  obtain ⟨horderly, hcompletes, _⟩ := release_orderly hguarded
  have hidle : ∀ p ∈ Cleanup.found (OneNode.contextAt OneNode.doomed.plan) OneNode.doomed.store
      .nodePlan, NodePlan.isApplying p = false :=
    fun p (hp : p ∈ []) => absurd hp List.not_mem_nil
  obtain ⟨s', hrun, hs'⟩ := hcompletes OneNode.doomed.store hidle
  rw [hrun] at hsecrets
  exact ⟨hguarded, horderly _ _ OneNode.refusedDeletion_yields, s', hrun, hs', hsecrets⟩

end ReleaseUpgrade
