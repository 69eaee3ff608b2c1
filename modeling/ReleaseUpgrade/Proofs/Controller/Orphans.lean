import ReleaseUpgrade.Proofs.Controller.Creation
import ReleaseUpgrade.Proofs.Controller.Estate

/-!
# No object outlives the finalizer

A pass creates nothing for a plan without the finalizer, and it takes the finalizer away only after
it has swept the node plans and the secrets of the plan.  Whatever fails on the way, whoever changes
the plan or the cluster meanwhile: a plan without the finalizer has no such object.

* `Reads`                  a pass has read some version of the plan that is stored;
* `Course.swept`           after a sweep there is no object with the marks of the plan;
* `Sound`, `Pass.sound`    a plan without the finalizer has no objects, before and after each pass;
* `Reachable.no_orphans`   so in every estate that passes lead to; and no pass touches the
                           finalizers of others.
-/

namespace ReleaseUpgrade

theorem Controller.Sets.filter_eq {ctx : Context} {past : Trace} {finalizers : List String}
    (h : Sets ctx past finalizers) :
    (finalizers.filter fun f => f != ctx.settings.keys.finalizer) =
      ctx.plan.finalizers.filter fun f => f != ctx.settings.keys.finalizer := by
  cases h with
  | guard =>
    have hown : [ctx.settings.keys.finalizer].filter
        (fun f => f != ctx.settings.keys.finalizer) = [] :=
      List.filter_cons_of_neg (by simp)
    rw [List.filter_append, hown, List.append_nil]
  | release => rw [List.filter_filter, funext fun f => Bool.and_self (f != _)]

namespace Estate

/-- the plan that a pass has read is a version of the one that is stored -/
structure Reads (read : UpgradePlan) (e : Estate) : Prop where
  fresh : Fresh e.past e.plan
  known : read ∈ e.plan :: e.past
  same : e.plan.Same read

/-- a plan without the finalizer has no objects -/
structure Sound (settings : Settings) (e : Estate) : Prop where
  fresh : Fresh e.past e.plan
  covered : ¬e.Guarded settings → e.Clear settings

section
variable {settings : Settings} {e e' u v : Estate} {k : Kind} {x : Exchange} {t past : Trace}
  {read : UpgradePlan}

theorem Succeeds.fresh (h : e.Succeeds e') (hfresh : Fresh e.past e.plan) :
    Fresh e'.past e'.plan := by
  obtain ⟨hplan, hpast⟩ | ⟨_, hnew⟩ := h.versions
  · rw [hplan, hpast]
    exact hfresh
  · exact hnew

theorem Reads.next (h : Reads read e) (hs : e.Succeeds e') : Reads read e' := by
  refine ⟨hs.fresh h.fresh, ?_, hs.same.trans h.same⟩
  obtain ⟨hplan, hpast⟩ | ⟨hpast, _⟩ := hs.versions
  · rw [hplan, hpast]
    exact h.known
  · rw [hpast]
    exact List.mem_cons_of_mem _ h.known

theorem Course.reads (h : Course settings e t e') (hread : Reads read e) : Reads read e' :=
  h.invariant hread (fun hu hh => hu.next hh.toSucceeds) fun _ hu hs => hu.next hs.succeeds

theorem Course.names_subset (h : Course settings e t e') (hk : k.IsSwept) (hput : t.Unput) :
    e'.names settings k ⊆ e.names settings k :=
  h.invariant (P := fun u => u.names settings k ⊆ e.names settings k) (List.Subset.refl _)
    (fun hu hh => List.Subset.trans (hh.names k hk) hu)
    fun hy hu hs => List.Subset.trans (hs.names_subset (hput _ hy)) hu

/-- a course that does not set the finalizers keeps the plan guarded -/
theorem Course.guarded (h : Course settings e t e')
    (hsets : ∀ x ∈ t, x.call.setsFinalizers = false) (he : e.Guarded settings) :
    e'.Guarded settings := by
  refine h.invariant he (fun hu hh => hh.guarded hu) fun {u y v} hy hu hs => ?_
  rw [Guarded, hs.finalizers_eq (hsets y hy)]
  exact hu

theorem Served.takes_of_ok (h : e.Served x e') (hok : x.answer.isOk = true) :
    e.Takes x.call e' ∧ x.answer = (Store.answer x.call e.store).1 := by
  cases h with
  | answered htakes => exact ⟨htakes, rfl⟩
  | lost | unacknowledged => cases hok

theorem Served.not_mem_names {name : String}
    (h : e.Served ⟨.delete k settings.upgradeNamespace name, .ok ()⟩ e') :
    name ∉ e'.names settings k := by
  intro hmem
  obtain ⟨o, ho, rfl⟩ := List.mem_map.mp hmem
  obtain ⟨hthere, hns, _⟩ := mem_owned.mp ho
  obtain ⟨htakes, _⟩ := h.takes_of_ok rfl
  cases htakes with
  | spared =>
    refine Store.not_isNamed_of_mem_deleted hthere ?_
    exact (Bool.and_eq_true_iff ..).mpr ⟨decide_eq_true rfl, decide_eq_true hns⟩
  | revised _ hnot | unchanged hnot => cases hnot

/-- once all objects have been deleted that are owned, none is -/
theorem Course.deleted (hk : k.IsSwept) {objects : List k.Object}
    (h : Course settings e (objects.map (Cleanup.deleted settings.upgradeNamespace k)) e')
    (hnames : e.names settings k ⊆ objects.map fun o => (k.metadata o).nameAny) :
    e'.owned settings k = [] := by
  induction objects generalizing e with
  | nil => exact owned_eq_nil (List.Subset.trans (h.names_subset hk Trace.unput_nil) hnames)
  | cons o rest ih =>
    obtain ⟨u, v, hu, hs, hv⟩ := h.head
    refine ih hv fun name hname => ?_
    have hbefore : name ∈ e.names settings k :=
      hu.names_subset hk Trace.unput_nil (hs.names_subset rfl hname)
    obtain rfl | hrest := List.mem_cons.mp (hnames hbefore)
    · exact absurd hname hs.not_mem_names
    · exact hrest

theorem Course.swept {ctx : Context} {objects : List k.Object} (hk : k.IsSwept)
    (h : Course ctx.settings e (Cleanup.sweep ctx k objects) e') (hread : Reads ctx.plan e) :
    e'.owned ctx.settings k = [] := by
  obtain ⟨u, v, hu, hs, hv⟩ := h.head
  obtain ⟨_, hlisted⟩ := hs.takes_of_ok rfl
  have hobjects : objects = u.store.list k (some ctx.settings.upgradeNamespace) :=
    Except.ok.inj hlisted
  have howned : Cleanup.owned ctx k objects = u.owned ctx.settings k := by
    rw [Cleanup.owned, owned, hobjects]
    refine congrArg (List.filter · _) (funext fun o => ?_)
    rw [Naming.isOwnedBy_congr (hu.reads hread).same]
  rw [howned] at hv
  exact hv.deleted hk (hs.names_subset rfl)

theorem unput_sweep (ctx : Context) (k : Kind) (objects : List k.Object) :
    (Cleanup.sweep ctx k objects).Unput := by
  refine List.forall_mem_cons.mpr ⟨rfl, fun x hx => ?_⟩
  obtain ⟨o, _, rfl⟩ := List.mem_map.mp hx
  rfl

theorem Course.clear {ctx : Context} {plans : List NodePlan} {secrets : List Secret}
    (h : Course ctx.settings e
      (Cleanup.sweep ctx .nodePlan plans ++ Cleanup.sweep ctx .secret secrets) e')
    (hread : Reads ctx.plan e) : e'.Clear ctx.settings := by
  obtain ⟨u, v, hplans, hs, hv⟩ := h.cut
  have hsecrets : Course ctx.settings u (Cleanup.sweep ctx .secret secrets) e' := .cons hs hv
  refine ⟨?_, hsecrets.swept (.inr rfl) (hplans.reads hread)⟩
  have hnone := names_eq_nil (hplans.swept (.inl rfl) hread)
  have hkept : e'.names ctx.settings .nodePlan ⊆ u.names ctx.settings .nodePlan :=
    hsecrets.names_subset (.inl rfl) (unput_sweep ctx .secret secrets)
  rw [hnone] at hkept
  exact owned_eq_nil hkept

theorem Clear.of_names_subset (h : e.Clear settings)
    (hnames : ∀ k : Kind, k.IsSwept → e'.names settings k ⊆ e.names settings k) :
    e'.Clear settings := by
  have hplans := hnames .nodePlan (.inl rfl)
  have hsecrets := hnames .secret (.inr rfl)
  rw [names_eq_nil h.1] at hplans
  rw [names_eq_nil h.2] at hsecrets
  exact ⟨owned_eq_nil hplans, owned_eq_nil hsecrets⟩

theorem Sound.harmless (h : Sound settings e) (hh : e.Harmless settings e') :
    Sound settings e' := by
  refine ⟨hh.toSucceeds.fresh h.fresh, fun hnot => ?_⟩
  exact (h.covered fun hguarded => hnot (hh.guarded hguarded)).of_names_subset hh.names

/-- a plan is sound as long as no call is made -/
theorem Course.sound (h : Course settings e [] e') (he : Sound settings e) : Sound settings e' :=
  h.invariant he (fun hu hh => hu.harmless hh) fun hy => absurd hy List.not_mem_nil

section
variable {ctx : Context} {finalizers : List String}

/-- a plan is sound when its finalizers are about to be set -/
theorem Sound.before_sets (h : Sound ctx.settings e) (hread : Reads ctx.plan e)
    (hsets : Controller.Sets ctx past finalizers) (hu : Course ctx.settings e past u) :
    Sound ctx.settings u := by
  cases hsets with
  | guard => exact hu.sound h
  | release plans secrets => exact ⟨(hu.reads hread).fresh, fun _ => hu.clear hread⟩

theorem Sound.sets (h : Sound ctx.settings e) (hread : Reads ctx.plan e)
    (hsets : Controller.Sets ctx past finalizers) (hu : Course ctx.settings e past u)
    (hs : u.Served x v) (hx : x.call = .setFinalizers ctx.plan finalizers) :
    Sound ctx.settings v := by
  have hsound := h.before_sets hread hsets hu
  obtain rfl | htakes := hs.eq_or
  · exact hsound
  rw [hx] at htakes
  cases htakes with
  | spared hspares => cases hspares
  | unchanged => exact hsound
  | revised w _ _ hfresh =>
    refine ⟨hfresh, fun hnot => ?_⟩
    cases hsets with
    | guard => exact absurd (List.mem_append_right _ List.mem_cons_self) hnot
    | release plans secrets =>
      refine (hu.clear hread).of_names_subset fun k _ => hs.names_subset ?_
      rw [hx]
      rfl

end

/-- a pass keeps a plan sound, wherever it breaks off -/
theorem Pass.sound (he : Sound settings e) (h : e.Pass settings t e') : Sound settings e' := by
  obtain ⟨⟨ctx, suffix, rest, r, rfl, hplan, hyields⟩, hcourse⟩ := h
  have hread : Reads ctx.plan e := by
    rw [hplan]
    exact ⟨he.fresh, List.mem_cons_self, rfl, rfl⟩
  by_cases hset : ∃ x ∈ t, x.call.setsFinalizers = true
  · obtain ⟨x, hx, hsetx⟩ := hset
    obtain ⟨past, post, rfl⟩ := List.append_of_mem hx
    rw [List.append_assoc, List.cons_append] at hyields
    obtain ⟨finalizers, hcall, hnil, hsets⟩ := Controller.sets_of_yields hyields hsetx
    obtain ⟨rfl, _⟩ := List.append_eq_nil_iff.mp hnil
    obtain ⟨u, v, hu, hs, hv⟩ := hcourse.cut
    exact hv.sound (he.sets hread hsets hu hs hcall)
  have hkept : ∀ x ∈ t, x.call.setsFinalizers = false := fun x hx =>
    Bool.eq_false_iff.mpr fun hsetx => hset ⟨x, hx, hsetx⟩
  cases hguarded : Controller.isGuarded ctx with
  | true =>
    have hmem : e.Guarded ctx.settings := by
      rw [Guarded, ← hplan]
      exact List.contains_iff_mem.mp hguarded
    exact ⟨(hcourse.reads hread).fresh, fun hnot => absurd (hcourse.guarded hkept hmem) hnot⟩
  | false =>
    -- without the finalizer the pass would only set it
    have hnil : t = [] := List.eq_nil_iff_forall_not_mem.mpr fun x hx =>
      hset ⟨x, hx, Controller.sets_of_unguarded hyields hguarded (List.mem_append_left _ hx)⟩
    rw [hnil] at hcourse
    exact hcourse.sound he

theorem Reachable.sound (h : Reachable settings e) : Sound settings e := by
  induction h with
  | start hclear hpast hfresh => exact ⟨hpast ▸ hfresh, fun _ => hclear⟩
  | interferes _ hi ih => exact ih.harmless hi.harmless
  | pass _ hp ih => exact hp.sound ih

/-- a call of a pass leaves all finalizers but that of the operator as they are -/
theorem Reads.filter_eq {ctx : Context} {suffix : String} {rest : Trace} {r : Reconciliation}
    (hread : Reads ctx.plan u)
    (hyields : (Controller.reconcile ctx suffix).Yields (past ++ x :: rest) r)
    (hs : u.Served x v) :
    (v.plan.finalizers.filter fun f => f != ctx.settings.keys.finalizer) =
      u.plan.finalizers.filter fun f => f != ctx.settings.keys.finalizer := by
  cases hset : x.call.setsFinalizers with
  | false => rw [hs.finalizers_eq hset]
  | true =>
    obtain ⟨finalizers, hcall, _, hsets⟩ := Controller.sets_of_yields hyields hset
    obtain rfl | htakes := hs.eq_or
    · rfl
    rw [hcall] at htakes
    cases htakes with
    | spared hspares => cases hspares
    | unchanged => rfl
    | revised w _ haccepted _ =>
      -- the change has been taken, so the plan that the pass has read is the current one
      rw [Call.revision?, Rest.revision?_finalizersPatch] at haccepted
      rw [← hread.fresh.read_eq hread.known haccepted]
      exact hsets.filter_eq

/-- in every estate that passes lead to from one without owned objects, whichever calls fail,
whatever passes over other plans and third parties do and whenever the deletion of the plan is
requested: if the plan has not the finalizer of the operator, no node plan and no secret of the plan
is in the upgrade namespace; and a call of a pass adds, drops and moves no finalizer but that of the
operator -/
theorem Reachable.no_orphans (h : Reachable settings e) :
    (settings.keys.finalizer ∉ e.plan.finalizers →
      e.owned settings .nodePlan = [] ∧ e.owned settings .secret = []) ∧
    ∀ (ctx : Context) (suffix : String) (past : Trace) (x : Exchange) (rest : Trace)
      (r : Reconciliation) (u v : Estate), ctx.settings = settings → ctx.plan = e.plan →
      (Controller.reconcile ctx suffix).Yields (past ++ x :: rest) r →
      Course settings e past u → u.Served x v →
      (v.plan.finalizers.filter fun f => f != settings.keys.finalizer) =
        u.plan.finalizers.filter fun f => f != settings.keys.finalizer := by
  refine ⟨h.sound.covered, ?_⟩
  rintro ctx suffix past x rest r u v rfl hplan hyields hu hs
  have hread : Reads ctx.plan e := by
    rw [hplan]
    exact ⟨h.sound.fresh, List.mem_cons_self, rfl, rfl⟩
  exact (hu.reads hread).filter_eq hyields hs

end

end Estate

namespace OneNode

/-- the plan in the middle of an attempt, before anything has been created for it -/
def unowned : Estate where
  store := { manifests := [published], nodes := [node] }
  plan := planAt "2" started

/-- another plan in the middle of an attempt -/
def second : UpgradePlan :=
  { planAt "1" (some (Start.status ⟨0, 0⟩ 1 release "5f6a7b8c9d" {})) with
    metadata := { (planAt "1" none).metadata with name := some "second" } }

/-- the secret of an attempt of a plan -/
def secretOf (plan : UpgradePlan) (suffix : String) : Secret :=
  Script.secret {} os suffix (Naming.identity {} plan)

def foreignSecret : Secret := secretOf second "5f6a7b8c9d"

def ownSecret : Secret := secretOf unowned.plan "0a1b2c3d4e"

/-- the other plan has a secret -/
def shared : Estate := { unowned with store := { unowned.store with secrets := [foreignSecret] } }

/-- so has the plan itself -/
def owning : Estate :=
  { unowned with store := { unowned.store with secrets := [foreignSecret, ownSecret] } }

/-- its deletion has been requested -/
def doomed : Estate where
  store := owning.store
  plan := { planAt "3" started with
    metadata := { (planAt "3" none).metadata with
      deletionTimestamp := some "2024-10-01T12:00:00Z" } }
  past := [planAt "2" started]

/-- its secret is gone, and so is the finalizer -/
def released : Estate where
  store := shared.store
  plan := (World.planAfter doomed.plan (.setFinalizers doomed.plan [])).versioned "4"
  past := doomed.plan :: doomed.past

theorem second_yields : ∃ t r,
    (Controller.reconcile (contextAt second) "ffffffffff").Yields t r ∧
      .created .secret foreignSecret ∈ t := by
  refine ⟨_, _, ⟨.ok [published], _, rfl, .ok [node], _, rfl, .ok none, _, rfl, .ok (), _, rfl,
    .ok (), _, rfl, .ok (), _, rfl, rfl, rfl⟩, ?_⟩
  exact List.mem_cons_of_mem _ (List.mem_cons_of_mem _ (List.mem_cons_of_mem _ List.mem_cons_self))

theorem second_elsewhere : unowned.Elsewhere {} (.create .secret foreignSecret) := by
  obtain ⟨t, r, hyields, hmem⟩ := second_yields
  have hkeys : Keys.Distinct {} := distinct_keys
  exact ⟨contextAt second, _, t, r, rfl, Naming.identity_ne hkeys (by decide), hyields, _, hmem,
    rfl⟩

theorem owning_pass : ∃ t e', shared.Pass {} t e' ∧ e' = owning := by
  refine ⟨_, _, ⟨⟨contextAt shared.plan, "ffffffffff", [], _, rfl, rfl, .ok [published], _, rfl,
    .ok [node], _, rfl, .ok none, _, rfl, .ok (), _, rfl, .ok (), _, rfl, .ok (), _, rfl, rfl, rfl⟩,
    .cons (.answered (.spared rfl)) <| .cons (.answered (.spared rfl)) <|
      .cons (.answered (.spared rfl)) <| .cons (.answered (.spared rfl)) <|
        .cons (.answered (.spared rfl)) <| .cons (.answered (.unchanged rfl rfl rfl)) <|
          .nil _⟩, ?_⟩
  rfl

theorem doomed_harmless : owning.Harmless {} doomed := by
  refine ⟨⟨⟨rfl, rfl⟩, .inr ⟨rfl, "3", rfl, by decide⟩⟩, fun k _ => ?_, id⟩
  have hnames : doomed.names {} k = owning.names {} k := Estate.names_congr ⟨rfl, rfl⟩ rfl
  rw [hnames]
  exact List.Subset.refl _

theorem released_pass : ∃ t e', doomed.Pass {} t e' ∧ e' = released := by
  refine ⟨_, _, ⟨⟨contextAt doomed.plan, "ffffffffff", [], _, rfl, rfl, .ok [], _, rfl,
    .ok [foreignSecret, ownSecret], _, rfl, .ok (), _, rfl, .ok (), _, rfl, rfl, rfl⟩,
    .cons (.answered (.spared rfl)) <| .cons (.answered (.spared rfl)) <|
      .cons (.answered (.spared rfl)) <| .cons (.answered (.revised "4" rfl rfl
        ⟨"4", rfl, by decide⟩)) <| .nil _⟩, ?_⟩
  rfl

theorem reachable_released : Estate.Reachable {} released := by
  have h₁ : Estate.Reachable {} unowned := .start ⟨rfl, rfl⟩ rfl ⟨"2", rfl, by decide⟩
  have h₂ : Estate.Reachable {} shared := .interferes h₁ (.elsewhere second_elsewhere)
  obtain ⟨_, _, howning, rfl⟩ := owning_pass
  have h₃ : Estate.Reachable {} owning := .pass h₂ howning
  have h₄ : Estate.Reachable {} doomed := .interferes h₃ (.outside doomed_harmless)
  obtain ⟨_, _, hreleased, rfl⟩ := released_pass
  exact .pass h₄ hreleased

/-- the plan before it gets the finalizer, with one that somebody else has set -/
def unguarded : Estate where
  store := unowned.store
  plan := { planAt "1" none with
    metadata := { (planAt "1" none).metadata with finalizers := some ["foregroundDeletion"] } }

def guarding : Call :=
  .setFinalizers unguarded.plan ["foregroundDeletion", "lifecycle.ruo.io/finalizer"]

def guarded : Estate where
  store := unguarded.store
  plan := (World.planAfter unguarded.plan guarding).versioned "2"
  past := [unguarded.plan]

theorem guarding_yields : ∃ r,
    (Controller.reconcile (contextAt unguarded.plan) "ffffffffff").Yields
      [⟨guarding, .ok ()⟩] r :=
  ⟨_, .ok (), _, rfl, rfl, rfl⟩

theorem guarded_served : unguarded.Served ⟨guarding, .ok ()⟩ guarded :=
  .answered (.revised "2" rfl rfl ⟨"2", rfl, by decide⟩)

end OneNode

theorem Estate.Reachable.no_orphans_oneNode :
    OneNode.owning.owned {} .secret = [OneNode.ownSecret] ∧
      OneNode.released.store.secrets = [OneNode.foreignSecret] ∧
      (OneNode.released.owned {} .nodePlan = [] ∧ OneNode.released.owned {} .secret = []) ∧
      OneNode.guarded.plan.finalizers = ["foregroundDeletion", "lifecycle.ruo.io/finalizer"] ∧
      (OneNode.guarded.plan.finalizers.filter fun f => f != "lifecycle.ruo.io/finalizer") =
        OneNode.unguarded.plan.finalizers.filter fun f => f != "lifecycle.ruo.io/finalizer" := by
  obtain ⟨r, hyields⟩ := OneNode.guarding_yields
  have hstart : Estate.Reachable {} OneNode.unguarded :=
    .start ⟨rfl, rfl⟩ rfl ⟨"1", rfl, by decide⟩
  refine ⟨rfl, rfl, (Estate.Reachable.no_orphans OneNode.reachable_released).1 (by decide), rfl, ?_⟩
  exact (Estate.Reachable.no_orphans hstart).2 (OneNode.contextAt OneNode.unguarded.plan) _ [] _ []
    r _ _ rfl rfl hyields (.nil _) OneNode.guarded_served

end ReleaseUpgrade
