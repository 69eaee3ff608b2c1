import ReleaseUpgrade.Proofs.Cluster.World
import ReleaseUpgrade.Proofs.Controller.Finalizer
import ReleaseUpgrade.Proofs.Controller.History
import ReleaseUpgrade.Proofs.Controller.Watch

/-!
# A plan and the objects that have its marks

While passes are made over a plan, other plans are worked on and third parties change the cluster
and the plan.  The API server gives each stored version of the plan a name of its own, and it takes
a change of a pass only if that names the current version.

* `Estate`, `Estate.owned`   a cluster with the versions of a plan, and the objects in the upgrade
                             namespace that have the marks of the plan;
* `Takes`, `Served`          what a call changes if it takes effect, and how it is answered;
* `Harmless`                 no object gets the marks of the plan, and the plan keeps the finalizer;
* `Interferes`               what others do: something harmless, or a call for another plan, which
                             is harmless too, `Interferes.harmless`;
* `Course`, `Pass`           the calls of a pass over the plan, with what others do in between;
* `Reachable`                the estates that passes lead to from one without owned objects.
-/

namespace ReleaseUpgrade

theorem Rest.revision?_finalizersPatch (plan : UpgradePlan) (finalizers : List String) :
    revision? (finalizersPatch plan finalizers) =
      some (plan.metadata.resourceVersion.elim .null .str) := by
  rfl

/-- the version that a change to a plan names -/
def Call.revision? : Call → Option Json
  | .patchStatus plan status => Rest.revision? (Rest.statusPatch plan status)
  | .setFinalizers plan finalizers => Rest.revision? (Rest.finalizersPatch plan finalizers)
  | _ => none

namespace UpgradePlan

/-- the plan under the name of a version -/
def versioned (plan : UpgradePlan) (v : String) : UpgradePlan :=
  { plan with metadata := { plan.metadata with resourceVersion := some v } }

/-- both are the plan of one name in one namespace -/
structure Same (p q : UpgradePlan) : Prop where
  name : p.metadata.nameAny = q.metadata.nameAny
  ns : p.metadata.ns = q.metadata.ns

theorem Same.trans {p q r : UpgradePlan} (h : p.Same q) (h' : q.Same r) : p.Same r :=
  ⟨h.name.trans h'.name, h.ns.trans h'.ns⟩

theorem same_planAfter (plan : UpgradePlan) (c : Call) : (World.planAfter plan c).Same plan := by
  cases c <;> exact ⟨rfl, rfl⟩

theorem finalizers_planAfter (plan : UpgradePlan) {c : Call} (hc : c.setsFinalizers = false) :
    (World.planAfter plan c).finalizers = plan.finalizers := by
  cases c <;> first | rfl | cases hc

end UpgradePlan

namespace Naming
variable {keys : Keys} {plan other : UpgradePlan}

theorem isOwnedBy_congr (h : other.Same plan) (m : Metadata) :
    isOwnedBy keys m other = isOwnedBy keys m plan := by
  rw [isOwnedBy, isOwnedBy, h.name, h.ns]

/-- an object that is owned by a plan has its marks -/
theorem marks_of_isOwnedBy {m : Metadata} {marks : Dict String}
    (h : isOwnedBy keys m plan = true) (hm : m.annotations = some marks) :
    Marks keys plan marks := by
  obtain ⟨⟨name, ns⟩, howner, hplan⟩ := (Option.any_eq_true ..).mp h
  obtain ⟨hname, hns⟩ := (Bool.and_eq_true_iff ..).mp hplan
  rw [decide_eq_true_iff] at hname hns
  simp only [owner?, hm, Option.bind_eq_bind, Option.bind_some, Option.bind_eq_some_iff,
    Option.some.injEq, Prod.mk.injEq] at howner
  obtain ⟨name, hfound, ns, hfoundNs, rfl, rfl⟩ := howner
  have hnsOr : plan.metadata.nsOr = ns := by rw [Metadata.nsOr, ← hns, Option.getD_some]
  exact ⟨hname ▸ hfound, hnsOr ▸ hfoundNs⟩

/-- an object with the marks of one plan is owned by another one only if both have the same marks -/
theorem identity_eq_of_isOwnedBy {m : Metadata} (h : isOwnedBy keys m plan = true)
    (hm : m.annotations = some (identity keys other)) :
    identity keys other = identity keys plan := by
  have hidentity (p : UpgradePlan) : identity keys p =
      Dict.insert keys.planNamespace p.metadata.nsOr
        (Dict.insert keys.planName p.metadata.nameAny []) := rfl
  obtain ⟨hname, hns⟩ := marks_of_isOwnedBy h hm
  rw [hidentity, Dict.get?_insert_self, Option.some.injEq] at hns
  rw [hidentity other, hidentity plan, hns]
  by_cases hkeys : keys.planNamespace = keys.planName
  · -- the two marks are one, which is the namespace
    have hone (value : String) : Dict.insert keys.planNamespace plan.metadata.nsOr
        (Dict.insert keys.planName value []) = [(keys.planName, plan.metadata.nsOr)] := by
      rw [hkeys]
      simp [Dict.insert]
    rw [hone, hone]
  · rw [hidentity, Dict.get?_insert_of_ne hkeys, Dict.get?_insert_self, Option.some.injEq] at hname
    rw [hname]

theorem identity_ne (hkeys : keys.Distinct)
    (h : (other.metadata.nameAny, other.metadata.nsOr) ≠
      (plan.metadata.nameAny, plan.metadata.nsOr)) :
    identity keys other ≠ identity keys plan := by
  intro he
  have hother := marks_identity hkeys other
  rw [he] at hother
  have hplan := marks_identity hkeys plan
  have hname := hother.name.symm.trans hplan.name
  have hns := hother.ns.symm.trans hplan.ns
  exact h (Prod.ext (Option.some.inj hname) (Option.some.inj hns))

end Naming

/-- a cluster and a plan in it, with the versions that have been stored of the plan before -/
structure Estate where
  store : Store
  plan : UpgradePlan
  past : List UpgradePlan := []

namespace Estate

section
variable (settings : Settings) (e : Estate) (k : Kind)

/-- the objects of a kind in the upgrade namespace that have the marks of the plan -/
def owned : List k.Object :=
  (e.store.list k (some settings.upgradeNamespace)).filter fun o =>
    Naming.isOwnedBy settings.keys (k.metadata o) e.plan

/-- their names -/
def names : List String := (e.owned settings k).map fun o => (k.metadata o).nameAny

/-- there is no node plan and no secret with the marks of the plan -/
def Clear : Prop := e.owned settings .nodePlan = [] ∧ e.owned settings .secret = []

/-- the plan carries the finalizer -/
def Guarded : Prop := settings.keys.finalizer ∈ e.plan.finalizers

end

/-- a call takes effect; a change to the plan does only if it names the current version, and then
there is another version unless nothing has changed -/
inductive Takes (e : Estate) (c : Call) : Estate → Prop
  | spared : c.sparesPlan = true → Takes e c { e with store := (Store.answer c e.store).2 }
  | revised (v) : c.sparesPlan = false →
      c.revision? = e.plan.metadata.resourceVersion.map Json.str →
      Fresh (e.plan :: e.past) ((World.planAfter e.plan c).versioned v) →
      Takes e c ⟨e.store, (World.planAfter e.plan c).versioned v, e.plan :: e.past⟩
  | unchanged : c.sparesPlan = false →
      c.revision? = e.plan.metadata.resourceVersion.map Json.str →
      World.planAfter e.plan c = e.plan → Takes e c e

/-- a call is answered, or it fails before or after it has taken effect -/
inductive Served (e : Estate) : Exchange → Estate → Prop
  | answered {c e'} : e.Takes c e' → Served e ⟨c, (Store.answer c e.store).1⟩ e'
  | lost (c failure) : Served e ⟨c, .error failure⟩ e
  | unacknowledged {c e'} (failure) : e.Takes c e' → Served e ⟨c, .error failure⟩ e'

/-- the plan stays as it is, or another version of it is stored -/
structure Succeeds (e e' : Estate) : Prop where
  same : e'.plan.Same e.plan
  versions : e'.plan = e.plan ∧ e'.past = e.past ∨
    e'.past = e.plan :: e.past ∧ Fresh e'.past e'.plan

/-- no object gets the marks of the plan, and the plan keeps the finalizer if it carries it -/
structure Harmless (settings : Settings) (e e' : Estate) : Prop extends e.Succeeds e' where
  names : ∀ k, k.IsSwept → e'.names settings k ⊆ e.names settings k
  guarded : e.Guarded settings → e'.Guarded settings

/-- a call is made in a pass over a plan with other marks -/
def Elsewhere (settings : Settings) (e : Estate) (c : Call) : Prop :=
  ∃ ctx suffix t r, ctx.settings = settings ∧
    ctx.identity ≠ Naming.identity settings.keys e.plan ∧
    (Controller.reconcile ctx suffix).Yields t r ∧ ∃ x ∈ t, x.call = c

/-- what others do: third parties something harmless, which may be to request the deletion of the
plan, and passes over other plans their calls -/
inductive Interferes (settings : Settings) (e : Estate) : Estate → Prop
  | outside {e'} : e.Harmless settings e' → Interferes settings e e'
  | elsewhere {c} : e.Elsewhere settings c →
      Interferes settings e { e with store := (Store.answer c e.store).2 }

/-- the calls of a trace are served in turn, with what others do in between -/
inductive Course (settings : Settings) : Estate → Trace → Estate → Prop
  | nil (e) : Course settings e [] e
  | interferes {e e' e'' t} : e.Interferes settings e' → Course settings e' t e'' →
      Course settings e t e''
  | cons {e x e' t e''} : e.Served x e' → Course settings e' t e'' →
      Course settings e (x :: t) e''

/-- a pass over the current plan, as far as it goes -/
structure Pass (settings : Settings) (e : Estate) (t : Trace) (e' : Estate) : Prop where
  begun : ∃ ctx suffix rest r, ctx.settings = settings ∧ ctx.plan = e.plan ∧
    (Controller.reconcile ctx suffix).Yields (t ++ rest) r
  course : Course settings e t e'

/-- the estates that lead from a stored plan without owned objects -/
inductive Reachable (settings : Settings) : Estate → Prop
  | start {e} : e.Clear settings → e.past = [] → Fresh [] e.plan → Reachable settings e
  | interferes {e e'} : Reachable settings e → e.Interferes settings e' → Reachable settings e'
  | pass {e t e'} : Reachable settings e → e.Pass settings t e' → Reachable settings e'

section
variable {settings : Settings} {e e' e'' u v : Estate} {k : Kind} {c : Call} {x : Exchange}
  {t past rest : Trace}

theorem mem_owned {o : k.Object} : o ∈ e.owned settings k ↔ o ∈ e.store.objects k ∧
    (k.metadata o).ns = some settings.upgradeNamespace ∧
      Naming.isOwnedBy settings.keys (k.metadata o) e.plan = true := by
  rw [owned, Store.list, List.mem_filter, List.mem_filter, decide_eq_true_iff, and_assoc]

theorem owned_eq_nil (h : e.names settings k ⊆ []) : e.owned settings k = [] :=
  List.map_eq_nil_iff.mp (List.subset_nil.mp h)

theorem names_eq_nil (h : e.owned settings k = []) : e.names settings k = [] :=
  List.map_eq_nil_iff.mpr h

theorem names_congr (hplan : e'.plan.Same e.plan) (hstore : e'.store = e.store) :
    e'.names settings k = e.names settings k := by
  have hmarks : (fun o => Naming.isOwnedBy settings.keys (k.metadata o) e'.plan) =
      fun o => Naming.isOwnedBy settings.keys (k.metadata o) e.plan :=
    funext fun o => Naming.isOwnedBy_congr hplan (k.metadata o)
  rw [names, names, owned, owned, hstore, hmarks]

theorem owned_answer (hput : ∀ o : k.Object, c = .create k o ∨ c = .replace k o →
      Naming.isOwnedBy settings.keys (k.metadata o) e.plan ≠ true) :
    ({ e with store := (Store.answer c e.store).2 } : Estate).owned settings k ⊆
      e.owned settings k := by
  intro o ho
  obtain ⟨hmem, hns, howned⟩ := mem_owned.mp ho
  obtain hmem | hc := Store.mem_objects_answer hmem
  · exact mem_owned.mpr ⟨hmem, hns, howned⟩
  · exact absurd howned (hput o hc)

theorem Succeeds.refl (e : Estate) : e.Succeeds e := ⟨⟨rfl, rfl⟩, .inl ⟨rfl, rfl⟩⟩

theorem Takes.succeeds (h : e.Takes c e') : e.Succeeds e' := by
  cases h with
  | spared => exact ⟨⟨rfl, rfl⟩, .inl ⟨rfl, rfl⟩⟩
  | unchanged => exact .refl e
  | revised v _ _ hfresh =>
    have hsame := e.plan.same_planAfter c
    exact ⟨⟨hsame.name, hsame.ns⟩, .inr ⟨rfl, hfresh⟩⟩

/-- a call that creates and replaces nothing brings no owned object -/
theorem Takes.names_subset (h : e.Takes c e') (hput : c.puts = false) :
    e'.names settings k ⊆ e.names settings k := by
  cases h with
  | spared =>
    refine List.map_subset _ (owned_answer fun o hc => ?_)
    obtain rfl | rfl := hc <;> cases hput
  | revised v _ _ hfresh =>
    have hsame := e.plan.same_planAfter c
    have hnames : (⟨e.store, (World.planAfter e.plan c).versioned v, e.plan :: e.past⟩ :
        Estate).names settings k = e.names settings k :=
      names_congr ⟨hsame.name, hsame.ns⟩ rfl
    rw [hnames]
    exact List.Subset.refl _
  | unchanged => exact List.Subset.refl _

theorem Takes.finalizers_eq (h : e.Takes c e') (hsets : c.setsFinalizers = false) :
    e'.plan.finalizers = e.plan.finalizers := by
  cases h with
  | spared | unchanged => rfl
  | revised v => exact e.plan.finalizers_planAfter hsets

theorem Served.eq_or (h : e.Served x e') : e' = e ∨ e.Takes x.call e' := by
  cases h with
  | answered htakes => exact .inr htakes
  | lost => exact .inl rfl
  | unacknowledged _ htakes => exact .inr htakes

theorem Served.succeeds (h : e.Served x e') : e.Succeeds e' := by
  obtain rfl | htakes := h.eq_or
  · exact .refl e'
  · exact htakes.succeeds

theorem Served.names_subset (h : e.Served x e') (hput : x.call.puts = false) :
    e'.names settings k ⊆ e.names settings k := by
  obtain rfl | htakes := h.eq_or
  · exact List.Subset.refl _
  · exact htakes.names_subset hput

theorem Served.finalizers_eq (h : e.Served x e') (hsets : x.call.setsFinalizers = false) :
    e'.plan.finalizers = e.plan.finalizers := by
  obtain rfl | htakes := h.eq_or
  · rfl
  · exact htakes.finalizers_eq hsets

/-- what is done for other plans is harmless, as no object that it brings is owned -/
theorem Elsewhere.harmless (h : e.Elsewhere settings c) :
    e.Harmless settings { e with store := (Store.answer c e.store).2 } := by
  obtain ⟨ctx, suffix, t, r, rfl, hne, hyields, x, hx, rfl⟩ := h
  refine ⟨⟨⟨rfl, rfl⟩, .inl ⟨rfl, rfl⟩⟩, fun k hk => ?_, id⟩
  refine List.map_subset _ (owned_answer fun o hc howned => hne ?_)
  exact Naming.identity_eq_of_isOwnedBy howned (Controller.marked_of_yields hyields hx hk hc)

theorem Interferes.harmless (h : e.Interferes settings e') : e.Harmless settings e' := by
  cases h with
  | outside hharmless => exact hharmless
  | elsewhere helse => exact helse.harmless

/-- what holds before a course and is preserved by all that happens holds after it -/
theorem Course.invariant {P : Estate → Prop} (h : Course settings e t e') (he : P e)
    (hothers : ∀ {u v}, P u → u.Harmless settings v → P v)
    (hserved : ∀ {u y v}, y ∈ t → P u → u.Served y v → P v) : P e' := by
  induction h with
  | nil => exact he
  | interferes hi _ ih => exact ih (hothers he hi.harmless) hserved
  | cons hs _ ih =>
    exact ih (hserved List.mem_cons_self he hs) fun hy => hserved (List.mem_cons_of_mem _ hy)

theorem Course.cut (h : Course settings e (past ++ x :: rest) e') :
    ∃ u v, Course settings e past u ∧ u.Served x v ∧ Course settings v rest e' := by
  generalize ht : past ++ x :: rest = t at h
  induction h generalizing past with
  | nil => cases past <;> cases ht
  | interferes hi _ ih =>
    obtain ⟨u, v, hu, hx, hv⟩ := ih ht
    exact ⟨u, v, .interferes hi hu, hx, hv⟩
  | cons hs hrest ih =>
    cases past with
    | nil =>
      cases ht
      exact ⟨_, _, .nil _, hs, hrest⟩
    | cons y past =>
      cases ht
      obtain ⟨u, v, hu, hx, hv⟩ := ih rfl
      exact ⟨u, v, .cons hs hu, hx, hv⟩

theorem Course.head (h : Course settings e (x :: rest) e') :
    ∃ u v, Course settings e [] u ∧ u.Served x v ∧ Course settings v rest e' := by
  have h : Course settings e ([] ++ x :: rest) e' := h
  exact h.cut

end

end Estate

end ReleaseUpgrade
