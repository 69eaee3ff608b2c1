import ReleaseUpgrade.Proofs.Cluster.World
import ReleaseUpgrade.Proofs.Controller.Reconciliation
import ReleaseUpgrade.Proofs.Phases.Order

/-!
# Objects are created once

Passes are made over one plan, and each of them finds the cluster as the last one has left it and as
others have changed it.  A pass may be broken off after any of its calls, and any call may be lost.

* `Pass`                     a pass in a world, as far as it goes;
* `Due`                      when an object may be created or replaced, by how things were when the
                             pass began;
* `Pass.due`, `Pass.writes_le`   nothing else is created or replaced, and it happens once at most;
* `Run`, `Run.sound`         worlds that follow each other, and what holds in all of them;
* `Run.created_once`         no object is created twice, and each has a suffix that was persisted.
-/

namespace ReleaseUpgrade

/-- the trace touches the object under a key -/
def Trace.Touches (t : Trace) (key : Key) : Prop := ∃ x ∈ t, x.call.key? = some key

/-- a pass over the plan, as far as it goes; meanwhile nobody else writes what it writes, and a
release that it finds has the name that it has asked for -/
structure Pass (w : World) (t : Trace) (w' : World) : Prop where
  begun : ∃ ctx suffix rest r, ctx.plan = w.plan ∧
    (Controller.reconcile ctx suffix).Yields (t ++ rest) r
  unfolds : Unfolds t.Touches w t w'
  faithful : ∀ name (release : HelmRelease), .found name (some release) ∈ t → release.name = name

/-- the name of a secret or of a node plan, with the suffix of an attempt -/
inductive Named (suffix : String) : Key → Prop
  | secret (ns) : Named suffix ⟨.secret, ns, Naming.osSecret suffix⟩
  | system (ns role zypperId version) :
      Named suffix ⟨.nodePlan, ns, Naming.osPlan role zypperId version suffix⟩
  | distribution (ns role version) :
      Named suffix ⟨.nodePlan, ns, Naming.kubernetesPlan role version suffix⟩

/-- the name has the suffix of the attempt that the status of the plan tells of -/
def World.Names (w : World) (key : Key) : Prop :=
  ∃ suffix, w.plan.statusOr.namingSuffix = some suffix ∧ Named suffix key

/-- what a pass may create or replace that begins in a world -/
inductive Due (w : World) : Call → Prop
  | named (k : Kind) (o : k.Object) : w.Names (k.key o) → w.store.under (k.key o) = none →
      Due w (.create k o)
  | chart (o : HelmChart) : w.store.under (Kind.key .helmChart o) = none →
      Due w (.create .helmChart o)
  | newer (o existing : HelmChart) : w.store.under (Kind.key .helmChart o) = some existing →
      existing.spec.version ≠ o.spec.version → Due w (.replace .helmChart o)
  | job (o : Job) : Due w (.create .job o)

section
variable {ctx : Context} {w : World} {t past : Trace}

theorem under_of_resource {s : Store} {release : String} {existing : HelmChart}
    (h : Evaluation.resource? release s.helmCharts = .ok (some existing)) :
    s.under (Kind.key .helmChart existing) = some existing := by
  have hone := Evaluation.resource?_eq_some h
  have hmem : existing ∈ s.helmCharts.filter fun c => c.metadata.nameAny = release := by
    rw [hone]
    exact List.mem_cons_self
  obtain ⟨hin, hname⟩ := List.mem_filter.mp hmem
  have hname : existing.metadata.nameAny = release := of_decide_eq_true hname
  cases hfound : s.under (Kind.key .helmChart existing) with
  | none => exact absurd Store.isSame_self (List.find?_eq_none.mp hfound existing hin)
  | some other =>
    have hkey := Store.isNamed_iff.mp (List.find?_some hfound)
    have hother : other ∈ s.helmCharts.filter fun c => c.metadata.nameAny = release := by
      refine List.mem_filter.mpr ⟨List.mem_of_find?_eq_some hfound, decide_eq_true ?_⟩
      exact (Key.mk.inj hkey).2.2.trans hname
    rw [hone] at hother
    exact congrArg some (List.mem_singleton.mp hother)

theorem due_of_licensed {c : Call} (hseen : Reflects t.Touches w past)
    (hfaithful : ∀ name (release : HelmRelease), .found name (some release) ∈ past →
      release.name = name)
    (htouch : ∀ key, c.key? = some key → Trace.Touches t key)
    (h : Upgrade.Licensed ctx w.plan.statusOr past c) : Due w c := by
  cases h with
  | install => exact .job _
  | system m _ _ hallowed =>
    cases hallowed with
    | secret nodes suffix _ hfit hnone =>
      exact .named _ _ ⟨suffix, hfit.named, .secret _⟩ (hseen.under_eq_none hnone (htouch _ rfl))
    | plan nodes suffix _ _ hfit _ htier =>
      obtain ⟨_, role, _, _, rfl, hnone, _⟩ := htier
      rw [SystemPhase.looked_tiers] at hnone
      have hkey : Kind.key .nodePlan ((SystemPhase.tiers ctx m.spec.releaseVersion
          m.spec.components.operatingSystem nodes suffix).plan role) =
          ⟨.nodePlan, some ctx.settings.upgradeNamespace, Naming.osPlan role
            m.spec.components.operatingSystem.zypperId m.spec.components.operatingSystem.version
            suffix⟩ := by
        cases role <;> rfl
      refine .named _ _ ⟨suffix, hfit.named, ?_⟩ ?_
      · rw [hkey]
        exact .system ..
      · rw [hkey]
        exact hseen.under_eq_none hnone (htouch _ (congrArg some hkey))
  | distribution m _ _ _ hallowed =>
    obtain ⟨nodes, d, suffix, _, hknown, _, role, _, _, rfl, hnone, _⟩ := hallowed
    rw [DistributionPhase.looked_spec] at hnone
    have hkey : Kind.key .nodePlan ((DistributionPhase.spec ctx m.spec.components.kubernetes d nodes
        suffix).plan role) =
        ⟨.nodePlan, some ctx.settings.upgradeNamespace,
          Naming.kubernetesPlan role (d.target m.spec.components.kubernetes).version suffix⟩ := by
      cases role <;> rfl
    refine .named _ _ ⟨suffix, hknown.named, ?_⟩ ?_
    · rw [hkey]
      exact .distribution ..
    · rw [hkey]
      exact hseen.under_eq_none hnone (htouch _ (congrArg some hkey))
  | workload m workload _ _ _ _ hallowed =>
    obtain ⟨resources, hlist, chart, _, hwrite⟩ := hallowed
    obtain ⟨u, v, hs, hsame⟩ := hseen _ hlist
    have hcharts : u.store.helmCharts = resources := hs.listed
    subst hcharts
    cases hwrite with
    | create installed text hmem hnone =>
      -- no resource in any namespace has the name, so there is none under the key
      refine .chart _ ?_
      rw [← hsame _ (htouch _ rfl)]
      refine List.find?_eq_none.mpr fun other hin hnamed => ?_
      refine Evaluation.resource?_eq_none hnone other hin ?_
      exact (Key.mk.inj (Store.isNamed_iff.mp hnamed)).2.2.trans (hfaithful _ _ hmem)
    | replace existing text hsome hne =>
      refine .newer _ existing ?_ hne
      rw [← hsame _ (htouch _ rfl)]
      exact under_of_resource hsome

end

section
variable {w w' : World} {t past rest : Trace} {x : Exchange}

theorem Pass.unput (h : Pass w t w') (hterm : w.plan.metadata.isTerminating = true) : t.Unput := by
  obtain ⟨ctx, suffix, _, _, hplan, hyields⟩ := h.begun
  exact ((Trace.unput_append _ _).mp
    (Controller.unput_of_yields hyields (hplan ▸ hterm))).1

/-- what a pass over a plan that stays writes is what a step may write -/
theorem Pass.licensed (h : Pass w t w') (hterm : w.plan.metadata.isTerminating = false) :
    ∃ ctx, ctx.plan = w.plan ∧ t.Guarded (Upgrade.Licensed ctx w.plan.statusOr) ∧
      (t.Brief True ∨ ManifestPhase.Creates .job (ManifestPhase.job ctx) t) := by
  obtain ⟨ctx, suffix, _, _, hplan, hyields⟩ := h.begun
  obtain ⟨rest, r, hrest, hyields⟩ := Program.yields_resumed hyields
  have hterm : ctx.plan.metadata.isTerminating = false := hplan ▸ hterm
  have hgen : Trace.Genuine (t ++ rest) :=
    (Trace.genuine_append _ _).mpr ⟨h.unfolds.genuine, hrest⟩
  refine ⟨ctx, hplan, ?_, ?_⟩
  · rw [← hplan]
    exact ((Trace.guarded_append _ _).mp (Controller.guarded_of_yields hyields hterm)).1
  · exact (Controller.writes_of_yields hyields hterm hgen).imp (fun hbrief => hbrief.left)
      fun hjob => ((ManifestPhase.creates_append _ _).mp hjob).1

theorem Pass.due (h : Pass w t w') (hstay : w.store.replaceTerminating = false)
    (hcut : t = past ++ x :: rest) (hputs : x.call.puts = true) : Due w x.call := by
  have hmem : x ∈ t := by
    rw [hcut]
    exact List.mem_append_right past List.mem_cons_self
  cases hterm : w.plan.metadata.isTerminating with
  | true =>
    rw [h.unput hterm x hmem] at hputs
    cases hputs
  | false =>
    have hwrites := Call.writes_of_puts hputs
    obtain ⟨ctx, _, hguarded, hbrief | hjob⟩ := h.licensed hterm
    case inr =>
      rw [hjob x hmem hwrites]
      exact .job _
    have hunfolds := h.unfolds
    rw [hcut] at hguarded hbrief hunfolds
    have hquiet := hbrief.quiet_before hwrites
    refine due_of_licensed (hunfolds.reflects hstay hquiet) ?_ ?_ (hguarded.at hwrites)
    · intro name release hfound
      exact h.faithful name release (hcut ▸ List.mem_append_left _ hfound)
    · intro key hkey
      exact ⟨x, List.mem_append_right past List.mem_cons_self, hkey⟩

/-- at most one creation or replacement of a pass takes effect -/
theorem Pass.writes_le (h : Pass w t w') (hstay : w.store.replaceTerminating = false) :
    w'.writes ≤ w.writes + 1 := by
  have hle := h.unfolds.writes_le
  cases hterm : w.plan.metadata.isTerminating with
  | true =>
    have hzero : t.countP (·.call.puts) = 0 :=
      List.countP_eq_zero.mpr fun x hx => by rw [h.unput hterm x hx]; exact Bool.false_ne_true
    omega
  | false =>
    obtain ⟨ctx, _, _, hbrief | hjob⟩ := h.licensed hterm
    · have hone := hbrief.countP_le_one
      have hputs := List.countP_mono_left (l := t) fun x _ => Call.writes_of_puts (c := x.call)
      omega
    · -- only the job is tried more than once, and it is there after the first time
      by_cases hsome : ∃ x ∈ t, x.call.writes = true
      · obtain ⟨x, hx, hw⟩ := hsome
        refine h.unfolds.writes_le_one hstay ?_ hjob
        exact ⟨x, hx, by rw [hjob x hx hw]; rfl⟩
      · have hzero : t.countP (·.call.puts) = 0 := List.countP_eq_zero.mpr fun x hx hputs =>
          hsome ⟨x, hx, Call.writes_of_puts hputs⟩
        omega

end
/-- no key has been used twice, and as long as the plan stays, every object that has been created is
there -/
structure Sound (w : World) : Prop where
  stays : w.store.replaceTerminating = false
  nodup : w.created.Nodup
  present : w.plan.metadata.isTerminating = false →
    ∀ key ∈ w.created, w.store.under key ≠ none

/-- the current world of a run and those before it, the latest first: others change the cluster, and
passes are made -/
inductive Run : World → List World → Prop
  | start {w} : w.created = [] → w.store.replaceTerminating = false → Run w []
  | drift {w w' past} : Run w past → Drift w w' → Run w' (w :: past)
  | pass {w t w' past} : Run w past → Pass w t w' → Run w' (w :: past)

section
variable {w w' : World} {t : Trace} {past : List World}

theorem Tidy.sound (h : Tidy w) : Sound w := ⟨h.stays, h.nodup, fun _ => h.present⟩

theorem Sound.drift (h : Sound w) (hd : Drift w w') : Sound w' := by
  refine ⟨hd.stays.trans h.stays, ?_, fun hterm key hmem => ?_⟩
  · rw [hd.created]
    exact h.nodup
  · have hstays : w.plan.metadata.isTerminating = false :=
      Bool.eq_false_iff.mpr fun hgoes => by
        rw [hd.terminating hgoes] at hterm
        cases hterm
    rw [hd.created] at hmem
    exact hd.kept key hmem (h.present hstays key hmem)

/-- a pass over a plan that is being deleted creates nothing, and the plan goes on being deleted -/
theorem Sound.finalized (h : Sound w) (hterm : w.plan.metadata.isTerminating = true)
    (hp : Pass w t w') : Sound w' := by
  have hinv := hp.unfolds.invariant (P := fun u => u.store.replaceTerminating = false ∧
    u.created = w.created ∧ u.plan.metadata.isTerminating = true) ⟨h.stays, rfl, hterm⟩ ?_ ?_
  · obtain ⟨hstay, hcreated, hgoes⟩ := hinv
    refine ⟨hstay, hcreated ▸ h.nodup, fun hstays => ?_⟩
    rw [hgoes] at hstays
    cases hstays
  · rintro u v ⟨hstay, hcreated, hgoes⟩ hd _
    exact ⟨hd.stays.trans hstay, hd.created.trans hcreated, hd.terminating hgoes⟩
  · rintro u y v hy ⟨hstay, hcreated, hgoes⟩ hs
    refine ⟨hs.stays hstay, ?_, hs.terminating.trans hgoes⟩
    exact (hs.created_eq (hp.unput hterm y hy)).trans hcreated

/-- a pass preserves what holds in all worlds of a run -/
theorem Sound.pass (h : Sound w) (hp : Pass w t w') : Sound w' := by
  cases hterm : w.plan.metadata.isTerminating with
  | true => exact h.finalized hterm hp
  | false =>
    obtain ⟨ctx, _, hguarded, _⟩ := hp.licensed hterm
    refine Tidy.sound (hp.unfolds.invariant ⟨h.stays, h.nodup, h.present hterm⟩
      (fun hu hd _ => hu.drift hd) fun {u y v} hy hu hs => hu.serves hs ?_)
    cases hw : y.call.writes with
    | false => exact Call.deletes_eq_false hw
    | true =>
      obtain ⟨pre, post, rfl⟩ := List.append_of_mem hy
      exact (hguarded.at hw).deletes_eq_false

theorem Run.sound (h : Run w past) : Sound w := by
  induction h with
  | start hnil hstay =>
    refine ⟨hstay, hnil ▸ List.nodup_nil, fun _ key hmem => ?_⟩
    rw [hnil] at hmem
    cases hmem
  | drift _ hd ih => exact ih.drift hd
  | pass _ hp ih => exact ih.pass hp

/-- a secret or a node plan that has been created has the suffix of an earlier world -/
theorem Run.named (h : Run w past) (key : Key) (hmem : key ∈ w.created)
    (hkind : key.kind = .secret ∨ key.kind = .nodePlan) : ∃ u ∈ past, u.Names key := by
  -- a key is created in one pass, and from then on the suffix is that of an earlier world
  have earlier {u : World} {us : List World} (ih : ∃ v ∈ us, v.Names key) :
      ∃ v ∈ u :: us, v.Names key := by
    obtain ⟨v, hv, hnames⟩ := ih
    exact ⟨v, List.mem_cons_of_mem u hv, hnames⟩
  induction h with
  | start hnil =>
    rw [hnil] at hmem
    cases hmem
  | drift _ hd ih =>
    rw [hd.created] at hmem
    exact earlier (ih hmem)
  | @pass w t _ _ hrun hp ih =>
    obtain hmem | ⟨x, hx, k, o, hc, rfl⟩ := hp.unfolds.created hmem
    · exact earlier (ih hmem)
    obtain ⟨pre, post, hcut⟩ := List.append_of_mem hx
    have hdue := hp.due hrun.sound.stays hcut (by rw [hc]; rfl)
    rw [hc] at hdue
    cases hdue with
    | named _ _ hnames => exact ⟨w, List.mem_cons_self, hnames⟩
    | chart | job => obtain hkind | hkind := hkind <;> cases hkind

/-- in every run, whatever others do to the cluster but delete what has been created, whichever
calls are lost and wherever passes are broken off: no object is created twice; the secrets and node
plans that have been created have the suffixes of attempts that were persisted; and at most one
creation or replacement of the next pass takes effect, and only what is due is created or replaced
in it -/
theorem Run.created_once (h : Run w past) :
    w.created.Nodup ∧
    (∀ key ∈ w.created, key.kind = .secret ∨ key.kind = .nodePlan → ∃ u ∈ past, u.Names key) ∧
    ∀ t w', Pass w t w' → w'.writes ≤ w.writes + 1 ∧
      ∀ x ∈ t, x.call.puts = true → Due w x.call := by
  refine ⟨h.sound.nodup, h.named, fun t w' hp => ⟨hp.writes_le h.sound.stays, ?_⟩⟩
  intro x hx hputs
  obtain ⟨pre, post, hcut⟩ := List.append_of_mem hx
  exact hp.due h.sound.stays hcut hputs

end

namespace OneNode

/-- the manifest next to the plan -/
def published : ReleaseManifest := { manifest with metadata := { ns := some "lifecycle-system" } }

/-- the cluster of one node before the secret of the attempt is created -/
def cluster : World where
  store := { manifests := [published], nodes := [node] }
  plan := { context.plan with
    metadata := {
      ns := some "lifecycle-system"
      finalizers := some ["lifecycle.ruo.io/finalizer"] }
    status := some status }

/-- the secret of the attempt -/
def secret : Secret :=
  Script.secret context.settings os "0a1b2c3d4e"
    (Naming.identity context.settings.keys cluster.plan)

theorem secret_pass : ∃ t w', Pass cluster t w' ∧ w'.created = [Kind.key .secret secret] := by
  refine ⟨_, _, ⟨⟨⟨{}, cluster.plan, ⟨0, 0⟩⟩, "ffffffffff", [], _, rfl,
    .ok [published], _, rfl, .ok [node], _, rfl, .ok none, _, rfl, .ok (), _, rfl, .ok (), _, rfl,
    .ok (), _, rfl, rfl, rfl⟩,
    .cons (.answered _) <| .cons (.answered _) <| .cons (.answered _) <| .cons (.answered _) <|
      .cons (.answered _) <| .cons (.answered _) <| .nil _, ?_⟩, ?_⟩
  · intro name release h
    simp at h
  · rfl

end OneNode

theorem Run.created_once_oneNode : ∃ t w', Pass OneNode.cluster t w' ∧
    w'.created = [Kind.key .secret OneNode.secret] ∧ w'.created.Nodup ∧
    OneNode.cluster.Names (Kind.key .secret OneNode.secret) ∧ w'.writes ≤ 1 := by
  obtain ⟨t, w', hp, hcreated⟩ := OneNode.secret_pass
  have hstart : Run OneNode.cluster [] := .start rfl rfl
  obtain ⟨hnodup, hnamed, _⟩ := Run.created_once (.pass hstart hp)
  obtain ⟨u, hu, hnames⟩ := hnamed _ (hcreated ▸ List.mem_cons_self) (.inl rfl)
  rw [List.mem_singleton.mp hu] at hnames
  exact ⟨t, w', hp, hcreated, hnodup, hnames, ((Run.created_once hstart).2.2 t w' hp).1⟩

end ReleaseUpgrade
