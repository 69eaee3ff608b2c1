import ReleaseUpgrade.Phases.Manifest
import ReleaseUpgrade.Proofs.Cluster.Writes

/-!
# The manifest and its job

* `Resolved`           the trace shows which manifest the plan asks for;
* `Creates`            all that a trace writes is one object;
* `creates_of_install` the job is tried several times, but it is always the same job.
-/

namespace ReleaseUpgrade.ManifestPhase

/-- the manifests have been listed, and this is the one that the plan asks for, if there is one -/
def Resolved (ctx : Context) (past : Trace) (manifest? : Option ReleaseManifest) : Prop :=
  ∃ manifests : List ReleaseManifest,
    .listed .releaseManifest (some (planNamespace ctx)) manifests ∈ past ∧
      manifests.find? (fun m => m.spec.releaseVersion = ctx.plan.spec.releaseVersion) = manifest?

/-- every writing call of the trace creates the same object -/
def Creates (k : Kind) (o : k.Object) (t : Trace) : Prop :=
  ∀ x ∈ t, x.call.writes = true → x.call = .create k o

section
variable {ctx : Context} {t : Trace}

theorem Resolved.append {past : Trace} {manifest? : Option ReleaseManifest}
    (h : Resolved ctx past manifest?) (more : Trace) : Resolved ctx (past ++ more) manifest? := by
  obtain ⟨manifests, hmem, hfind⟩ := h
  exact ⟨manifests, List.mem_append_left more hmem, hfind⟩

theorem Creates.guarded {k : Kind} {o : k.Object} (h : Creates k o t) :
    t.Guarded fun _ c => c = .create k o := by
  induction t with
  | nil => trivial
  | cons x t ih =>
    exact ⟨h x List.mem_cons_self, ih fun y hy => h y (List.mem_cons_of_mem x hy)⟩

theorem creates_append {k : Kind} {o : k.Object} (u v : Trace) :
    Creates k o (u ++ v) ↔ Creates k o u ∧ Creates k o v :=
  List.forall_mem_append

theorem creates_of_quiet {k : Kind} {o : k.Object} (h : t.Quiet) : Creates k o t :=
  fun x hx hw => absurd hw (by rw [h x hx]; exact Bool.false_ne_true)

theorem resolved_of_yields {r : Except UpgradeError (Option ReleaseManifest)}
    (h : (resolve ctx).Yields t r) :
    t.Quiet ∧ ∀ manifest?, r = .ok manifest? → Resolved ctx t manifest? := by
  obtain ⟨e, rfl, rfl⟩ | ⟨manifests, _, rfl, hrest⟩ := (Action.yields_bind_list ..).mp h
  · exact ⟨Trace.quiet_single rfl, fun _ he => nomatch he⟩
  obtain ⟨rfl, rfl⟩ := (Action.yields_pure ..).mp hrest
  refine ⟨Trace.quiet_single rfl, fun manifest? he => ?_⟩
  cases he
  exact ⟨manifests, List.mem_cons_self, rfl⟩

theorem quiet_of_settle {job : Job} {e : UpgradeError} {r : Except UpgradeError Unit}
    (h : (settle job e).Yields t r) : t.Quiet := by
  obtain ⟨_, rfl, _⟩ | ⟨found, _, rfl, hrest⟩ := (Action.yields_bind_get ..).mp h
  · exact Trace.quiet_single rfl
  cases found with
  | none =>
    obtain ⟨rfl, _⟩ := (Action.yields_throw ..).mp hrest
    exact Trace.quiet_single rfl
  | some existing =>
    dsimp only at hrest
    split at hrest
    · obtain ⟨rfl, _⟩ := (Action.yields_throw ..).mp hrest
      exact Trace.quiet_single rfl
    · obtain ⟨rfl, _⟩ := (Action.yields_pure ..).mp hrest
      exact Trace.quiet_single rfl

theorem creates_of_create {k : Kind} {o : k.Object} {r : Except UpgradeError Unit}
    (h : (ctx.create k o).Yields t r) : Creates k o t := by
  obtain ⟨e, rfl, _⟩ | ⟨event, answer, rfl, _, _⟩ := (Context.yields_create ..).mp h
  · intro x hx _
    obtain rfl := List.mem_singleton.mp hx
    rfl
  · intro x hx hw
    obtain rfl | hx := List.mem_cons.mp hx
    · rfl
    · obtain rfl := List.mem_singleton.mp hx
      cases hw

theorem creates_of_attempt {job : Job} {r : Except UpgradeError Unit}
    (h : (attempt ctx job).Yields t r) : Creates .job job t := by
  obtain ⟨_, hc, _⟩ | ⟨e, u, v, rfl, hc, hrest⟩ := (Action.yields_recover ..).mp h
  · exact creates_of_create (k := .job) hc
  refine (creates_append u v).mpr ⟨creates_of_create (k := .job) hc, creates_of_quiet ?_⟩
  split at hrest
  · exact quiet_of_settle hrest
  · obtain ⟨rfl, _⟩ := (Action.yields_throw ..).mp hrest
    exact Trace.quiet_nil

theorem creates_of_retry {job : Job} {delays : List Nat} {r : Except UpgradeError Unit}
    (h : (retry (attempt ctx job) delays).Yields t r) : Creates .job job t := by
  induction delays generalizing t with
  | nil => exact creates_of_attempt h
  | cons delay rest ih =>
    obtain ⟨_, ha, _⟩ | ⟨e, u, v, rfl, ha, hrest⟩ := (Action.yields_recover ..).mp h
    · exact creates_of_attempt ha
    refine (creates_append u v).mpr ⟨creates_of_attempt ha, ?_⟩
    obtain ⟨e, hw, _⟩ | ⟨_, u, v, rfl, hw, hmore⟩ := (Action.yields_bind ..).mp hrest
    · obtain ⟨_, rfl, _⟩ := (Action.yields_wait ..).mp hw
      exact creates_of_quiet (Trace.quiet_single rfl)
    · obtain ⟨_, rfl, _⟩ := (Action.yields_wait ..).mp hw
      exact (creates_append _ _).mpr ⟨creates_of_quiet (Trace.quiet_single rfl), ih hmore⟩

/-- however often it is tried, nothing but the job is created -/
theorem creates_of_install {r : Except UpgradeError Unit} (h : (install ctx).Yields t r) :
    Creates .job (job ctx) t :=
  creates_of_retry h

end

end ReleaseUpgrade.ManifestPhase
