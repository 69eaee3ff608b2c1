import ReleaseUpgrade.Phases.Start
import ReleaseUpgrade.Proofs.Cluster.Trace
import ReleaseUpgrade.Proofs.Upgrade.Conditions

/-!
# The status at the start of an attempt

A start makes the condition of every component of the release pending and leaves the others as they
were.  A suffix that is in use already starts nothing.

* `Start.step_yields_iff`    a start makes no call, and the next pass comes at once;
* `Start.types`              the types of the conditions of a release;
* `Start.isFinished_status`  after a start none of them is finished;
* `Start.recorded_status`, `Start.mem_or_status`   they are all there, and the others are old ones.
-/

namespace ReleaseUpgrade.Start

/-- a start is a change of the status alone -/
theorem step_yields_iff {ctx : Context} {generation : Int} {release : ReleaseSpec}
    {suffix : String} {before after : Status} {t : Trace} {r : Except UpgradeError Requeue} :
    (step ctx generation release suffix).Yields before t r after ↔
      t = [] ∧ r = .ok Requeue.immediately ∧
        after = status ctx.now generation release suffix before := by
  rw [step, Step.yields_bind_modify, Step.yields_pure]

/-- the types of the conditions of a release -/
def types (release : ReleaseSpec) : List String := (components release).map (·.1)

theorem mem_types_iff {release : ReleaseSpec} {type : String} :
    type ∈ types release ↔ type = Status.osUpgraded ∨ type = Status.kubernetesUpgraded ∨
      ∃ w ∈ release.components.workloads, type = Status.workloadUpgraded w.prettyName := by
  simp only [types, components, List.map_append, List.map_cons, List.map_nil, List.map_map,
    List.mem_append, List.mem_cons, List.not_mem_nil, or_false, List.mem_map, Function.comp_apply,
    or_assoc, eq_comm]

section
variable (now : Instant) {s : Status} {type : String}

theorem foldl_preserves {P : Status → Prop} (cs : List (String × String)) (hs : P s)
    (hstep : ∀ s c, P s → P (setPending now s c)) : P (cs.foldl (setPending now) s) := by
  induction cs generalizing s with
  | nil => exact hs
  | cons c rest ih => exact ih (hstep s c hs)

theorem isFinished_setPending {c : String × String}
    (h : c.1 = type ∨ s.isFinished type = false) : (setPending now s c).isFinished type = false := by
  by_cases hc : c.1 = type
  · subst hc
    exact Status.isFinished_setCondition now c.1 .pending _ s
  · have hne : type ≠ c.1 := fun he => hc he.symm
    have hkept := Status.condition?_setCondition_of_ne now c.1 .pending
      (c.2 ++ " upgrade is not yet started") s hne
    rw [setPending, Status.isFinished, hkept]
    exact h.resolve_left hc

theorem isFinished_foldl {cs : List (String × String)} (h : type ∈ cs.map (·.1)) :
    (cs.foldl (setPending now) s).isFinished type = false := by
  induction cs generalizing s with
  | nil => cases h
  | cons c rest ih =>
    by_cases hrest : type ∈ rest.map (·.1)
    · exact ih hrest
    · have hc : c.1 = type := by
        obtain hc | hmem := List.mem_cons.mp h
        · exact hc.symm
        · exact absurd hmem hrest
      refine foldl_preserves now (P := fun s => s.isFinished type = false) rest
        (isFinished_setPending now (.inl hc)) fun s d hs => isFinished_setPending now (.inr hs)

theorem mem_types_foldl (cs : List (String × String)) :
    type ∈ (cs.foldl (setPending now) s).types ↔ type ∈ s.types ∨ type ∈ cs.map (·.1) := by
  induction cs generalizing s with
  | nil => simp
  | cons c rest ih =>
    rw [List.foldl_cons, ih, setPending, Status.mem_types_setCondition, List.map_cons,
      List.mem_cons, or_assoc]

theorem mem_or_foldl {cs : List (String × String)} {c : Condition}
    (h : c ∈ (cs.foldl (setPending now) s).conditions) :
    c ∈ s.conditions ∨ c.type ∈ cs.map (·.1) := by
  induction cs generalizing s with
  | nil => exact .inl h
  | cons d rest ih =>
    obtain h | h := ih h
    · obtain h | ⟨htype, _⟩ := Status.mem_setIn _ _ _ _ h
      · exact .inl h
      · exact .inr (htype ▸ List.mem_cons_self)
    · exact .inr (List.mem_cons_of_mem d.1 h)

variable (generation : Int) (release : ReleaseSpec) {suffix : String} (before : Status)

theorem status_of_used (h : before.namingSuffix = some suffix) :
    status now generation release suffix before = before :=
  if_pos h

theorem status_of_unused (h : before.namingSuffix ≠ some suffix) :
    status now generation release suffix before =
      (components release).foldl (setPending now)
        { before with namingSuffix := some suffix, observedGeneration := generation } :=
  if_neg h

theorem lastSuccessfulRelease_status :
    (status now generation release suffix before).lastSuccessfulRelease =
      before.lastSuccessfulRelease := by
  unfold status
  split
  · rfl
  · refine foldl_preserves now
      (P := fun s => s.lastSuccessfulRelease = before.lastSuccessfulRelease) _ rfl fun _ _ hs => ?_
    exact hs

theorem sound_status (h : before.Sound) : (status now generation release suffix before).Sound := by
  unfold status
  split
  · exact h
  · refine foldl_preserves now _ ⟨h.nodup, h.paired⟩ fun s c hs => ?_
    exact hs.setCondition now c.1 .pending _

variable (h : before.namingSuffix ≠ some suffix)
include h

theorem observedGeneration_status :
    (status now generation release suffix before).observedGeneration = generation := by
  rw [status_of_unused now generation release before h]
  exact foldl_preserves now (P := fun s => s.observedGeneration = generation) _ rfl fun _ _ hs => hs

theorem namingSuffix_status :
    (status now generation release suffix before).namingSuffix = some suffix := by
  rw [status_of_unused now generation release before h]
  exact foldl_preserves now (P := fun s => s.namingSuffix = some suffix) _ rfl fun _ _ hs => hs

theorem isFinished_status (htype : type ∈ types release) :
    (status now generation release suffix before).isFinished type = false := by
  rw [status_of_unused now generation release before h]
  exact isFinished_foldl now htype

theorem recorded_status (htype : type ∈ types release) :
    type ∈ (status now generation release suffix before).types := by
  rw [status_of_unused now generation release before h]
  exact (mem_types_foldl now _).mpr (.inr htype)

theorem mem_or_status {c : Condition}
    (hc : c ∈ (status now generation release suffix before).conditions) :
    c ∈ before.conditions ∨ c.type ∈ types release := by
  rw [status_of_unused now generation release before h] at hc
  obtain hold | htype := mem_or_foldl now hc
  · exact .inl hold
  · exact .inr htype

end

end ReleaseUpgrade.Start
