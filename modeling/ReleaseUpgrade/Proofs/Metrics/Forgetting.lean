import ReleaseUpgrade.Metrics.Basic

/-!
# What is left of a plan that goes

`Metrics.forget` takes away the values of a plan under the labels that have been noted for it.  So
nothing is left exactly because every operation notes a label before, or together with, the first
value under it.

* `Metrics.Recorded`      the metrics that operations on any plans lead to, in any order;
* `Metrics.Noted`         every value of a plan stands under labels that are noted for it;
* `Metrics.about`         the part of the metrics that is about one plan;
* `Metrics.forget_eq`     forgetting drops just that part;
* `Recorded.forgets_wholly`  so nothing of the plan is left, and the other plans keep all they have.
-/

namespace ReleaseUpgrade

namespace Series
variable {ν : Type} {p : PlanLabels} {labels : PlanLabels → List String}
  {s : Series (PlanLabels × String) ν}

theorem mem_update {κ : Type} [DecidableEq κ] {l : κ} {start : ν} {f : ν → ν} {s : Series κ ν}
    {e : κ × ν} (h : e ∈ update l start f s) : e.1 = l ∨ e ∈ s := by
  induction s with
  | nil =>
    rw [update, List.mem_singleton] at h
    exact .inl (congrArg Prod.fst h)
  | cons e' s ih =>
    obtain ⟨l', v⟩ := e'
    unfold update at h
    split at h
    · rename_i hl
      obtain rfl | h := List.mem_cons.mp h
      · exact .inl hl
      · exact .inr (List.mem_cons_of_mem _ h)
    · obtain rfl | h := List.mem_cons.mp h
      · exact .inr List.mem_cons_self
      · exact (ih h).imp_right (List.mem_cons_of_mem _)

/-- each value of a plan stands under one of its labels -/
def Within (labels : PlanLabels → List String) (s : Series (PlanLabels × String) ν) : Prop :=
  ∀ e ∈ s, e.1.2 ∈ labels e.1.1

theorem Within.nil : Within labels ([] : Series (PlanLabels × String) ν) :=
  fun _ h => absurd h List.not_mem_nil

theorem Within.mono {labels' : PlanLabels → List String} (h : Within labels s)
    (hle : ∀ q, labels q ⊆ labels' q) : Within labels' s :=
  fun e he => hle _ (h e he)

theorem Within.update (h : Within labels s) {x : String} (hx : x ∈ labels p) (start : ν)
    (f : ν → ν) : Within labels (s.update (p, x) start f) := by
  intro e he
  obtain hkey | he := mem_update he
  · rw [hkey]
    exact hx
  · exact h e he

/-- without the values under its labels, there is nothing left of a plan -/
theorem Within.removeAll_eq (h : Within labels s) (p : PlanLabels) :
    s.removeAll ((labels p).map (p, ·)) = s.filter fun e => e.1.1 ≠ p := by
  refine List.filter_congr fun e he => decide_eq_decide.mpr (not_congr ?_)
  constructor
  · intro hmem
    obtain ⟨x, _, hkey⟩ := List.mem_map.mp hmem
    rw [← hkey]
  · intro hp
    exact List.mem_map.mpr ⟨e.1.2, hp ▸ h e he, Prod.ext hp.symm rfl⟩

/-- the labels of one plan do not matter for the values of the others -/
theorem Within.filter {labels' : PlanLabels → List String} (h : Within labels s)
    (hsame : ∀ q, q ≠ p → labels' q = labels q) :
    Within labels' (s.filter fun e => e.1.1 ≠ p) := by
  intro e he
  obtain ⟨he, hp⟩ := List.mem_filter.mp he
  rw [hsame _ (of_decide_eq_true hp)]
  exact h e he

end Series

namespace Metrics

/-- the metrics that operations on any plans lead to -/
inductive Recorded : Metrics → Prop
  | empty : Recorded {}
  | reconcile {m} (p outcome elapsed) : Recorded m → outcome ∈ outcomes →
      Recorded (m.observeReconcile p outcome elapsed)
  | phase {m} (now p previous current) : Recorded m →
      Recorded (m.recordPhase now p previous current)
  | completed {m} (p release) : Recorded m → Recorded (m.recordCompleted p release)
  | failures {m} (p count) : Recorded m → Recorded (m.recordFailedConditions p count)
  | forgotten {m} (p) : Recorded m → Recorded (m.forget p)

/-- the label values that are noted for a plan -/
def valuesOf (m : Metrics) (p : PlanLabels) : LabelValues := (m.labelValues.get? p).getD {}

/-- every value of a plan stands under labels that are noted for it -/
structure Noted (m : Metrics) : Prop where
  reconciles : m.reconciles.Within fun _ => outcomes
  phaseInfo : m.phaseInfo.Within fun p => (m.valuesOf p).phases
  transitions : m.transitions.Within fun p => (m.valuesOf p).phases
  phaseDurations : m.phaseDurations.Within fun p => (m.valuesOf p).phases
  completed : m.completed.Within fun p => (m.valuesOf p).releases

/-- the part of the metrics that is about a plan -/
def about (p : PlanLabels) (m : Metrics) : Metrics where
  reconciles := m.reconciles.filter fun e => e.1.1 = p
  reconcileDurations := m.reconcileDurations.filter fun e => e.1 = p
  phaseInfo := m.phaseInfo.filter fun e => e.1.1 = p
  completed := m.completed.filter fun e => e.1.1 = p
  failedConditions := m.failedConditions.filter fun e => e.1 = p
  transitions := m.transitions.filter fun e => e.1.1 = p
  phaseDurations := m.phaseDurations.filter fun e => e.1.1 = p
  starts := m.starts.filter fun e => e.1 = p
  labelValues := m.labelValues.filter fun e => e.1 = p

/-- the metrics without what they say about a plan -/
def without (p : PlanLabels) (m : Metrics) : Metrics where
  reconciles := m.reconciles.filter fun e => e.1.1 ≠ p
  reconcileDurations := m.reconcileDurations.filter fun e => e.1 ≠ p
  phaseInfo := m.phaseInfo.filter fun e => e.1.1 ≠ p
  completed := m.completed.filter fun e => e.1.1 ≠ p
  failedConditions := m.failedConditions.filter fun e => e.1 ≠ p
  transitions := m.transitions.filter fun e => e.1.1 ≠ p
  phaseDurations := m.phaseDurations.filter fun e => e.1.1 ≠ p
  starts := m.starts.filter fun e => e.1 ≠ p
  labelValues := m.labelValues.filter fun e => e.1 ≠ p

end Metrics

namespace LabelValues

/-- the other label values have all of these -/
structure Within (v v' : LabelValues) : Prop where
  phases : v.phases ⊆ v'.phases
  releases : v.releases ⊆ v'.releases

theorem Within.refl (v : LabelValues) : v.Within v := ⟨List.Subset.refl _, List.Subset.refl _⟩

theorem Within.trans {u v w : LabelValues} (huv : u.Within v) (hvw : v.Within w) : u.Within w :=
  ⟨List.Subset.trans huv.phases hvw.phases, List.Subset.trans huv.releases hvw.releases⟩

end LabelValues

namespace Metrics

theorem within_notePhase (phase : String) (v : LabelValues) : v.Within (notePhase phase v) := by
  unfold notePhase
  split
  · exact .refl v
  · exact ⟨List.subset_append_left _ _, List.Subset.refl _⟩

theorem mem_notePhase (phase : String) (v : LabelValues) : phase ∈ (notePhase phase v).phases := by
  unfold notePhase
  split
  · assumption
  · exact List.mem_append_right _ (List.mem_singleton_self phase)

theorem within_noteRelease (release : String) (v : LabelValues) :
    v.Within (noteRelease release v) := by
  unfold noteRelease
  split
  · exact .refl v
  · exact ⟨List.Subset.refl _, List.subset_append_left _ _⟩

theorem mem_noteRelease (release : String) (v : LabelValues) :
    release ∈ (noteRelease release v).releases := by
  unfold noteRelease
  split
  · assumption
  · exact List.mem_append_right _ (List.mem_singleton_self release)

section
variable {m : Metrics} {p q : PlanLabels}

/-- the label values of a plan changed by `f` -/
def noting (p : PlanLabels) (f : LabelValues → LabelValues) (m : Metrics) : Metrics :=
  { m with labelValues := m.labelValues.update p {} f }

theorem valuesOf_noting (p : PlanLabels) (f : LabelValues → LabelValues) :
    (m.noting p f).valuesOf p = f (m.valuesOf p) := by
  rw [valuesOf, noting, Series.get?_update_self]
  rfl

theorem mem_phases_noting {f : LabelValues → LabelValues} {phase : String}
    (hf : ∀ v, phase ∈ (f v).phases) : phase ∈ ((m.noting p f).valuesOf p).phases := by
  rw [valuesOf_noting]
  exact hf _

theorem within_noting {f : LabelValues → LabelValues} (hf : ∀ v : LabelValues, v.Within (f v))
    (q : PlanLabels) : (m.valuesOf q).Within ((m.noting p f).valuesOf q) := by
  by_cases hq : p = q
  · subst hq
    rw [valuesOf_noting]
    exact hf _
  · rw [valuesOf, valuesOf, noting, Series.get?_update_of_ne hq]
    exact .refl _

namespace Noted

theorem noting {f : LabelValues → LabelValues} (h : m.Noted)
    (hf : ∀ v : LabelValues, v.Within (f v)) : (m.noting p f).Noted where
  reconciles := h.reconciles
  phaseInfo := h.phaseInfo.mono fun q => (within_noting hf q).phases
  transitions := h.transitions.mono fun q => (within_noting hf q).phases
  phaseDurations := h.phaseDurations.mono fun q => (within_noting hf q).phases
  completed := h.completed.mono fun q => (within_noting hf q).releases

theorem observeReconcile (h : m.Noted) {outcome : String} (hknown : outcome ∈ outcomes)
    (elapsed : Nat) : (m.observeReconcile p outcome elapsed).Noted :=
  ⟨h.reconciles.update (p := p) hknown 0 _, h.phaseInfo, h.transitions, h.phaseDurations,
    h.completed⟩

theorem setPhaseInfo (h : m.Noted) {phase : String} (hphase : phase ∈ (m.valuesOf p).phases)
    (value : Int) : (m.setPhaseInfo p phase value).Noted :=
  ⟨h.reconciles, h.phaseInfo.update hphase 0 _, h.transitions, h.phaseDurations, h.completed⟩

theorem observePhaseDuration (h : m.Noted) {phase : String}
    (hphase : phase ∈ (m.valuesOf p).phases) (now : Nat) :
    (m.observePhaseDuration now p phase).Noted ∧
      (m.observePhaseDuration now p phase).labelValues = m.labelValues := by
  unfold Metrics.observePhaseDuration
  split
  · exact ⟨h, rfl⟩
  · exact ⟨⟨h.reconciles, h.phaseInfo, h.transitions, h.phaseDurations.update hphase _ _,
      h.completed⟩, rfl⟩

theorem transition (h : m.Noted) {previous current : String}
    (hprevious : previous ∈ (m.valuesOf p).phases) (hcurrent : current ∈ (m.valuesOf p).phases)
    (now : Nat) : (m.transition now p previous current).Noted := by
  obtain ⟨hobserved, hsame⟩ := h.observePhaseDuration hprevious now
  have hvalues : (m.observePhaseDuration now p previous).valuesOf p = m.valuesOf p := by
    rw [valuesOf, hsame, valuesOf]
  rw [← hvalues] at hprevious hcurrent
  have hset := (hobserved.setPhaseInfo hprevious 0).setPhaseInfo (p := p) hcurrent 1
  exact ⟨hset.reconciles, hset.phaseInfo, hset.transitions.update (p := p) hcurrent 0 _,
    hset.phaseDurations, hset.completed⟩

theorem moved (h : m.Noted) {previous current : String}
    (hprevious : previous ∈ (m.valuesOf p).phases) (hcurrent : current ∈ (m.valuesOf p).phases)
    (now : Nat) : Noted (if previous = current then m.setPhaseInfo p current 1
      else m.transition now p previous current) := by
  split
  · exact h.setPhaseInfo hcurrent 1
  · exact h.transition hprevious hcurrent now

/-- both phases are noted before anything is counted under them -/
theorem recordPhase (h : m.Noted) (now : Nat) (previous current : String) :
    (m.recordPhase now p previous current).Noted := by
  have hwithin (v : LabelValues) : v.Within (notePhase current (notePhase previous v)) :=
    (within_notePhase previous v).trans (within_notePhase current _)
  have hmoved := (h.noting (p := p) hwithin).moved
    (mem_phases_noting fun _ => (within_notePhase current _).phases (mem_notePhase previous _))
    (mem_phases_noting fun _ => mem_notePhase current _) now
  exact ⟨hmoved.reconciles, hmoved.phaseInfo, hmoved.transitions, hmoved.phaseDurations,
    hmoved.completed⟩

theorem recordCompleted (h : m.Noted) (release : String) : (m.recordCompleted p release).Noted := by
  have hnoted := h.noting (p := p) (within_noteRelease release)
  have hrelease : release ∈ ((m.noting p (noteRelease release)).valuesOf p).releases := by
    rw [valuesOf_noting]
    exact mem_noteRelease release _
  exact ⟨hnoted.reconciles, hnoted.phaseInfo, hnoted.transitions, hnoted.phaseDurations,
    hnoted.completed.update hrelease 0 _⟩

theorem recordFailedConditions (h : m.Noted) (count : Nat) :
    (m.recordFailedConditions p count).Noted := by
  unfold Metrics.recordFailedConditions
  split
  · exact h
  · exact ⟨h.reconciles, h.phaseInfo, h.transitions, h.phaseDurations, h.completed⟩

theorem without (h : m.Noted) (p : PlanLabels) : (m.without p).Noted := by
  have hsame (q : PlanLabels) (hq : q ≠ p) : (m.without p).valuesOf q = m.valuesOf q := by
    rw [valuesOf, valuesOf]
    exact congrArg (Option.getD · {}) (Series.get?_remove_of_ne hq.symm m.labelValues)
  exact ⟨h.reconciles.filter fun _ _ => rfl,
    h.phaseInfo.filter fun q hq => congrArg LabelValues.phases (hsame q hq),
    h.transitions.filter fun q hq => congrArg LabelValues.phases (hsame q hq),
    h.phaseDurations.filter fun q hq => congrArg LabelValues.phases (hsame q hq),
    h.completed.filter fun q hq => congrArg LabelValues.releases (hsame q hq)⟩

end Noted

/-- forgetting a plan drops what the metrics say about it, and nothing else -/
theorem forget_eq (h : m.Noted) (p : PlanLabels) : m.forget p = m.without p := by
  unfold forget without
  dsimp only
  congr 1
  · exact h.reconciles.removeAll_eq p
  · exact h.phaseInfo.removeAll_eq p
  · exact h.completed.removeAll_eq p
  · exact h.transitions.removeAll_eq p
  · exact h.phaseDurations.removeAll_eq p

theorem about_without_self (m : Metrics) (p : PlanLabels) : (m.without p).about p = {} := by
  have hnone {α : Type} (key : α → PlanLabels) (s : List α) :
      (s.filter fun e => key e ≠ p).filter (fun e => key e = p) = [] := by
    refine List.filter_eq_nil_iff.mpr fun e he hp => ?_
    exact of_decide_eq_true (List.mem_filter.mp he).2 (of_decide_eq_true hp)
  unfold about without
  congr 1 <;> exact hnone _ _

theorem about_without_of_ne (m : Metrics) (hq : q ≠ p) : (m.without p).about q = m.about q := by
  have hkept {α : Type} (key : α → PlanLabels) (s : List α) :
      (s.filter fun e => key e ≠ p).filter (fun e => key e = q) = s.filter fun e => key e = q := by
    rw [List.filter_filter]
    refine List.filter_congr fun e _ => ?_
    by_cases hkey : key e = q
    · simp [hkey, hq]
    · simp [hkey]
  unfold about without
  congr 1 <;> exact hkept _ _

theorem Recorded.noted (h : m.Recorded) : m.Noted := by
  induction h with
  | empty => exact ⟨.nil, .nil, .nil, .nil, .nil⟩
  | reconcile p outcome elapsed _ hknown ih => exact ih.observeReconcile hknown elapsed
  | phase now p previous current _ ih => exact ih.recordPhase now previous current
  | completed p release _ ih => exact ih.recordCompleted release
  | failures p count _ ih => exact ih.recordFailedConditions count
  | forgotten p _ ih =>
    rw [forget_eq ih]
    exact ih.without p

theorem outcome_mem_outcomes (r : Reconciliation) : r.outcome ∈ outcomes := by
  unfold Reconciliation.outcome
  split <;> decide

theorem Recorded.recordProgress (h : m.Recorded) (now : Nat) (p : PlanLabels)
    (before status : Status) : (m.recordProgress now p before status).Recorded := by
  have hfailed := (h.phase now p before.activePhase.text status.activePhase.text).failures p
    (before.newlyFailed status)
  unfold Metrics.recordProgress
  dsimp only
  split
  · split
    · exact hfailed
    · exact hfailed.completed p _
  · exact hfailed

/-- what a pass does to the metrics is made of these operations -/
theorem Recorded.record (h : m.Recorded) (now elapsed : Nat) (p : PlanLabels) (r : Reconciliation) :
    (m.record now elapsed p r).Recorded := by
  have hlast {m : Metrics} (h : m.Recorded) : Recorded (if r.released then
      (m.observeReconcile p r.outcome elapsed).forget p
      else m.observeReconcile p r.outcome elapsed) := by
    have hobserved := h.reconcile p r.outcome elapsed (outcome_mem_outcomes r)
    split
    · exact hobserved.forgotten p
    · exact hobserved
  unfold Metrics.record
  cases r.progress with
  | none => exact hlast h
  | some progress => exact hlast (h.recordProgress now p progress.1 progress.2)

end

/-- whatever operations on whichever plans have led to the metrics, earlier deletions and plans that
have come back among them: once a plan is forgotten, no family has a value under its labels and
nothing else is kept about it, and all that is about another plan is as it was.  The passes do
nothing to the metrics but such operations -/
theorem Recorded.forgets_wholly {m : Metrics} (h : m.Recorded) (p : PlanLabels) :
    (m.forget p).about p = {} ∧ (∀ q, q ≠ p → (m.forget p).about q = m.about q) ∧
      ∀ now elapsed q r, (m.record now elapsed q r).Recorded := by
  rw [forget_eq h.noted]
  exact ⟨about_without_self m p, fun _ hq => about_without_of_ne m hq, h.record⟩

/-- a pass that reaches a release -/
def reachingPass : Reconciliation where
  result := .ok none
  progress := some ({}, { lastSuccessfulRelease := some "3.1.0" })

/-- the metrics of two plans that have one name in two namespaces -/
def twoPlans : Metrics :=
  (({} : Metrics).record 5 1 ⟨"upgrade", "east"⟩ reachingPass).record 7 2 ⟨"upgrade", "west"⟩
    reachingPass

theorem Recorded.forgets_wholly_twoPlans :
    twoPlans.completed =
        [((⟨"upgrade", "east"⟩, "3.1.0"), 1), ((⟨"upgrade", "west"⟩, "3.1.0"), 1)] ∧
      (twoPlans.forget ⟨"upgrade", "east"⟩).about ⟨"upgrade", "east"⟩ = {} ∧
      (twoPlans.forget ⟨"upgrade", "east"⟩).about ⟨"upgrade", "west"⟩ =
        twoPlans.about ⟨"upgrade", "west"⟩ := by
  have hrecorded : twoPlans.Recorded := (Recorded.empty.record ..).record ..
  obtain ⟨hgone, hothers, _⟩ := hrecorded.forgets_wholly ⟨"upgrade", "east"⟩
  exact ⟨by decide, hgone, hothers ⟨"upgrade", "west"⟩ (by decide)⟩

end Metrics

end ReleaseUpgrade
