import Mathlib.Data.List.Perm.Subperm
import ReleaseUpgrade.Proofs.Phases.Passes
import ReleaseUpgrade.Proofs.Phases.Requeue

/-!
# Passes that come back at once

The operator looks at a plan again at once if a pass asks for it.  Each such pass of a generation
reaches a milestone that no pass before it had reached and that no later pass takes back: the start,
the operating system, the distribution, or one of the workloads.  So there are at most as many such
passes as milestones, whatever happens to the cluster between them.

* `Target.Done`        there is nothing left to do for a target;
* `Milestone`          the start of the attempt, or a target that is done;
* `Round.Runs`         a pass over the one generation with the one manifest;
* `Runs.progress`      a pass that comes back at once reaches a milestone;
* `Runs.keeps`         a pass takes no milestone back;
* `Passes.immediate_le_milestones`   so the milestones bound the passes that come back at once.
-/

namespace ReleaseUpgrade

namespace Status
variable {s : Status} {type : String}

theorem isSucceeded_iff :
    s.isSucceeded type = true ↔ ∃ c, s.condition? type = some c ∧ c.status = .isTrue := by
  rw [isSucceeded, Option.any_eq_true]
  exact exists_congr fun c => and_congr_right fun _ => decide_eq_true_iff

theorem isFinished_iff :
    s.isFinished type = true ↔ ∃ c, s.condition? type = some c ∧ c.isFinished = true := by
  rw [isFinished, Option.any_eq_true]

end Status

namespace Upgrade

namespace Target

/-- the condition of the target tells that there is nothing left to do for it; there is always
something left to do at the end -/
def Done (s : Status) : Target → Prop
  | .system => s.isSucceeded Status.osUpgraded = true
  | .distribution => s.isSucceeded Status.kubernetesUpgraded = true
  | .workload w => s.isFinished (Status.workloadUpgraded w.prettyName) = true
  | .complete => False

/-- the condition of a workload is not that of a phase of the nodes -/
def Lasts : Target → Prop
  | .workload w => Status.workloadUpgraded w.prettyName ≠ Status.osUpgraded ∧
      Status.workloadUpgraded w.prettyName ≠ Status.kubernetesUpgraded
  | _ => True

section
variable {ctx : Context} {before after : Status} {t : Trace} {workloads : List ReleaseChart}
  {goal : Target}

/-- what has its turn is not done -/
theorem not_done : ¬(target before workloads).Done before := by
  obtain ⟨hos, ht⟩ | ⟨_, ⟨hk, ht⟩ | ⟨_, ⟨w, hw, ht⟩ | ⟨_, ht⟩⟩⟩ := target_cases before workloads
  · rw [ht, Done, hos]
    exact Bool.false_ne_true
  · rw [ht, Done, hk]
    exact Bool.false_ne_true
  · rw [ht, Done, (turn_of_openWorkload hw).1]
    exact Bool.false_ne_true
  · rw [ht]
    exact id

/-- a workload that has its turn has a condition of its own -/
theorem lasts_target : (target before workloads).Lasts := by
  cases ht : target before workloads with
  | workload w =>
    have hkeyed := keyed_of_target ht
    exact ⟨fun he => hkeyed.ne_system (Status.workloadUpgraded_eq_osUpgraded.mp he),
      fun he => hkeyed.ne_distribution (Status.workloadUpgraded_eq_kubernetesUpgraded.mp he)⟩
  | system | distribution | complete => trivial

theorem Done.kept (h : goal.Done before) (hlasts : goal.Lasts)
    (hkeeps : ∀ type c, before.condition? type = some c → c.Settled →
      after.condition? type = some c) : goal.Done after := by
  cases goal with
  | system | distribution =>
    obtain ⟨c, hc, htrue⟩ := Status.isSucceeded_iff.mp h
    exact Status.isSucceeded_iff.mpr ⟨c, hkeeps _ c hc (.inl htrue), htrue⟩
  | workload w =>
    obtain ⟨c, hc, hfinished⟩ := Status.isFinished_iff.mp h
    have hsettled : c.Settled := by
      refine .inr ⟨hfinished, ?_⟩
      rw [(Status.mem_of_condition? hc).2]
      exact hlasts
    exact Status.isFinished_iff.mpr ⟨c, hkeeps _ c hc hsettled, hfinished⟩
  | complete => exact h

/-- a step that asks for the next pass at once has done its target -/
theorem done_of_immediately (hpoll : 0 < ctx.settings.nodePollInterval) {release : ReleaseSpec}
    (h : (goal.step ctx release).Yields before t (.ok Requeue.immediately) after) :
    goal.Done after := by
  cases goal with
  | system => exact SystemPhase.ensures_step hpoll _ _ t _ after h rfl
  | distribution => exact DistributionPhase.ensures_step hpoll _ t _ after h rfl
  | workload w => exact Workload.ensures_step hpoll w t _ after h rfl
  | complete =>
    obtain ⟨he, _⟩ := complete_of_yields h
    cases he

end

end Target

/-- what an attempt reaches on its way -/
inductive Milestone where
  | start
  | done (goal : Target)

namespace Milestone

def Holds (generation : Int) (s : Status) : Milestone → Prop
  | .start => s.observedGeneration = generation
  | .done goal => goal.Done s

def Lasts : Milestone → Prop
  | .start => True
  | .done goal => goal.Lasts

/-- the milestone has been reached by the attempt for the generation -/
structure Reached (generation : Int) (s : Status) (milestone : Milestone) : Prop where
  started : s.observedGeneration = generation
  holds : milestone.Holds generation s

end Milestone

/-- the start, the phases of the nodes and the workloads -/
def milestones (release : ReleaseSpec) : List Milestone :=
  .start :: .done .system :: .done .distribution ::
    release.components.workloads.map fun w => .done (.workload w)

/-- what has its turn is a milestone, unless it is the end -/
theorem mem_milestones {release : ReleaseSpec} {before : Status}
    (h : target before release.components.workloads ≠ .complete) :
    .done (target before release.components.workloads) ∈ milestones release := by
  have hafter {m : Milestone} (hm : m ∈ Milestone.done .system :: .done .distribution ::
      release.components.workloads.map fun w => .done (.workload w)) : m ∈ milestones release :=
    List.mem_cons_of_mem _ hm
  obtain ⟨_, ht⟩ | ⟨_, ⟨_, ht⟩ | ⟨_, ⟨w, hw, ht⟩ | ⟨_, ht⟩⟩⟩ :=
    target_cases before release.components.workloads
  · rw [ht]
    exact hafter List.mem_cons_self
  · rw [ht]
    exact hafter (List.mem_cons_of_mem _ List.mem_cons_self)
  · have hmem : w ∈ release.components.workloads := List.mem_of_find?_eq_some hw
    rw [ht]
    exact hafter (List.mem_cons_of_mem _ (List.mem_cons_of_mem _ (List.mem_map_of_mem hmem)))
  · exact absurd ht h

/-- a pass that asks for the next one at once starts the attempt, or has done what has its turn -/
theorem progress_of_yields {ctx : Context} {suffix : String} {before after : Status} {t : Trace}
    (hpoll : 0 < ctx.settings.nodePollInterval)
    (h : (step ctx suffix).Yields before t (.ok Requeue.immediately) after) :
    ∃ m, ManifestPhase.Resolved ctx t (some m) ∧
      (before.observedGeneration ≠ ctx.plan.generation ∧
          after = Start.status ctx.now ctx.plan.generation m.spec suffix before ∨
        before.observedGeneration = ctx.plan.generation ∧
          (target before m.spec.components.workloads).Changes ctx before after ∧
          (target before m.spec.components.workloads).Done after) := by
  generalize hr : Except.ok Requeue.immediately = r at h
  cases course_of_yields h with
  | unresolved => cases hr
  | @install _ _ r' _ _ _ => cases r' <;> cases hr
  | start m _ hresolved hne => exact ⟨m, hresolved, .inl ⟨hne, rfl⟩⟩
  | advance m _ hresolved hobs hadvance =>
    have hstep := hadvance.target_yields
    rw [← hr] at hstep
    exact ⟨m, hresolved.append _, .inr ⟨hobs, (Target.changes_of_yields hstep).2,
      Target.done_of_immediately hpoll hstep⟩⟩

namespace Round

/-- the pass asks for the next one at once -/
def isImmediate (round : Round) : Bool :=
  match round.outcome with
  | .ok requeue => requeue == Requeue.immediately
  | .error _ => false

theorem isImmediate_iff {round : Round} :
    round.isImmediate = true ↔ round.outcome = .ok Requeue.immediately := by
  unfold isImmediate
  cases round.outcome with
  | error e => exact ⟨nofun, nofun⟩
  | ok requeue => exact beq_iff_eq.trans (Except.ok.injEq ..).symm.to_iff

/-- the status that a pass leaves is written; it may be lost only if the pass does not ask for the
next one at once -/
def Leaves (round : Round) (next : Status) : Prop :=
  next = round.after ∨ next = round.before ∧ round.isImmediate = false

/-- a pass over the generation that finds no manifest but that of the release, waits between two
looks at the nodes, and has drawn a suffix that is not the recorded one -/
structure Runs (release : ReleaseSpec) (generation : Int) (round : Round) : Prop where
  generation : round.ctx.plan.generation = generation
  pinned : ∀ m, ManifestPhase.Resolved round.ctx round.trace (some m) → m.spec = release
  polls : 0 < round.ctx.settings.nodePollInterval
  fresh : round.before.namingSuffix ≠ some round.suffix

namespace Runs
variable {release : ReleaseSpec} {generation : Int} {round : Round} {milestone : Milestone}

/-- a pass that asks for the next one at once reaches a milestone -/
theorem progress (h : round.Runs release generation)
    (himmediate : round.outcome = .ok Requeue.immediately) :
    ∃ milestone ∈ milestones release, milestone.Lasts ∧
      ¬milestone.Holds generation round.before ∧ milestone.Reached generation round.after := by
  have hran := round.ran
  rw [himmediate] at hran
  obtain ⟨m, hresolved, hcase⟩ := progress_of_yields h.polls hran
  obtain rfl := h.pinned m hresolved
  obtain rfl := h.generation
  obtain ⟨hne, hafter⟩ | ⟨hobs, hchanges, hdone⟩ := hcase
  · have hstarted : round.after.observedGeneration = round.ctx.plan.generation := by
      rw [hafter]
      exact Start.observedGeneration_status _ _ _ _ h.fresh
    exact ⟨.start, List.mem_cons_self, trivial, hne, hstarted, hstarted⟩
  · have hturn : target round.before m.spec.components.workloads ≠ .complete := by
      intro ht
      rw [ht] at hdone
      exact hdone
    exact ⟨_, mem_milestones hturn, Target.lasts_target, Target.not_done,
      hchanges.observedGeneration_eq.trans hobs, hdone⟩

theorem keeps (h : round.Runs release generation) (hlasts : milestone.Lasts)
    (hreached : milestone.Reached generation round.before) :
    milestone.Reached generation round.after := by
  have hstarts : ¬round.Starts := fun hs => hs.2 (hreached.started.trans h.generation.symm)
  have hstarted : round.after.observedGeneration = generation :=
    (round.frames hstarts).observedGeneration.trans hreached.started
  refine ⟨hstarted, ?_⟩
  cases milestone with
  | start => exact hstarted
  | done goal =>
    have hdone : goal.Done round.before := hreached.holds
    exact hdone.kept hlasts fun _ _ hc hsettled => keeps_condition? hstarts hc hsettled

theorem keeps_next (h : round.Runs release generation) {next : Status} (hnext : round.Leaves next)
    (hlasts : milestone.Lasts) (hreached : milestone.Reached generation round.before) :
    milestone.Reached generation next := by
  obtain rfl | ⟨rfl, _⟩ := hnext
  · exact h.keeps hlasts hreached
  · exact hreached

end Runs

/-- after a pass that asks for the next one at once, the status has been written -/
theorem Leaves.eq_after {round : Round} {next : Status} (h : round.Leaves next)
    (himmediate : round.isImmediate = true) : next = round.after := by
  obtain h | ⟨_, hnot⟩ := h
  · exact h
  · rw [himmediate] at hnot
    cases hnot

end Round

namespace Passes
variable {Next : Round → Status → Prop} {release : ReleaseSpec} {generation : Int}
  {start last : Status} {rounds : List Round}

theorem of_append {past : List Round} (h : Passes Next start (past ++ rounds) last) :
    ∃ s, Passes Next start past s ∧ Passes Next s rounds last := by
  induction past generalizing start with
  | nil => exact ⟨start, .nil, h⟩
  | cons round past ih =>
    cases h with
    | cons _ hnext hrest =>
      obtain ⟨s, hpast, hrounds⟩ := ih hrest
      exact ⟨s, .cons round hnext hpast, hrounds⟩

section
variable (hruns : ∀ round ∈ rounds, round.Runs release generation)
include hruns

theorem keeps_milestone (h : Passes Round.Leaves start rounds last) {milestone : Milestone}
    (hlasts : milestone.Lasts) (hreached : milestone.Reached generation start) :
    ∀ round ∈ rounds,
      milestone.Reached generation round.before ∧ milestone.Reached generation round.after := by
  induction h with
  | nil => exact List.forall_mem_nil _
  | cons round hnext _ ih =>
    obtain ⟨hround, hrounds⟩ := List.forall_mem_cons.mp hruns
    have hafter := hround.keeps hlasts hreached
    have hkept := hround.keeps_next hnext hlasts hreached
    exact List.forall_mem_cons.mpr ⟨⟨hreached, hafter⟩, ih hrounds hkept⟩

/-- the passes that come back at once reach milestones that differ and that had not been reached
before -/
theorem exists_milestones (h : Passes Round.Leaves start rounds last) :
    ∃ reached : List Milestone, reached.length = rounds.countP Round.isImmediate ∧
      reached.Nodup ∧ ∀ milestone ∈ reached, milestone ∈ milestones release ∧
        milestone.Lasts ∧ ¬milestone.Reached generation start := by
  induction h with
  | nil => exact ⟨[], rfl, List.nodup_nil, List.forall_mem_nil _⟩
  | @cons next rounds last round hnext _ ih =>
    obtain ⟨hround, hrounds⟩ := List.forall_mem_cons.mp hruns
    obtain ⟨later, hlength, hnodup, hlater⟩ := ih hrounds
    -- what is reached later had not been reached before this pass either
    have hbefore : ∀ milestone ∈ later, milestone ∈ milestones release ∧ milestone.Lasts ∧
        ¬milestone.Reached generation round.before := by
      intro milestone hmem
      obtain ⟨hof, hlasts, hnot⟩ := hlater milestone hmem
      exact ⟨hof, hlasts, fun hreached => hnot (hround.keeps_next hnext hlasts hreached)⟩
    by_cases himmediate : round.isImmediate = true
    · obtain ⟨milestone, hof, hlasts, hnot, hreached⟩ :=
        hround.progress (Round.isImmediate_iff.mp himmediate)
      rw [← hnext.eq_after himmediate] at hreached
      have hnew : milestone ∉ later := fun hmem => (hlater milestone hmem).2.2 hreached
      refine ⟨milestone :: later, ?_, List.nodup_cons.mpr ⟨hnew, hnodup⟩, ?_⟩
      · rw [List.countP_cons_of_pos himmediate, List.length_cons, hlength]
      · exact List.forall_mem_cons.mpr ⟨⟨hof, hlasts, fun h => hnot h.holds⟩, hbefore⟩
    · refine ⟨later, ?_, hnodup, hbefore⟩
      rw [List.countP_cons_of_neg himmediate, hlength]

theorem countP_le_milestones (h : Passes Round.Leaves start rounds last) :
    rounds.countP Round.isImmediate ≤ 3 + release.components.workloads.length := by
  obtain ⟨reached, hlength, hnodup, hreached⟩ := h.exists_milestones hruns
  have hsub : reached ⊆ milestones release := fun milestone hmem => (hreached milestone hmem).1
  have hle : reached.length ≤ (milestones release).length := (hnodup.subperm hsub).length_le
  have htotal : (milestones release).length = release.components.workloads.length + 3 := by
    rw [milestones, List.length_cons, List.length_cons, List.length_cons, List.length_map]
  omega

end

/-- over a run of passes at one generation with one manifest, with the statuses written and the
cluster changing as it likes, at most as many passes ask for the next one at once as there are
workloads and three more; each of them reaches a milestone, and it stays reached -/
theorem immediate_le_milestones (h : Passes Round.Leaves start rounds last)
    (hruns : ∀ round ∈ rounds, round.Runs release generation) :
    rounds.countP Round.isImmediate ≤ 3 + release.components.workloads.length ∧
      ∀ past round later, rounds = past ++ round :: later →
        round.outcome = .ok Requeue.immediately →
        ∃ milestone ∈ milestones release, ¬milestone.Holds generation round.before ∧
          milestone.Holds generation round.after ∧ ∀ next ∈ later,
            milestone.Holds generation next.before ∧ milestone.Holds generation next.after := by
  refine ⟨h.countP_le_milestones hruns, ?_⟩
  rintro past round later rfl himmediate
  obtain ⟨_, hround⟩ := List.forall_mem_append.mp hruns
  obtain ⟨hround, hlater⟩ := List.forall_mem_cons.mp hround
  obtain ⟨milestone, hof, hlasts, hnot, hreached⟩ := hround.progress himmediate
  obtain ⟨_, _, hrest⟩ := h.of_append
  cases hrest with
  | cons _ hnext hrest =>
    rw [hnext.eq_after (Round.isImmediate_iff.mpr himmediate)] at hrest
    have hkept := hrest.keeps_milestone hlater hlasts hreached
    exact ⟨milestone, hof, hnot, hreached.holds,
      fun next hmem => ⟨(hkept next hmem).1.holds, (hkept next hmem).2.holds⟩⟩

end Passes

end Upgrade

namespace OneNode

theorem passes_attempt : Upgrade.Passes Upgrade.Round.Leaves {} rounds reached :=
  .cons startRound (.inl rfl) <| .cons systemRound (.inl rfl) <|
    .cons distributionRound (.inl rfl) <| .cons metalRound (.inl rfl) <|
      .cons completeRound (.inl rfl) .nil

theorem runs_attempt : ∀ round ∈ rounds, round.Runs release 1 := by
  have runs {round : Upgrade.Round} (hmem : round ∈ rounds)
      (hgeneration : round.ctx.plan.generation = 1)
      (hpoll : 0 < round.ctx.settings.nodePollInterval)
      (hfresh : round.before.namingSuffix ≠ some round.suffix) : round.Runs release 1 :=
    ⟨hgeneration, attempt.pinned hmem, hpoll, hfresh⟩
  intro round hmem
  have hmem' := hmem
  simp only [rounds, List.mem_cons, List.not_mem_nil, or_false] at hmem'
  obtain rfl | rfl | rfl | rfl | rfl := hmem' <;>
    exact runs hmem rfl (by decide) (by decide)

end OneNode

theorem Upgrade.Passes.immediate_le_milestones_oneNode :
    OneNode.rounds.countP Upgrade.Round.isImmediate = 4 ∧
      OneNode.rounds.countP Upgrade.Round.isImmediate ≤ 5 := by
  refine ⟨rfl, ?_⟩
  exact (Upgrade.Passes.immediate_le_milestones OneNode.passes_attempt OneNode.runs_attempt).1

end ReleaseUpgrade
