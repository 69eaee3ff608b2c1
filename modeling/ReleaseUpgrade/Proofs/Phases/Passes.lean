import ReleaseUpgrade.Proofs.Phases.Attempt

/-!
# What a run of passes keeps

A pass that starts no attempt sets the condition of what has its turn and no other, and what has its
turn is not settled.  So a settled condition stays as it is until the next start, whatever the
cluster answers, whichever passes fail and whichever statuses are lost.

* `Passes`              passes one after the other;
* `Round.Frames`        what a pass keeps that starts no attempt, `Round.frames`;
* `Condition.Settled`   the conditions that such a pass leaves alone, `not_settled_of_target`;
* `Passes.frame`        so they are kept over every run of such passes.
-/

namespace ReleaseUpgrade

/-- the condition is true, or it is finished and not that of a phase of the nodes -/
def Condition.Settled (c : Condition) : Prop :=
  c.status = .isTrue ∨
    c.isFinished = true ∧ c.type ≠ Status.osUpgraded ∧ c.type ≠ Status.kubernetesUpgraded

theorem Condition.isFinished_of_isTrue {c : Condition} (h : c.status = .isTrue) :
    c.isFinished = true := by
  rw [isFinished, h]
  rfl

namespace Upgrade

/-- what has its turn has no settled condition -/
theorem not_settled_of_target {before : Status} {workloads : List ReleaseChart} {type : String}
    {c : Condition} (htype : (target before workloads).type? = some type)
    (hc : before.condition? type = some c) : ¬c.Settled := by
  obtain ⟨_, hctype⟩ := Status.mem_of_condition? hc
  -- a phase of the nodes has its turn while its condition is not true
  have nodes (hopen : before.isSucceeded type = false)
      (hnode : type = Status.osUpgraded ∨ type = Status.kubernetesUpgraded) : ¬c.Settled := by
    have hne : ¬c.status = .isTrue := by
      rw [Status.isSucceeded, hc, Option.any_some] at hopen
      exact of_decide_eq_false hopen
    rintro (htrue | ⟨_, hos, hk⟩)
    · exact hne htrue
    · rw [hctype] at hos hk
      exact hnode.elim hos hk
  obtain ⟨hos, ht⟩ | ⟨_, ⟨hk, ht⟩ | ⟨_, ⟨w, hw, ht⟩ | ⟨_, ht⟩⟩⟩ := target_cases before workloads
  · rw [ht] at htype
    cases htype
    exact nodes hos (.inl rfl)
  · rw [ht] at htype
    cases htype
    exact nodes hk (.inr rfl)
  · -- a workload has its turn while its condition is not finished
    rw [ht] at htype
    cases htype
    have hopen : c.isFinished = false := by
      have hw := (turn_of_openWorkload hw).1
      rwa [Status.isFinished, hc, Option.any_some] at hw
    rintro (htrue | ⟨hfinished, _⟩)
    · rw [Condition.isFinished_of_isTrue htrue] at hopen
      cases hopen
    · rw [hfinished] at hopen
      cases hopen
  · rw [ht] at htype
    cases htype

/-- passes one after the other; `Next` relates a pass to the status that the next one starts from -/
inductive Passes (Next : Round → Status → Prop) : Status → List Round → Status → Prop
  | nil {s} : Passes Next s [] s
  | cons {next rounds last} (round : Round) : Next round next → Passes Next next rounds last →
      Passes Next round.before (round :: rounds) last

namespace Round

/-- the status that a pass leaves is written or lost -/
def MayLeave (round : Round) (next : Status) : Prop := next = round.after ∨ next = round.before

/-- the pass starts an attempt: the manifest is there, and the plan has been changed since the last
start -/
def Starts (round : Round) : Prop :=
  (∃ m, ManifestPhase.Resolved round.ctx round.trace (some m)) ∧
    round.before.observedGeneration ≠ round.ctx.plan.generation

/-- what a pass keeps that starts no attempt: all conditions but that of what has its turn, and what
the status is about -/
structure Frames (round : Round) : Prop where
  namingSuffix : round.after.namingSuffix = round.before.namingSuffix
  observedGeneration : round.after.observedGeneration = round.before.observedGeneration
  conditions : round.after.conditions = round.before.conditions ∨
    ∃ m type, ManifestPhase.Resolved round.ctx round.trace (some m) ∧
      (target round.before m.spec.components.workloads).type? = some type ∧
      Status.OneSet type round.before.conditions round.after.conditions

/-- a pass that starts no attempt keeps the status, or works on a target -/
theorem keeps_or_worksOn {round : Round} (h : ¬round.Starts) :
    round.after = round.before ∨ ∃ turn, round.WorksOn turn := by
  obtain hkept | ⟨m, hresolved, hne, _⟩ | hworks := round.effect
  · exact .inl hkept
  · exact absurd ⟨⟨m, hresolved⟩, hne⟩ h
  · exact .inr hworks

theorem WorksOn.resolved {round : Round} {turn : Target} (h : round.WorksOn turn) :
    ∃ m, ManifestPhase.Resolved round.ctx round.trace (some m) ∧
      turn = target round.before m.spec.components.workloads := by
  obtain ⟨ctx, suffix, before, trace, outcome, after, ran⟩ := round
  cases h with
  | intro m _ hresolved _ _ => exact ⟨m, hresolved.append _, rfl⟩

theorem frames (round : Round) (h : ¬round.Starts) : round.Frames := by
  obtain hkept | ⟨turn, hworks⟩ := keeps_or_worksOn h
  · exact ⟨congrArg Status.namingSuffix hkept, congrArg Status.observedGeneration hkept,
      .inl (congrArg Status.conditions hkept)⟩
  · have hchanges : turn.Changes round.ctx round.before round.after := hworks.changes
    obtain ⟨m, hresolved, rfl⟩ := hworks.resolved
    refine ⟨hchanges.namingSuffix_eq, hchanges.observedGeneration_eq, ?_⟩
    obtain hkept | ⟨type, htype, hset⟩ := hchanges.oneSet
    · exact .inl hkept
    · exact .inr ⟨m, type, hresolved, htype, hset⟩

/-- a settled condition keeps its place and all that it tells -/
theorem Frames.getElem? {round : Round} (h : round.Frames) {i : Nat} {c : Condition}
    (hc : round.before.conditions[i]? = some c) (hsettled : c.Settled) :
    round.after.conditions[i]? = some c := by
  obtain hkept | ⟨m, type, _, htype, hset⟩ := h.conditions
  · rw [hkept]
    exact hc
  · obtain hsame | hfirst := hset.getElem? hc
    · exact hsame
    · exact absurd hsettled (not_settled_of_target htype hfirst)

theorem keeps_condition? {round : Round} (h : ¬round.Starts) {type : String} {c : Condition}
    (hc : round.before.condition? type = some c) (hsettled : c.Settled) :
    round.after.condition? type = some c := by
  obtain hkept | ⟨turn, hworks⟩ := keeps_or_worksOn h
  · rw [hkept]
    exact hc
  · have hchanges : turn.Changes round.ctx round.before round.after := hworks.changes
    obtain ⟨m, _, rfl⟩ := hworks.resolved
    rw [hchanges.condition?_eq fun htype => not_settled_of_target htype hc hsettled]
    exact hc

end Round

namespace Passes

theorem keeps_settled {start last : Status} {rounds : List Round}
    (h : Passes Round.MayLeave start rounds last) (hstarts : ∀ round ∈ rounds, ¬round.Starts)
    {i : Nat} {c : Condition} (hc : start.conditions[i]? = some c) (hsettled : c.Settled) :
    last.conditions[i]? = some c := by
  induction h with
  | nil => exact hc
  | cons round hnext _ ih =>
    obtain ⟨hround, hrounds⟩ := List.forall_mem_cons.mp hstarts
    refine ih hrounds ?_
    obtain rfl | rfl := hnext
    · exact (round.frames hround).getElem? hc hsettled
    · exact hc

/-- a pass that starts no attempt, whatever the cluster answers and whether it fails or not, keeps
what the status is about and sets at most the condition of what has its turn, never to be pending;
over every run of such passes a condition that is true, and one that is finished and not that of a
phase of the nodes, stays in its place as it is -/
theorem frame :
    (∀ round : Round, ¬round.Starts → round.Frames) ∧
      ∀ (start last : Status) (rounds : List Round), Passes Round.MayLeave start rounds last →
        (∀ round ∈ rounds, ¬round.Starts) →
        ∀ (i : Nat) (c : Condition), start.conditions[i]? = some c → c.Settled →
          last.conditions[i]? = some c :=
  ⟨Round.frames, fun _ _ _ hpasses hstarts _ _ hc hsettled =>
    hpasses.keeps_settled hstarts hc hsettled⟩

end Passes

end Upgrade

namespace OneNode

theorem not_starts {round : Upgrade.Round} (hobs : round.before.observedGeneration = 1)
    (hgeneration : round.ctx.plan.generation = 1) : ¬round.Starts :=
  fun h => h.2 (hobs.trans hgeneration.symm)

/-- the passes after the operating system is done; the first one is lost and done again -/
theorem passes : Upgrade.Passes Upgrade.Round.MayLeave systemDone
    [distributionRound, distributionRound, metalRound, completeRound] reached :=
  .cons distributionRound (.inr rfl) <| .cons distributionRound (.inl rfl) <|
    .cons metalRound (.inl rfl) <| .cons completeRound (.inl rfl) .nil

end OneNode

theorem Upgrade.Passes.frame_oneNode :
    OneNode.metalRound.Frames ∧
      OneNode.reached.conditions[0]? = OneNode.systemDone.conditions[0]? := by
  obtain ⟨hframes, hsettled⟩ := Upgrade.Passes.frame
  refine ⟨hframes _ (OneNode.not_starts rfl rfl), ?_⟩
  refine hsettled _ _ _ OneNode.passes (fun round hmem => ?_) 0 _ rfl (.inl rfl)
  have hobs : ∀ round ∈ [OneNode.distributionRound, OneNode.distributionRound,
      OneNode.metalRound, OneNode.completeRound],
      round.before.observedGeneration = 1 ∧ round.ctx.plan.generation = 1 :=
    List.forall_mem_cons.mpr ⟨⟨rfl, rfl⟩, List.forall_mem_cons.mpr ⟨⟨rfl, rfl⟩,
      List.forall_mem_cons.mpr ⟨⟨rfl, rfl⟩, List.forall_mem_singleton.mpr ⟨rfl, rfl⟩⟩⟩⟩
  exact OneNode.not_starts (hobs round hmem).1 (hobs round hmem).2

end ReleaseUpgrade
