import ReleaseUpgrade.Proofs.Naming
import ReleaseUpgrade.Proofs.Phases.Agreement
import ReleaseUpgrade.Proofs.Phases.Passes

/-!
# Attempts have no names in common

An attempt takes its suffix at its start and keeps it.  A start that has drawn the suffix in use
changes nothing, so the names of an attempt are never those of the attempt before it.

* `Start.Renewed`            another suffix has been recorded together with the generation;
* `Round.keeps_or_renewed`   a pass keeps the suffix, or it is such a start;
* `Passes.attempts_apart`    so the attempts of a run have no names in common.
-/

namespace ReleaseUpgrade

/-- the recorded suffix, if there is one, is of random bytes -/
def Status.Drawn (s : Status) : Prop := ∀ old, s.namingSuffix = some old → Naming.Generated old

namespace Start

/-- another suffix has been recorded together with the generation, and no name of the attempt before
is one of the new attempt -/
structure Renewed (generation : Int) (suffix : String) (before after : Status) : Prop where
  unused : before.namingSuffix ≠ some suffix
  recorded : after.namingSuffix = some suffix
  observed : after.observedGeneration = generation
  apart : ∀ old, before.namingSuffix = some old → Naming.Apart old suffix

section
variable {generation : Int} {release : ReleaseSpec} {suffix : String} {before : Status}

/-- a start keeps the whole status if the suffix is in use already, and else records it -/
theorem status_eq_or_renewed (now : Instant) (hsuffix : Naming.Generated suffix)
    (hdrawn : before.Drawn) :
    (before.namingSuffix = some suffix ∧ status now generation release suffix before = before) ∨
      Renewed generation suffix before (status now generation release suffix before) := by
  by_cases hused : before.namingSuffix = some suffix
  · exact .inl ⟨hused, status_of_used now generation release before hused⟩
  · refine .inr ⟨hused, namingSuffix_status now generation release before hused,
      observedGeneration_status now generation release before hused, fun old hold => ?_⟩
    refine Naming.apart_of_ne (hdrawn old hold) hsuffix fun he => hused ?_
    rw [hold, he]

end

end Start

namespace Upgrade

/-- a pass keeps the suffix, or it starts an attempt with another one -/
theorem Round.keeps_or_renewed (round : Round) (hsuffix : Naming.Generated round.suffix)
    (hdrawn : round.before.Drawn) :
    round.after.namingSuffix = round.before.namingSuffix ∨
      round.before.observedGeneration ≠ round.ctx.plan.generation ∧
        Start.Renewed round.ctx.plan.generation round.suffix round.before round.after := by
  obtain hkept | ⟨m, _, hne, hafter⟩ | ⟨turn, hworks⟩ := round.effect
  · exact .inl (congrArg Status.namingSuffix hkept)
  · rw [hafter]
    obtain ⟨_, hsame⟩ | hrenewed := Start.status_eq_or_renewed round.ctx.now hsuffix hdrawn
    · exact .inl (congrArg Status.namingSuffix hsame)
    · exact .inr ⟨hne, hrenewed⟩
  · have hchanges : turn.Changes round.ctx round.before round.after := hworks.changes
    exact .inl hchanges.namingSuffix_eq

/-- after a pass the suffix is still of random bytes -/
theorem Round.drawn_next {round : Round} {next : Status} (hnext : round.MayLeave next)
    (hsuffix : Naming.Generated round.suffix) (hdrawn : round.before.Drawn) : next.Drawn := by
  obtain rfl | rfl := hnext
  · intro old hold
    obtain hkept | ⟨_, hrenewed⟩ := round.keeps_or_renewed hsuffix hdrawn
    · exact hdrawn old (hkept ▸ hold)
    · have he : some round.suffix = some old := hrenewed.recorded.symm.trans hold
      exact Option.some.inj he ▸ hsuffix
  · exact hdrawn

namespace Passes

theorem drawn {start last : Status} {rounds : List Round}
    (h : Passes Round.MayLeave start rounds last) (hdrawn : start.Drawn)
    (hsuffix : ∀ round ∈ rounds, Naming.Generated round.suffix) :
    ∀ round ∈ rounds, round.before.Drawn := by
  induction h with
  | nil => exact List.forall_mem_nil _
  | cons round hnext _ ih =>
    obtain ⟨hround, hrounds⟩ := List.forall_mem_cons.mp hsuffix
    have hlater := ih (Round.drawn_next hnext hround hdrawn) hrounds
    exact List.forall_mem_cons.mpr ⟨hdrawn, hlater⟩

/-- a start either keeps the whole status, because the suffix is in use already, or records another
suffix together with the generation, and the next pass comes at once; over every run the suffix
changes in no other pass; no name of an attempt is one of the attempt before it, and no name of the
control plane is one of the other nodes -/
theorem attempts_apart :
    (∀ (ctx : Context) (generation : Int) (release : ReleaseSpec) (suffix : String)
        (before after : Status) (t : Trace) (r : Except UpgradeError Requeue),
      Naming.Generated suffix → before.Drawn →
      (Start.step ctx generation release suffix).Yields before t r after →
      t = [] ∧ r = .ok Requeue.immediately ∧
        (before.namingSuffix = some suffix ∧ after = before ∨
          Start.Renewed generation suffix before after)) ∧
    (∀ (start last : Status) (rounds : List Round), Passes Round.MayLeave start rounds last →
      start.Drawn → (∀ round ∈ rounds, Naming.Generated round.suffix) →
      ∀ round ∈ rounds, round.after.namingSuffix ≠ round.before.namingSuffix →
        round.before.observedGeneration ≠ round.ctx.plan.generation ∧
          Start.Renewed round.ctx.plan.generation round.suffix round.before round.after) ∧
    ∀ s s' name name', Naming.PlanOf .controlPlane s name → Naming.PlanOf .worker s' name' →
      name ≠ name' := by
  refine ⟨?_, ?_, fun _ _ _ _ => Naming.PlanOf.ne_worker⟩
  · intro ctx generation release suffix before after t r hsuffix hdrawn h
    obtain ⟨rfl, rfl, rfl⟩ := Start.step_yields_iff.mp h
    exact ⟨rfl, rfl, Start.status_eq_or_renewed ctx.now hsuffix hdrawn⟩
  · intro start last rounds hpasses hdrawn hsuffix round hmem hchanged
    have hbefore := hpasses.drawn hdrawn hsuffix round hmem
    exact (round.keeps_or_renewed (hsuffix round hmem) hbefore).resolve_left hchanged

end Passes

end Upgrade

namespace OneNode

/-- the pass after the plan has been edited -/
def restartRound : Upgrade.Round := ⟨_, _, _, _, _, _, restart_yields "7"⟩

theorem passes_restart :
    Upgrade.Passes Upgrade.Round.MayLeave {} [startRound, systemRound, distributionRound,
      metalRound, completeRound, restartRound] restarted :=
  .cons startRound (.inl rfl) <| .cons systemRound (.inl rfl) <|
    .cons distributionRound (.inl rfl) <| .cons metalRound (.inl rfl) <|
      .cons completeRound (.inl rfl) <| .cons restartRound (.inl rfl) .nil

theorem generated_restart :
    ∀ round ∈ [startRound, systemRound, distributionRound, metalRound, completeRound,
      restartRound], Naming.Generated round.suffix := by
  have hfirst : Naming.Generated "0a1b2c3d4e" := ⟨[10, 27, 44, 61, 78], rfl, by decide⟩
  have hlater : Naming.Generated "5f6a7b8c9d" := ⟨[95, 106, 123, 140, 157], rfl, by decide⟩
  have hother : Naming.Generated "ffffffffff" := ⟨[255, 255, 255, 255, 255], rfl, by decide⟩
  simp only [List.forall_mem_cons]
  exact ⟨hfirst, hother, hother, hother, hother, hlater, List.forall_mem_nil _⟩

end OneNode

theorem Upgrade.Passes.attempts_apart_oneNode :
    Naming.Apart "0a1b2c3d4e" "5f6a7b8c9d" ∧
      Naming.osPlan .controlPlane "SL-Micro" "6.0" "0a1b2c3d4e" ≠
        Naming.kubernetesPlan .worker "v1.30.3+rke2r1" "5f6a7b8c9d" := by
  obtain ⟨_, hrenewed, hroles⟩ := Upgrade.Passes.attempts_apart
  refine ⟨?_, hroles _ _ _ _ (.system _ _) (.distribution _)⟩
  have hlast : OneNode.restartRound ∈ [OneNode.startRound, OneNode.systemRound,
      OneNode.distributionRound, OneNode.metalRound, OneNode.completeRound,
      OneNode.restartRound] := List.mem_of_getLast? rfl
  obtain ⟨_, hrestarted⟩ := hrenewed _ _ _ OneNode.passes_restart (fun _ he => nomatch he)
    OneNode.generated_restart _ hlast (by decide)
  exact hrestarted.apart "0a1b2c3d4e" rfl

end ReleaseUpgrade
