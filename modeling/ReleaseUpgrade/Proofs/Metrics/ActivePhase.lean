import Mathlib.Data.List.Chain
import ReleaseUpgrade.Proofs.Controller.Announcement

/-!
# The phase that the metrics show

The gauge of the phases is 1 for the phase that a plan is in and 0 for those that it was in before.
A pass sets the phase that it ends in, and clears the one that the stored status stands for.  If the
status of the last pass has been lost, the two passes do not clear the same phase.

* `Metrics.Shows`, `Metrics.ShowsOne`   the phases for which the gauge of a plan is 1;
* `Visit.moves`                         the phases in which passes start and end;
* `Shown`, `shows_recorded`             what is shown after some moves;
* `isChain_iff`                         it is one phase at most as long as each move goes on from
                                        the one before it;
* `Session`                             the passes of one process over a plan that stays;
* `Session.shows_one_iff`               so more than one phase is shown only after a lost status.
-/

namespace ReleaseUpgrade

theorem Phase.text_inj {a b : Phase} (h : a.text = b.text) : a = b := by
  cases a <;> cases b <;> first | rfl | exact absurd h (by decide)

namespace Metrics

/-- the gauge of a plan is 1 for this phase -/
def Shows (m : Metrics) (p : PlanLabels) (phase : String) : Prop :=
  m.phaseInfo.get? (p, phase) = some 1

/-- the gauge of a plan is 1 for one phase at most -/
def ShowsOne (m : Metrics) (p : PlanLabels) : Prop :=
  ∀ a b, m.Shows p a → m.Shows p b → a = b

section
variable {m : Metrics} {p : PlanLabels} {phase : String}

theorem shows_congr {m' : Metrics} (h : m'.phaseInfo = m.phaseInfo) :
    m'.Shows p phase ↔ m.Shows p phase := by
  rw [Shows, Shows, h]

theorem shows_setPhaseInfo (set : String) (value : Int) :
    (m.setPhaseInfo p set value).Shows p phase ↔
      phase = set ∧ value = 1 ∨ phase ≠ set ∧ m.Shows p phase := by
  unfold Shows setPhaseInfo
  dsimp only
  by_cases hphase : phase = set
  · subst hphase
    rw [Series.get?_update_self]
    simp
  · rw [Series.get?_update_of_ne fun hkey => hphase (Prod.mk.inj hkey).2.symm]
    simp [hphase]

theorem phaseInfo_observePhaseDuration (now : Nat) (ended : String) :
    (m.observePhaseDuration now p ended).phaseInfo = m.phaseInfo := by
  unfold observePhaseDuration
  split <;> rfl

theorem shows_recordPhase (now : Nat) (previous current : String) :
    (m.recordPhase now p previous current).Shows p phase ↔
      phase = current ∨ phase ≠ previous ∧ m.Shows p phase := by
  unfold recordPhase
  dsimp only
  split
  · rename_i heq
    subst heq
    refine (shows_setPhaseInfo previous 1).trans ?_
    rw [and_iff_left rfl]
    rfl
  · rename_i hne
    refine (shows_setPhaseInfo current 1).trans ?_
    rw [and_iff_left rfl, shows_setPhaseInfo, shows_congr (phaseInfo_observePhaseDuration ..)]
    show _ ∨ _ ∧ (_ ∨ _ ∧ m.Shows p phase) ↔ _
    by_cases hphase : phase = current <;> simp [hphase]

theorem shows_recordProgress (now : Nat) (before status : Status) :
    (m.recordProgress now p before status).Shows p phase ↔
      phase = status.activePhase.text ∨
        phase ≠ before.activePhase.text ∧ m.Shows p phase := by
  rw [← shows_recordPhase now]
  refine shows_congr ?_
  have hfailed : ((m.recordPhase now p before.activePhase.text
      status.activePhase.text).recordFailedConditions p (before.newlyFailed status)).phaseInfo =
      (m.recordPhase now p before.activePhase.text status.activePhase.text).phaseInfo := by
    unfold recordFailedConditions
    split <;> rfl
  unfold recordProgress
  dsimp only
  split
  · split <;> exact hfailed
  · exact hfailed

end

end Metrics

/-- the phases in which a pass starts and ends, if it does a step -/
def Reconciliation.move? (r : Reconciliation) : Option (Phase × Phase) :=
  r.progress.map fun (before, status) => (before.activePhase, status.activePhase)

/-- the phases in which the passes start and end -/
def Visit.moves (visits : List Visit) : List (Phase × Phase) :=
  visits.filterMap fun v => v.result.move?

/-- the phases that are shown after some moves, of which the first one is the last -/
def Shown : List (Phase × Phase) → Phase → Prop
  | [], _ => False
  | (start, stop) :: moves, phase => phase = stop ∨ phase ≠ start ∧ Shown moves phase

/-- a move starts or ends in the phase in which the one before it has ended -/
def GoesOn (later earlier : Phase × Phase) : Prop := earlier.2 = later.1 ∨ earlier.2 = later.2

theorem shown_of_isChain {move : Phase × Phase} {moves : List (Phase × Phase)}
    (h : (move :: moves).IsChain GoesOn) {phase : Phase} :
    Shown (move :: moves) phase ↔ phase = move.2 := by
  induction moves generalizing move with
  | nil => exact or_iff_left fun h => h.2
  | cons earlier moves ih =>
    obtain ⟨hgoes, hrest⟩ := List.isChain_cons_cons.mp h
    rw [Shown, ih hrest]
    refine or_iff_left_of_imp fun ⟨hstart, hearlier⟩ => ?_
    exact hearlier.trans (hgoes.resolve_left fun h => hstart (hearlier.trans h))

/-- one phase at most is shown after each move exactly if each goes on from the one before -/
theorem isChain_iff {moves : List (Phase × Phase)} :
    (∀ past, past <:+ moves → ∀ a b, Shown past a → Shown past b → a = b) ↔
      moves.IsChain GoesOn := by
  constructor
  · intro h
    induction moves with
    | nil => exact List.isChain_nil
    | cons move moves ih =>
      have hrest := ih fun past hpast => h past (hpast.trans (List.suffix_cons move moves))
      cases moves with
      | nil => exact List.isChain_singleton move
      | cons earlier moves =>
        refine List.isChain_cons_cons.mpr ⟨or_iff_not_imp_left.mpr fun hstart => ?_, hrest⟩
        -- the phase in which the earlier move has ended is not cleared, so it is the new one
        refine h _ List.suffix_rfl _ _ (.inr ⟨hstart, (shown_of_isChain hrest).mpr rfl⟩) (.inl rfl)
  · intro h past hpast a b ha hb
    cases past with
    | nil => exact ha.elim
    | cons move past =>
      have hchain : (move :: past).IsChain GoesOn := h.suffix hpast
      rw [(shown_of_isChain hchain).mp ha, (shown_of_isChain hchain).mp hb]

theorem Metrics.shows_record {m : Metrics} {p : PlanLabels} {r : Reconciliation}
    (hstays : r.released = false) (now elapsed : Nat) {phase : String} :
    (m.record now elapsed p r).Shows p phase ↔
      match r.move? with
      | none => m.Shows p phase
      | some (start, stop) => phase = stop.text ∨ phase ≠ start.text ∧ m.Shows p phase := by
  unfold record Reconciliation.move?
  dsimp only
  rw [hstays, if_neg Bool.false_ne_true]
  cases r.progress with
  | none => exact Iff.rfl
  | some progress => exact shows_recordProgress now progress.1 progress.2

namespace Controller
variable {ctx : Context} {suffix : String} {t : Trace} {r : Reconciliation}

theorem released_of_yields (h : (reconcile ctx suffix).Yields t r)
    (hstays : ctx.plan.metadata.isTerminating = false) : r.released = false := by
  cases course_of_yields h with
  | finalize hgoes =>
    rw [hgoes] at hstays
    cases hstays
  | advance | guard => rfl

theorem before_of_yields {before status : Status} (h : (reconcile ctx suffix).Yields t r)
    (hstays : ctx.plan.metadata.isTerminating = false)
    (hprogress : r.progress = some (before, status)) : before = ctx.plan.statusOr := by
  cases course_of_yields h with
  | finalize hgoes =>
    rw [hgoes] at hstays
    cases hstays
  | advance =>
    cases hprogress
    rfl
  | guard => cases hprogress

end Controller

namespace Visit
variable {visits : List Visit} {p : PlanLabels}

/-- the pass ends in the phase in which it starts, or does no step -/
def Rests (v : Visit) : Prop := ∀ move, v.result.move? = some move → move.1 = move.2

theorem moves_cons (v : Visit) (visits : List Visit) :
    moves (v :: visits) = v.result.move?.toList ++ moves visits := by
  unfold moves
  rw [List.filterMap_cons]
  cases v.result.move? <;> rfl

theorem shows_recorded
    (h : ∀ v ∈ visits, .ofPlan v.ctx.plan = p ∧ v.ctx.plan.metadata.isTerminating = false)
    {m : Metrics} (hnone : ∀ phase, ¬m.Shows p phase) {phase : String} :
    (recorded visits m).Shows p phase ↔ ∃ a, a.text = phase ∧ Shown (moves visits) a := by
  induction visits generalizing phase with
  | nil =>
    refine iff_of_false (hnone phase) ?_
    rintro ⟨_, _, hshown⟩
    exact hshown
  | cons v visits ih =>
    obtain ⟨⟨hplan, hstays⟩, hrest⟩ := List.forall_mem_cons.mp h
    have hreleased := Controller.released_of_yields v.ran hstays
    show (v.record (recorded visits m)).Shows p phase ↔ _
    rw [record, hplan, Metrics.shows_record hreleased, ih hrest, moves_cons]
    cases v.result.move? with
    | none => exact Iff.rfl
    | some move =>
      constructor
      · rintro (rfl | ⟨hstart, a, rfl, hshown⟩)
        · exact ⟨move.2, rfl, .inl rfl⟩
        · exact ⟨a, rfl, .inr ⟨fun ha => hstart (congrArg Phase.text ha), hshown⟩⟩
      · rintro ⟨a, rfl, rfl | ⟨hstart, hshown⟩⟩
        · exact .inl rfl
        · exact .inr ⟨fun ha => hstart (Phase.text_inj ha), a, rfl, hshown⟩

theorem showsOne_recorded
    (h : ∀ v ∈ visits, .ofPlan v.ctx.plan = p ∧ v.ctx.plan.metadata.isTerminating = false)
    {m : Metrics} (hnone : ∀ phase, ¬m.Shows p phase) :
    (recorded visits m).ShowsOne p ↔
      ∀ a b, Shown (moves visits) a → Shown (moves visits) b → a = b := by
  have hshows {phase : String} : (recorded visits m).Shows p phase ↔
      ∃ a, a.text = phase ∧ Shown (moves visits) a := shows_recorded h hnone
  constructor
  · intro hone a b ha hb
    exact Phase.text_inj (hone _ _ (hshows.mpr ⟨a, rfl, ha⟩) (hshows.mpr ⟨b, rfl, hb⟩))
  · intro hone phase phase' hphase hphase'
    obtain ⟨a, rfl, ha⟩ := hshows.mp hphase
    obtain ⟨b, rfl, hb⟩ := hshows.mp hphase'
    rw [hone a b ha hb]

end Visit

/-- the stored plan and the passes over it within one process, while it stays; the last pass comes
first -/
inductive Session (p : PlanLabels) : UpgradePlan → List Visit → Prop
  | stored {plan} : PlanLabels.ofPlan plan = p → plan.metadata.isTerminating = false →
      Session p plan []
  /-- anything but the status changes, such as the release that the plan asks for -/
  | edited {plan visits new} : Session p plan visits → PlanLabels.ofPlan new = p →
      new.metadata.isTerminating = false → new.status = plan.status → Session p new visits
  /-- a pass writes no status, or the write has been refused or got lost -/
  | lost {plan visits} (v : Visit) : Session p plan visits → v.ctx.plan = plan →
      (∀ status, ⟨.patchStatus plan status, .ok ()⟩ ∉ v.trace) → v.kept = false →
      Session p plan (v :: visits)
  /-- a pass writes its status; the answer may get lost -/
  | written {plan visits new} (v : Visit) (status answer) : Session p plan visits →
      v.ctx.plan = plan → ⟨.patchStatus plan status, answer⟩ ∈ v.trace → v.kept = true →
      PlanLabels.ofPlan new = p → new.metadata.isTerminating = false →
      new.status = some status → Session p new (v :: visits)

namespace Session
variable {p : PlanLabels} {plan : UpgradePlan} {visits : List Visit}

theorem stays (h : Session p plan visits) :
    PlanLabels.ofPlan plan = p ∧ plan.metadata.isTerminating = false := by
  induction h with
  | stored hlabels hstays | edited _ hlabels hstays | written _ _ _ _ _ _ _ hlabels hstays =>
    exact ⟨hlabels, hstays⟩
  | lost _ _ _ _ _ ih => exact ih

theorem visited (h : Session p plan visits) :
    ∀ v ∈ visits, .ofPlan v.ctx.plan = p ∧ v.ctx.plan.metadata.isTerminating = false := by
  induction h with
  | stored => exact fun _ hmem => absurd hmem List.not_mem_nil
  | edited _ _ _ _ ih => exact ih
  | lost v hprev hread _ _ ih | written v _ _ hprev hread _ _ _ _ _ ih =>
    subst hread
    exact List.forall_mem_cons.mpr ⟨hprev.stays, ih⟩

/-- as long as no status is lost that has another phase, the last move has ended in the phase of the
stored plan, where the next one starts -/
theorem goesOn (h : Session p plan visits) (hrests : ∀ v ∈ visits, v.kept = false → v.Rests) :
    (Visit.moves visits).IsChain GoesOn ∧
      ∀ move ∈ (Visit.moves visits).head?, move.2 = plan.statusOr.activePhase := by
  -- a pass starts in the phase of the plan that it has read
  have hstart {v : Visit} (hstays : v.ctx.plan.metadata.isTerminating = false)
      {move : Phase × Phase} (hmove : v.result.move? = some move) :
      move.1 = v.ctx.plan.statusOr.activePhase := by
    obtain ⟨⟨before, status⟩, hprogress, rfl⟩ := Option.map_eq_some_iff.mp hmove
    rw [Controller.before_of_yields v.ran hstays hprogress]
  have hcons {moves : List (Phase × Phase)} {move : Phase × Phase} {phase : Phase}
      (hchain : moves.IsChain GoesOn) (hlast : ∀ earlier ∈ moves.head?, earlier.2 = phase)
      (hmove : move.1 = phase) : (move :: moves).IsChain GoesOn :=
    List.isChain_cons.mpr ⟨fun earlier he => .inl ((hlast earlier he).trans hmove.symm), hchain⟩
  induction h with
  | stored => exact ⟨List.isChain_nil, nofun⟩
  | edited _ _ _ hstatus ih =>
    rw [UpgradePlan.statusOr, hstatus]
    exact ih hrests
  | lost v hprev hread _ hlost ih =>
    subst hread
    obtain ⟨hv, hrests⟩ := List.forall_mem_cons.mp hrests
    obtain ⟨hchain, hlast⟩ := ih hrests
    rw [Visit.moves_cons]
    cases hmove : v.result.move? with
    | none => exact ⟨hchain, hlast⟩
    | some move =>
      have hmoved := hstart hprev.stays.2 hmove
      refine ⟨hcons hchain hlast hmoved, fun _ he => ?_⟩
      cases he
      rw [← hv hlost _ hmove, hmoved]
  | @written _ _ new v status answer hprev hread hcall _ _ _ hstatus ih =>
    subst hread
    obtain ⟨_, hrests⟩ := List.forall_mem_cons.mp hrests
    obtain ⟨hchain, hlast⟩ := ih hrests
    have hmove : v.result.move? =
        some (v.ctx.plan.statusOr.activePhase, status.activePhase) := by
      rw [Reconciliation.move?, Controller.progress_of_written v.ran hcall]
      rfl
    have hnew : new.statusOr = status := by
      rw [UpgradePlan.statusOr, hstatus]
      rfl
    rw [Visit.moves_cons, hmove, hnew]
    refine ⟨hcons hchain hlast rfl, fun _ he => ?_⟩
    cases he
    rfl

end Session

/-- for every plan that stays, whatever the cluster answers to the passes of one process, however
the plan is edited between them and whichever statuses get lost: after each of the passes the gauge
of the plan is 1 for one phase at most, exactly if each step starts or ends in the phase in which
the one before it has ended.  That is so if every status that has been lost had the phase of the
stored one -/
theorem Session.shows_one_iff {p : PlanLabels} {plan : UpgradePlan} {visits : List Visit}
    (h : Session p plan visits) {m : Metrics} (hnone : ∀ phase, ¬m.Shows p phase) :
    ((∀ past, past <:+ visits → (Visit.recorded past m).ShowsOne p) ↔
        (Visit.moves visits).IsChain GoesOn) ∧
      ((∀ v ∈ visits, v.kept = false → v.Rests) →
        ∀ past, past <:+ visits → (Visit.recorded past m).ShowsOne p) := by
  have hiff : (∀ past, past <:+ visits → (Visit.recorded past m).ShowsOne p) ↔
      (Visit.moves visits).IsChain GoesOn := by
    rw [← isChain_iff]
    have hone {past : List Visit} (hpast : past <:+ visits) :=
      Visit.showsOne_recorded (fun v hv => h.visited v (hpast.subset hv)) hnone
    constructor
    · intro hall moves hmoves
      obtain ⟨past, hpast, rfl⟩ := List.suffix_filterMap_iff.mp hmoves
      exact (hone hpast).mp (hall past hpast)
    · intro hall past hpast
      exact (hone hpast).mpr (hall _ (hpast.filterMap _))
  exact ⟨hiff, fun hrests => hiff.mpr (h.goesOn hrests).1⟩

namespace OneNode

/-- a pass in which the node turns out to run the operating system of the release -/
def systemVisit (answer : Except UpgradeError Unit) (kept : Bool) : Visit where
  ctx := contextAt (planAt "2" started)
  suffix := "ffffffffff"
  trace := _
  result := _
  ran := Controller.reconcile_yields rfl rfl (system_step_yields "2") answer
  clock := 0
  elapsed := 0
  kept

theorem unlisted_step_yields :
    (Upgrade.step (contextAt (planAt "2" started)) "ffffffffff").Yields started
      [found, ⟨.list .node none, .error (.cluster .connection)⟩] (.error (.cluster .connection))
      started :=
  ⟨.ok [{ spec := release }], _, rfl, .error (.cluster .connection), _, rfl, rfl, rfl⟩

/-- a pass in which the nodes cannot be listed -/
def unlistedVisit (answer : Except UpgradeError Unit) (kept : Bool) : Visit where
  ctx := contextAt (planAt "2" started)
  suffix := "ffffffffff"
  trace := _
  result := _
  ran := Controller.reconcile_yields rfl rfl unlisted_step_yields answer
  clock := 0
  elapsed := 0
  kept

/-- a write that is lost on the way -/
def lostAnswer : Except UpgradeError Unit := .error (.cluster .connection)

def labels : PlanLabels := ⟨"upgrade", "lifecycle-system"⟩

theorem session_stored : Session labels (planAt "2" (some started)) [] := .stored rfl rfl

/-- a first pass whose write is lost -/
theorem session_lost {ctx : Context} {suffix : String} {t : Trace} {v : Visit}
    {before after status : Status} {result : Except UpgradeError (Option Nat)}
    (hstep : (Upgrade.step ctx suffix).Yields before t result after)
    (hread : v.ctx.plan = planAt "2" (some started))
    (htrace : v.trace = t ++ [⟨.patchStatus (planAt "2" (some started)) status, lostAnswer⟩])
    (hlost : v.kept = false) : Session labels (planAt "2" (some started)) [v] := by
  refine .lost v session_stored hread (fun status hmem => ?_) hlost
  rw [htrace] at hmem
  obtain hmem | hlast := List.mem_append.mp hmem
  · cases Upgrade.spares_of_yields hstep _ hmem
  · cases List.mem_singleton.mp hlast

theorem session_lost_system :
    Session labels (planAt "2" (some started)) [systemVisit lostAnswer false] :=
  session_lost (system_step_yields "2") rfl rfl rfl

theorem session_lost_unlisted :
    Session labels (planAt "2" (some started)) [unlistedVisit lostAnswer false] :=
  session_lost unlisted_step_yields rfl rfl rfl

theorem session_unlisted : Session labels (planAt "3" (some started))
    [unlistedVisit (.ok ()) true, systemVisit lostAnswer false] :=
  .written _ started (.ok ()) session_lost_system rfl
    (List.mem_append_right _ List.mem_cons_self) rfl rfl rfl rfl

theorem session_system {visits : List Visit}
    (h : Session labels (planAt "2" (some started)) visits) :
    Session labels (planAt "3" (some systemDone)) (systemVisit (.ok ()) true :: visits) :=
  .written _ systemDone (.ok ()) h rfl (List.mem_append_right _ List.mem_cons_self) rfl rfl rfl rfl

end OneNode

/-- a lost status does no harm if the next pass gets as far again, or if nothing had moved -/
theorem Session.shows_one_iff_oneNode :
    (∀ past, past <:+ [OneNode.systemVisit (.ok ()) true,
        OneNode.systemVisit OneNode.lostAnswer false] →
      (Visit.recorded past {}).ShowsOne OneNode.labels) ∧
    ∀ past, past <:+ [OneNode.systemVisit (.ok ()) true,
        OneNode.unlistedVisit OneNode.lostAnswer false] →
      (Visit.recorded past {}).ShowsOne OneNode.labels := by
  have hnone (phase : String) : ¬({} : Metrics).Shows OneNode.labels phase := nofun
  have hmoves : Visit.moves [OneNode.systemVisit (.ok ()) true,
      OneNode.systemVisit OneNode.lostAnswer false] =
      [(.operatingSystem, .kubernetes), (.operatingSystem, .kubernetes)] := rfl
  constructor
  · have hsession := OneNode.session_system OneNode.session_lost_system
    refine (Session.shows_one_iff hsession hnone).1.mpr ?_
    rw [hmoves]
    exact List.isChain_cons_cons.mpr ⟨.inr rfl, List.isChain_singleton _⟩
  · refine (Session.shows_one_iff (OneNode.session_system OneNode.session_lost_unlisted) hnone).2
      fun v hv hlost => ?_
    obtain rfl | hv := List.mem_cons.mp hv
    · cases hlost
    · obtain rfl := List.mem_singleton.mp hv
      intro move hmove
      cases hmove
      rfl

/-- the status of the first pass is lost and the second one does not get as far, so both phases are
shown -/
theorem Session.shows_two :
    ¬∀ (p : PlanLabels) (plan : UpgradePlan) (visits : List Visit), Session p plan visits →
      ∀ past, past <:+ visits → (Visit.recorded past {}).ShowsOne p := by
  intro h
  have hone := h _ _ _ OneNode.session_unlisted _ List.suffix_rfl
  exact absurd (hone "OperatingSystem" "Kubernetes" rfl rfl) (by decide)

end ReleaseUpgrade
