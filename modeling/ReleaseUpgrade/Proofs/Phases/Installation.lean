import ReleaseUpgrade.Proofs.Cluster.Still
import ReleaseUpgrade.Proofs.Phases.Manifest

/-!
# The attempts to install the manifest

The job that publishes a manifest is created in up to five attempts.  An attempt is a creation and,
after a conflict, a lookup of the job that is in the way.  Here the cluster answers the attempts
with a sequence of replies, and nothing is asked of the sequence.

* `Program.logged`           a cluster that writes down all calls with its answers;
* `ManifestPhase.Reply`      how the cluster answers an attempt; it `Accepts` the attempt, or the
                             attempt `Fails` with an error;
* `attempted_of_yields`      what one attempt does;
* `retried_of_yields`        what some attempts do, by induction over the delays between them;
* `install_settles`          how installing ends.
-/

namespace ReleaseUpgrade

/-- the calls of a trace are answered in this way; an answer depends on the calls before it, the
first of which are in `past` -/
def Trace.Follows (answers : Trace → Answers) : (t past : Trace) → Prop
  | [], _ => True
  | x :: t, past => x.answer = answers past x.call ∧ Follows answers t (past ++ [x])

theorem Trace.follows_append {answers : Trace → Answers} {u v past : Trace} :
    (u ++ v).Follows answers past ↔ u.Follows answers past ∧ v.Follows answers (past ++ u) := by
  induction u generalizing past with
  | nil =>
    rw [List.nil_append, List.append_nil]
    exact (and_iff_right trivial).symm
  | cons x u ih =>
    show _ ∧ Follows answers (u ++ v) (past ++ [x]) ↔
      (_ ∧ Follows answers u (past ++ [x])) ∧ Follows answers v (past ++ x :: u)
    rw [ih, and_assoc, List.append_assoc, List.singleton_append]

namespace Program
variable {α : Type}

/-- a cluster that writes down all calls with its answers -/
def logged (answers : Trace → Answers) : Handler Trace :=
  fun c past => (answers past c, past ++ [⟨c, answers past c⟩])

/-- what is written down is a trace of the program, answered in this way -/
theorem run_logged (answers : Trace → Answers) (p : Program α) (past : Trace) :
    ∃ t, (p.run (logged answers) past).2 = past ++ t ∧
      p.Yields t (p.run (logged answers) past).1 ∧ t.Follows answers past := by
  induction p generalizing past with
  | done a => exact ⟨[], (List.append_nil past).symm, ⟨rfl, rfl⟩, trivial⟩
  | call c next ih =>
    obtain ⟨t, ht, hyields, hfollows⟩ := ih (answers past c) (past ++ [⟨c, answers past c⟩])
    refine ⟨⟨c, answers past c⟩ :: t, ?_, ⟨answers past c, t, rfl, hyields⟩, rfl, hfollows⟩
    rw [run_call]
    exact ht.trans (List.append_assoc ..)

end Program

namespace ManifestPhase

/-- how the cluster answers an attempt: the creation of the job, and the lookup after a conflict -/
structure Reply where
  create : Except UpgradeError Unit
  read : Except UpgradeError (Option Job)

namespace Reply

/-- the job is created, or there is one of its name that stays -/
inductive Accepts (reply : Reply) : Prop
  | created : reply.create = .ok () → Accepts reply
  | live (e) (existing : Job) : reply.create = .error e → e.isConflict = true →
      reply.read = .ok (some existing) → existing.metadata.deletionTimestamp = none → Accepts reply

/-- the attempt fails with an error: that of the creation, or that of the lookup if it fails too -/
inductive Fails (reply : Reply) : UpgradeError → Prop
  | refused {e} : reply.create = .error e → e.isConflict = false → Fails reply e
  | terminating {e} (existing : Job) : reply.create = .error e → e.isConflict = true →
      reply.read = .ok (some existing) → existing.metadata.deletionTimestamp ≠ none → Fails reply e
  | gone {e} : reply.create = .error e → e.isConflict = true → reply.read = .ok none → Fails reply e
  | unread {e f} : reply.create = .error e → e.isConflict = true → reply.read = .error f →
      Fails reply f

theorem Fails.not_accepts {reply : Reply} {e : UpgradeError} (h : reply.Fails e) :
    ¬reply.Accepts := by
  obtain ⟨create, read⟩ := reply
  rintro (hok | ⟨e', existing, hcreate, hconflict, hread, hlive⟩)
  · cases h <;> simp_all
  · cases h <;> simp_all

theorem Fails.unique {reply : Reply} {e e' : UpgradeError} (h : reply.Fails e)
    (h' : reply.Fails e') : e = e' := by
  obtain ⟨create, read⟩ := reply
  cases h <;> cases h' <;> simp_all

end Reply

/-- the call creates a job -/
def createsJob : Call → Bool
  | .create .job _ => true
  | _ => false

/-- the attempts in a trace -/
def attempts (t : Trace) : Nat := t.countP fun x => createsJob x.call

/-- the jobs that have been created in a trace -/
def creations (t : Trace) : Nat := t.countP fun x => createsJob x.call && x.answer.isOk

theorem attempts_append (u v : Trace) : attempts (u ++ v) = attempts u + attempts v :=
  List.countP_append

theorem creations_append (u v : Trace) : creations (u ++ v) = creations u + creations v :=
  List.countP_append

/-- the attempts are answered by the replies in turn, and all other calls in any way -/
def answered (replies : Nat → Reply) (others : Trace → Answers) (past : Trace) : Answers
  | .create .job _ => (replies (attempts past)).create
  | .get .job _ _ => (replies (attempts past - 1)).read
  | c => others past c

/-- what an attempt with this reply does -/
structure Attempted (reply : Reply) (t : Trace) (r : Except UpgradeError Unit) : Prop where
  attempts_eq : attempts t = 1
  verdict : (reply.Accepts ∧ r = .ok () ∧ creations t ≤ 1) ∨
    ∃ e, reply.Fails e ∧ r = .error e ∧ creations t = 0

/-- what some attempts do, the first of which is number `n`: each one but the last fails, and the
last one is accepted or there is no delay left after it -/
def Retried (replies : Nat → Reply) (n delays : Nat) (t : Trace) (r : Except UpgradeError Unit) :
    Prop :=
  ∃ i ≤ delays, attempts t = i + 1 ∧ (∀ j < i, ∃ e, (replies (n + j)).Fails e) ∧
    (((replies (n + i)).Accepts ∧ r = .ok () ∧ creations t ≤ 1) ∨
      ∃ e, i = delays ∧ (replies (n + i)).Fails e ∧ r = .error e ∧ creations t = 0)

section
variable {ctx : Context} {replies : Nat → Reply} {others : Trace → Answers} {past t : Trace}
  {r : Except UpgradeError Unit}

theorem attempted_of_settle {e : UpgradeError}
    (hcreate : (replies (attempts past)).create = .error e) (hconflict : e.isConflict = true)
    (h : (settle (job ctx) e).Yields t r)
    (hfollows : t.Follows (answered replies others)
      (past ++ [⟨.create .job (job ctx), .error e⟩])) :
    Attempted (replies (attempts past)) (⟨.create .job (job ctx), .error e⟩ :: t) r := by
  have hnumber : attempts (past ++ [⟨.create .job (job ctx), .error e⟩]) - 1 = attempts past := by
    rw [attempts_append]
    rfl
  obtain ⟨f, rfl, rfl⟩ | ⟨found, u, rfl, hrest⟩ := (Action.yields_bind_get ..).mp h
  · have hread : _ = (replies (attempts _ - 1)).read := hfollows.1
    rw [hnumber] at hread
    exact ⟨rfl, .inr ⟨f, .unread hcreate hconflict hread.symm, rfl, rfl⟩⟩
  have hread : _ = (replies (attempts _ - 1)).read := hfollows.1
  rw [hnumber] at hread
  cases found with
  | none =>
    obtain ⟨rfl, rfl⟩ := (Action.yields_throw ..).mp hrest
    exact ⟨rfl, .inr ⟨e, .gone hcreate hconflict hread.symm, rfl, rfl⟩⟩
  | some existing =>
    dsimp only at hrest
    split at hrest
    · rename_i hterminating
      obtain ⟨rfl, rfl⟩ := (Action.yields_throw ..).mp hrest
      have hdeleted : existing.metadata.deletionTimestamp ≠ none :=
        Option.isSome_iff_ne_none.mp hterminating
      exact ⟨rfl, .inr ⟨e, .terminating existing hcreate hconflict hread.symm hdeleted, rfl, rfl⟩⟩
    · rename_i hlive
      obtain ⟨rfl, rfl⟩ := (Action.yields_pure ..).mp hrest
      have hkept : existing.metadata.deletionTimestamp = none :=
        Option.not_isSome_iff_eq_none.mp hlive
      exact ⟨rfl, .inl ⟨.live e existing hcreate hconflict hread.symm hkept, rfl, Nat.zero_le 1⟩⟩

theorem attempted_of_yields (h : (attempt ctx (job ctx)).Yields t r)
    (hfollows : t.Follows (answered replies others) past) :
    Attempted (replies (attempts past)) t r := by
  obtain ⟨_, hc, rfl⟩ | ⟨e, u, v, rfl, hc, hrest⟩ := (Action.yields_recover ..).mp h
  · obtain ⟨_, _, he⟩ | ⟨event, answer, rfl, _, _⟩ := (Context.yields_create ..).mp hc
    · cases he
    have hcreate : Except.ok () = (replies (attempts past)).create := hfollows.1
    exact ⟨rfl, .inl ⟨.created hcreate.symm, rfl, Nat.le_refl 1⟩⟩
  · obtain ⟨_, rfl, he⟩ | ⟨_, _, _, _, he⟩ := (Context.yields_create ..).mp hc
    case inr => cases he
    cases he
    obtain ⟨hfirst, hfollows⟩ := Trace.follows_append.mp hfollows
    have hcreate : Except.error e = (replies (attempts past)).create := hfirst.1
    split at hrest
    · rename_i hconflict
      exact attempted_of_settle hcreate.symm hconflict hrest hfollows
    · rename_i hother
      obtain ⟨rfl, rfl⟩ := (Action.yields_throw ..).mp hrest
      exact ⟨rfl, .inr ⟨e, .refused hcreate.symm (Bool.eq_false_iff.mpr hother), rfl, rfl⟩⟩

theorem Attempted.retried {n : Nat} {u : Trace} {e : UpgradeError} {delay k : Nat}
    {answer : Except UpgradeError Unit} (hfirst : Attempted (replies n) u (.error e))
    (h : Retried replies (n + 1) k t r) :
    Retried replies n (k + 1) (u ++ ([⟨.wait delay, answer⟩] ++ t)) r := by
  obtain ⟨hone, ⟨_, he, _⟩ | ⟨e, hfails, _, hnone⟩⟩ := hfirst
  · cases he
  obtain ⟨i, hi, hcount, hbefore, hverdict⟩ := h
  have hcount' : attempts (u ++ ([⟨.wait delay, answer⟩] ++ t)) = i + 1 + 1 := by
    rw [attempts_append, attempts_append, hone, hcount]
    show 1 + (0 + (i + 1)) = i + 1 + 1
    omega
  have hcreations : creations (u ++ ([⟨.wait delay, answer⟩] ++ t)) = creations t := by
    rw [creations_append, creations_append, hnone]
    show 0 + (0 + creations t) = creations t
    omega
  have hshift (j : Nat) : n + 1 + j = n + (j + 1) := by omega
  rw [hshift] at hverdict
  refine ⟨i + 1, Nat.succ_le_succ hi, hcount', ?_, ?_⟩
  · intro j hj
    cases j with
    | zero => exact ⟨e, hfails⟩
    | succ j =>
      rw [← hshift]
      exact hbefore j (Nat.lt_of_succ_lt_succ hj)
  · rw [hcreations]
    exact hverdict.imp_right fun ⟨f, hlast, h⟩ => ⟨f, congrArg (· + 1) hlast, h⟩

theorem retried_of_yields {delays : List Nat}
    (h : (retry (attempt ctx (job ctx)) delays).Yields t r)
    (hfollows : t.Follows (answered replies others) past) :
    Retried replies (attempts past) delays.length t r := by
  induction delays generalizing past t with
  | nil =>
    have hattempt := attempted_of_yields h hfollows
    refine ⟨0, Nat.le_refl 0, hattempt.attempts_eq, nofun, ?_⟩
    exact hattempt.verdict.imp_right fun ⟨e, hfails, hr, hnone⟩ => ⟨e, rfl, hfails, hr, hnone⟩
  | cons delay rest ih =>
    obtain ⟨v, ha, rfl⟩ | ⟨e, u, v, rfl, ha, hrest⟩ := (Action.yields_recover ..).mp h
    · have hattempt := attempted_of_yields ha hfollows
      obtain haccepts | ⟨_, _, he, _⟩ := hattempt.verdict
      · exact ⟨0, Nat.zero_le _, hattempt.attempts_eq, nofun, .inl haccepts⟩
      · cases he
    obtain ⟨hu, hv⟩ := Trace.follows_append.mp hfollows
    have hattempt := attempted_of_yields ha hu
    obtain ⟨_, hw, _⟩ | ⟨_, w, t, rfl, hw, hmore⟩ := (Action.yields_bind ..).mp hrest
    · obtain ⟨_, _, he⟩ := (Action.yields_wait ..).mp hw
      cases he
    obtain ⟨answer, rfl, _⟩ := (Action.yields_wait ..).mp hw
    -- the attempts that are left follow on the one that has failed
    have hnumber : attempts (past ++ u ++ [⟨.wait delay, answer⟩]) = attempts past + 1 := by
      rw [attempts_append, attempts_append, hattempt.attempts_eq]
      rfl
    have hmore := ih hmore (Trace.follows_append.mp hv).2
    rw [hnumber] at hmore
    exact hattempt.retried hmore

/-- what comes of some attempts, by the first reply that accepts one -/
theorem Retried.settles {k : Nat} (h : Retried replies 0 k t r) :
    attempts t ≤ k + 1 ∧ creations t ≤ 1 ∧ (r = .ok () ↔ ∃ i ≤ k, (replies i).Accepts) ∧
      (∀ i ≤ k, (replies i).Accepts → (∀ j < i, ¬(replies j).Accepts) → attempts t = i + 1) ∧
      ∀ e, r = .error e ↔
        attempts t = k + 1 ∧ (∀ i ≤ k, ¬(replies i).Accepts) ∧ (replies k).Fails e := by
  unfold Retried at h
  simp only [Nat.zero_add] at h
  obtain ⟨i, hi, hcount, hbefore, ⟨haccepts, rfl, hcreations⟩ | ⟨e, rfl, hfails, rfl, hnone⟩⟩ := h
  · have hfirst : ∀ j < i, ¬(replies j).Accepts := by
      intro j hj
      obtain ⟨e, he⟩ := hbefore j hj
      exact he.not_accepts
    refine ⟨by omega, hcreations, ⟨fun _ => ⟨i, hi, haccepts⟩, fun _ => rfl⟩, ?_, ?_⟩
    · intro j _ hj hjfirst
      obtain hlt | rfl | hgt := Nat.lt_trichotomy i j
      · exact absurd haccepts (hjfirst i hlt)
      · exact hcount
      · exact absurd hj (hfirst j hgt)
    · intro e
      constructor
      · exact nofun
      · rintro ⟨_, hnever, _⟩
        exact absurd haccepts (hnever i hi)
  · have hnever : ∀ j ≤ i, ¬(replies j).Accepts := by
      intro j hj
      obtain rfl | hlt := Nat.eq_or_lt_of_le hj
      · exact hfails.not_accepts
      · obtain ⟨f, hf⟩ := hbefore j hlt
        exact hf.not_accepts
    refine ⟨by omega, by omega, ⟨nofun, ?_⟩, ?_, ?_⟩
    · rintro ⟨j, hj, haccepts⟩
      exact absurd haccepts (hnever j hj)
    · intro j hj haccepts _
      exact absurd haccepts (hnever j hj)
    · intro f
      constructor
      · intro hf
        cases hf
        exact ⟨hcount, hnever, hfails⟩
      · rintro ⟨_, _, hf⟩
        rw [hf.unique hfails]

end

/-- a job that is on its way out does not make an attempt succeed -/
theorem Reply.not_accepts_of_terminating {reply : Reply} {e : UpgradeError} {existing : Job}
    (hcreate : reply.create = .error e) (hread : reply.read = .ok (some existing))
    (hterminating : existing.metadata.deletionTimestamp ≠ none) : ¬reply.Accepts := by
  rintro (hok | ⟨f, other, _, _, hother, hlive⟩)
  · rw [hcreate] at hok
    cases hok
  · rw [hread] at hother
    cases hother
    exact hterminating hlive

/-- whatever the replies to the attempts: the job is tried at most five times, up to the first
attempt that is accepted; if there is none among the five, the error is that of the last one -/
theorem install_settles (ctx : Context) (replies : Nat → Reply) (others : Trace → Answers) :
    ∃ r t, (install ctx).run.run (Program.logged (answered replies others)) [] = (r, t) ∧
      (install ctx).Yields t r ∧ Creates .job (job ctx) t ∧
      attempts t ≤ 5 ∧ creations t ≤ 1 ∧
      (r = .ok () ↔ ∃ i ≤ 4, (replies i).Accepts) ∧
      (∀ i ≤ 4, (replies i).Accepts → (∀ j < i, ¬(replies j).Accepts) → attempts t = i + 1) ∧
      (∀ e, r = .error e ↔
        attempts t = 5 ∧ (∀ i ≤ 4, ¬(replies i).Accepts) ∧ (replies 4).Fails e) ∧
      ((∀ i ≤ 4, ∃ e existing, (replies i).create = .error e ∧
        (replies i).read = .ok (some existing) ∧ existing.metadata.deletionTimestamp ≠ none) →
        r ≠ .ok ()) := by
  obtain ⟨t, ht, hyields, hfollows⟩ :=
    Program.run_logged (answered replies others) (install ctx).run []
  have hretried : Retried replies 0 4 t _ := retried_of_yields hyields hfollows
  obtain ⟨hattempts, hcreations, hok, hfirst, herror⟩ := hretried.settles
  refine ⟨_, t, Prod.ext rfl ht, hyields, creates_of_install hyields, hattempts, hcreations, hok,
    hfirst, herror, ?_⟩
  intro hterminating hr
  obtain ⟨i, hi, haccepts⟩ := hok.mp hr
  obtain ⟨e, existing, hcreate, hread, hdeleted⟩ := hterminating i hi
  exact Reply.not_accepts_of_terminating hcreate hread hdeleted haccepts

/-- the job of an earlier run goes away after the first attempt -/
def vanishing (ctx : Context) : Nat → Reply
  | 0 =>
    let metadata := { (job ctx).metadata with deletionTimestamp := some "2024-10-01T12:00:00Z" }
    ⟨.error (.alreadyExists "Job"), .ok (some { job ctx with metadata := metadata })⟩
  | _ => ⟨.ok (), .ok none⟩

theorem install_settles_vanishing :
    let ctx : Context :=
      { settings := {}, plan := { spec := { releaseVersion := "3.1.0" } }, now := ⟨0, 0⟩ }
    ∃ t, (install ctx).Yields t (.ok ()) ∧ attempts t = 2 ∧ creations t ≤ 1 := by
  intro ctx
  obtain ⟨r, t, _, hyields, _, _, hcreations, hok, hfirst, _⟩ :=
    install_settles ctx (vanishing ctx) fun _ _ => .error (.cluster .connection)
  have haccepts : (vanishing ctx 1).Accepts := .created rfl
  have hfails : ∀ j < 1, ¬(vanishing ctx j).Accepts := by
    intro j hj
    obtain rfl := Nat.lt_one_iff.mp hj
    exact Reply.not_accepts_of_terminating rfl rfl nofun
  obtain rfl := hok.mpr ⟨1, by decide, haccepts⟩
  exact ⟨t, hyields, hfirst 1 (by decide) haccepts hfails, hcreations⟩

end ManifestPhase

end ReleaseUpgrade
