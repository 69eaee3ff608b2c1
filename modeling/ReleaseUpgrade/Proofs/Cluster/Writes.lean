import ReleaseUpgrade.Proofs.Cluster.Trace

/-!
# What a trace writes

A call writes if it creates, replaces or deletes an object.  Two facts about the writing calls of a
trace are put together from its parts.

* `Trace.Guarded P t`   each writing call is made only when `P` holds of what went before and of it;
* `Trace.Brief P t`     at most one call writes, and if one does then `P`, which tells that the part
                        of the program stops.
-/

namespace ReleaseUpgrade

/-- the call creates, replaces or deletes an object -/
def Call.writes : Call → Bool
  | .create .. | .replace .. | .delete .. => true
  | _ => false

/-- the call creates or replaces an object -/
def Call.puts : Call → Bool
  | .create .. | .replace .. => true
  | _ => false

/-- the call deletes an object -/
def Call.deletes : Call → Bool
  | .delete .. => true
  | _ => false

/-- the call leaves the status and the finalizers of the plan alone -/
def Call.sparesPlan : Call → Bool
  | .patchStatus .. | .setFinalizers .. => false
  | _ => true

/-- the call says that the upgrade has come to its end -/
def Call.announces : Call → Bool
  | .publishEvent _ event => event.reason = "UpgradeCompleted"
  | _ => false

/-- the call neither changes the plan nor says that its upgrade has come to its end -/
def Call.isOrdinary (c : Call) : Bool := c.sparesPlan && !c.announces

/-- the call lists or deletes objects, or it sets the finalizers of the plan -/
def Call.cleans : Call → Bool
  | .list .. | .delete .. | .setFinalizers .. => true
  | _ => false

theorem Call.isOrdinary_iff {c : Call} :
    c.isOrdinary = true ↔ c.sparesPlan = true ∧ c.announces = false := by
  rw [isOrdinary, Bool.and_eq_true, Bool.not_eq_true']

theorem Call.puts_eq_false {c : Call} (h : c.writes = false) : c.puts = false := by
  cases c <;> first | rfl | cases h

theorem Call.writes_of_puts {c : Call} (h : c.puts = true) : c.writes = true := by
  cases c <;> first | rfl | cases h

theorem Call.puts_eq_false_of_cleans {c : Call} (h : c.cleans = true) : c.puts = false := by
  cases c <;> first | rfl | cases h

theorem Call.deletes_eq_false {c : Call} (h : c.writes = false) : c.deletes = false := by
  cases c <;> first | rfl | cases h

namespace Trace

/-- no answer is the error that a program finds out by itself -/
def Genuine (t : Trace) : Prop :=
  ∀ x ∈ t, ∀ release, x.answer ≠ .error (.multipleHelmCharts release)

theorem genuine_append (u v : Trace) : Genuine (u ++ v) ↔ Genuine u ∧ Genuine v :=
  List.forall_mem_append

/-- all calls of the trace are of one sort -/
def All (p : Call → Bool) (t : Trace) : Prop := ∀ x ∈ t, p x.call = true

section
variable {p : Call → Bool}

theorem all_nil : All p [] := fun _ h => absurd h List.not_mem_nil

theorem all_append (u v : Trace) : All p (u ++ v) ↔ All p u ∧ All p v := List.forall_mem_append

theorem All.mono {q : Call → Bool} {t : Trace} (h : All p t) (hpq : ∀ c, p c = true → q c = true) :
    All q t := fun x hx => hpq x.call (h x hx)

theorem all_single {x : Exchange} (h : p x.call = true) : All p [x] := by
  intro y hy
  rw [List.mem_singleton.mp hy]
  exact h

end

/-- no call of the trace writes -/
def Quiet (t : Trace) : Prop := ∀ x ∈ t, x.call.writes = false

theorem quiet_nil : Quiet [] := fun _ h => absurd h List.not_mem_nil

theorem quiet_cons (x : Exchange) (t : Trace) : Quiet (x :: t) ↔ x.call.writes = false ∧ Quiet t :=
  List.forall_mem_cons

theorem quiet_single {x : Exchange} (hx : x.call.writes = false) : Quiet [x] :=
  (quiet_cons x []).mpr ⟨hx, quiet_nil⟩

theorem quiet_append (u v : Trace) : Quiet (u ++ v) ↔ Quiet u ∧ Quiet v :=
  List.forall_mem_append

/-- each writing call is made only when `P` holds of what went before and of the call -/
def Guarded (P : Trace → Call → Prop) : Trace → Prop
  | [] => True
  | x :: t => (x.call.writes = true → P [] x.call) ∧ Guarded (fun past => P (x :: past)) t

section
variable {P Q : Trace → Call → Prop}

theorem guarded_cons (x : Exchange) (t : Trace) :
    Guarded P (x :: t) ↔
      (x.call.writes = true → P [] x.call) ∧ Guarded (fun past => P (x :: past)) t := Iff.rfl

theorem guarded_append (u v : Trace) :
    Guarded P (u ++ v) ↔ Guarded P u ∧ Guarded (fun past => P (u ++ past)) v := by
  induction u generalizing P with
  | nil => exact ⟨fun h => ⟨trivial, h⟩, fun h => h.2⟩
  | cons x u ih => rw [List.cons_append, guarded_cons, guarded_cons, ih, and_assoc]; rfl

theorem Guarded.mono {t : Trace} (h : Guarded P t) (hPQ : ∀ past c, P past c → Q past c) :
    Guarded Q t := by
  induction t generalizing P Q with
  | nil => trivial
  | cons x t ih =>
    exact ⟨fun hx => hPQ _ _ (h.1 hx), ih h.2 fun past c hP => hPQ (x :: past) c hP⟩

theorem Guarded.append {u v : Trace} (hu : Guarded P u) (hv : Guarded Q v)
    (hQP : ∀ past c, Q past c → P (u ++ past) c) : Guarded P (u ++ v) :=
  (guarded_append u v).mpr ⟨hu, hv.mono hQP⟩

theorem Quiet.guarded {t : Trace} (h : Quiet t) : Guarded P t := by
  induction t generalizing P with
  | nil => trivial
  | cons x t ih =>
    obtain ⟨hx, ht⟩ := (quiet_cons x t).mp h
    exact ⟨fun hw => absurd hw (by rw [hx]; exact Bool.false_ne_true), ih ht⟩

theorem Guarded.all {p : Call → Bool} {t : Trace} (h : Guarded P t)
    (hquiet : ∀ c, c.writes = false → p c = true) (hP : ∀ past c, P past c → p c = true) :
    t.All p := by
  induction t generalizing P with
  | nil => exact all_nil
  | cons x t ih =>
    have hx : p x.call = true := by
      cases hw : x.call.writes with
      | true => exact hP [] x.call (h.1 hw)
      | false => exact hquiet x.call hw
    exact (all_append [x] t).mpr ⟨all_single hx, ih h.2 fun past c => hP (x :: past) c⟩

/-- what is guarded holds at each writing call, wherever the trace is cut -/
theorem Guarded.at {past : Trace} {x : Exchange} {rest : Trace}
    (h : Guarded P (past ++ x :: rest)) (hx : x.call.writes = true) : P past x.call := by
  rw [guarded_append] at h
  have hP : P (past ++ []) x.call := h.2.1 hx
  rwa [List.append_nil] at hP

end

/-- one call of the trace writes, and no other does -/
def Once (t : Trace) : Prop := t.countP (·.call.writes) = 1

theorem Quiet.countP {t : Trace} (h : Quiet t) : t.countP (·.call.writes) = 0 :=
  List.countP_eq_zero.mpr fun x hx => by rw [h x hx]; exact Bool.false_ne_true

theorem Quiet.append_once {u v : Trace} (hu : Quiet u) (hv : Once v) : Once (u ++ v) := by
  rw [Once, List.countP_append, hu.countP, hv]

/-- the trace writes at most once, and it goes on after it only if `P` fails -/
def Brief (P : Prop) (t : Trace) : Prop := Quiet t ∨ Once t ∧ P

section
variable {P Q : Prop} {u v t : Trace}

theorem Quiet.brief (h : Quiet t) : Brief P t := .inl h

theorem Brief.mono (h : Brief P t) (hPQ : P → Q) : Brief Q t :=
  h.imp id fun ⟨ho, hP⟩ => ⟨ho, hPQ hP⟩

theorem Quiet.append_brief (hu : Quiet u) (hv : Brief P v) : Brief P (u ++ v) := by
  obtain hv | ⟨hv, hP⟩ := hv
  · exact .inl ((quiet_append u v).mpr ⟨hu, hv⟩)
  · exact .inr ⟨hu.append_once hv, hP⟩

theorem Brief.append_quiet (hu : Brief P u) (hv : Quiet v) : Brief P (u ++ v) := by
  obtain hu | ⟨hu, hP⟩ := hu
  · exact .inl ((quiet_append u v).mpr ⟨hu, hv⟩)
  · refine .inr ⟨?_, hP⟩
    rw [Once, List.countP_append, hv.countP, hu]

theorem Brief.left (h : Brief P (u ++ v)) : Brief P u := by
  obtain h | ⟨h, hP⟩ := h
  · exact .inl ((quiet_append u v).mp h).1
  rw [Once, List.countP_append] at h
  by_cases hu : u.countP (·.call.writes) = 0
  · refine .inl fun x hx => ?_
    exact Bool.eq_false_iff.mpr (List.countP_eq_zero.mp hu x hx)
  · exact .inr ⟨by unfold Once; omega, hP⟩

theorem Brief.cons {x : Exchange} (hx : x.call.writes = false) (h : Brief P t) : Brief P (x :: t) :=
  (quiet_single hx).append_brief h

theorem Brief.quiet (h : Brief P t) (hP : ¬P) : Quiet t := by
  obtain h | ⟨_, h⟩ := h
  · exact h
  · exact absurd h hP

theorem Brief.countP_le_one (h : Brief P t) : t.countP (·.call.writes) ≤ 1 := by
  obtain h | ⟨h, _⟩ := h
  · rw [h.countP]
    exact Nat.zero_le 1
  · exact Nat.le_of_eq h

/-- when the one writing call is made, none has been made before it -/
theorem Brief.quiet_before {past rest : Trace} {x : Exchange} (h : Brief P (past ++ x :: rest))
    (hx : x.call.writes = true) : Quiet past := by
  have hle := h.countP_le_one
  rw [List.countP_append, List.countP_cons, if_pos hx] at hle
  intro y hy
  refine Bool.eq_false_iff.mpr fun hw => ?_
  have hpos : 0 < past.countP (·.call.writes) := List.countP_pos_iff.mpr ⟨y, hy, hw⟩
  omega

end

/-- no call of the trace creates or replaces an object -/
def Unput (t : Trace) : Prop := ∀ x ∈ t, x.call.puts = false

theorem unput_nil : Unput [] := fun _ h => absurd h List.not_mem_nil

theorem unput_append (u v : Trace) : Unput (u ++ v) ↔ Unput u ∧ Unput v := List.forall_mem_append

end Trace

namespace Program
variable {α : Type}

theorem yields_genuine (p : Program α) : ∃ t a, t.Genuine ∧ p.Yields t a := by
  induction p with
  | done a => exact ⟨[], a, fun _ h => absurd h List.not_mem_nil, rfl, rfl⟩
  | call c next ih =>
    obtain ⟨t, a, hgen, h⟩ := ih (.error (.cluster .other))
    refine ⟨⟨c, _⟩ :: t, a, fun x hx => ?_, _, t, rfl, h⟩
    obtain rfl | hx := List.mem_cons.mp hx
    · exact fun _ he => nomatch he
    · exact hgen x hx

/-- a program that has been broken off might have gone on with answers that come from the cluster -/
theorem yields_resumed {p : Program α} {u v : Trace} {a : α} (h : p.Yields (u ++ v) a) :
    ∃ v' a', v'.Genuine ∧ p.Yields (u ++ v') a' := by
  induction p generalizing u with
  | done b =>
    obtain ⟨hnil, rfl⟩ := h
    obtain ⟨rfl, rfl⟩ := List.append_eq_nil_iff.mp hnil
    exact ⟨[], _, fun _ h => absurd h List.not_mem_nil, rfl, rfl⟩
  | call c next ih =>
    cases u with
    | nil => exact yields_genuine (.call c next)
    | cons x u =>
      obtain ⟨answer, t, heq, hrest⟩ := h
      obtain ⟨rfl, rfl⟩ := List.cons.inj heq
      obtain ⟨v', a', hgen, h'⟩ := ih answer hrest
      exact ⟨v', a', hgen, answer, u ++ v', rfl, h'⟩

end Program

end ReleaseUpgrade
