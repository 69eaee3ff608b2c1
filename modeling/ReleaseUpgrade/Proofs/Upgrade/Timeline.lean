import Mathlib.Data.List.Induction
import ReleaseUpgrade.Proofs.Upgrade.Conditions

/-!
# A sequence of settings

A status starts without conditions, and they are set one after the other, each setting with its own
reading of the clock and those of different types in any order.

* `Setting`              one setting of a condition; `Status.after` what a sequence of them leaves;
* `Condition.Recorded`   what a condition tells of the settings of its type: the last one of them,
                         and when the status that it has now began;
* `Status.types_after`   there is one condition for each type, in the order of first use;
* `Status.recorded_after`   and each of them is `Recorded`.
-/

namespace ReleaseUpgrade

/-- the ways to set a condition -/
inductive Setter where
  | condition (reason : Reason)
  | inProgress
  | succeeded
  | failed

def Setter.reason : Setter → Reason
  | .condition reason => reason
  | .inProgress => .inProgress
  | .succeeded => .succeeded
  | .failed => .failed

/-- one setting of a condition -/
structure Setting where
  setter : Setter
  type : String
  message : String
  now : Instant

namespace Setting

def reason (c : Setting) : Reason := c.setter.reason

/-- the status after the setting -/
def apply (s : Status) (c : Setting) : Status :=
  match c.setter with
  | .condition reason => s.setCondition c.now c.type reason c.message
  | .inProgress => s.setInProgress c.now c.type c.message
  | .succeeded => s.setSucceeded c.now c.type c.message
  | .failed => s.setFailed c.now c.type c.message

theorem apply_eq (s : Status) (c : Setting) :
    c.apply s = s.setCondition c.now c.type c.reason c.message := by
  obtain ⟨setter, type, message, now⟩ := c
  cases setter <;> rfl

/-- the condition of the type after the setting, from the one before it -/
def renew (c : Setting) (before : Option Condition) : Condition where
  type := c.type
  status := c.reason.status
  reason := c.reason
  message := c.message
  lastTransition := match before with
    | some b => if b.status = c.reason.status then b.lastTransition else c.now
    | none => c.now

end Setting

/-- the condition tells of the settings of its type: it has reason and message of the last one, and
its time is that of the first one in the block at their end in which all have the same status -/
structure Condition.Recorded (own : List Setting) (c : Condition) : Prop where
  last : ∃ d, own.getLast? = some d ∧ c.reason = d.reason ∧ c.message = d.message
  paired : c.status = c.reason.status
  since : ∃ early first rest, own = early ++ first :: rest ∧
    (∀ d ∈ first :: rest, d.reason.status = c.status) ∧
    (∀ d ∈ early.getLast?, d.reason.status ≠ c.status) ∧ c.lastTransition = first.now

namespace Condition

theorem recorded_single (d : Setting) : Recorded [d] (d.renew none) where
  last := ⟨d, rfl, rfl, rfl⟩
  paired := rfl
  since := by
    refine ⟨[], d, [], rfl, ?_, nofun, rfl⟩
    intro e he
    rw [List.mem_singleton.mp he]
    rfl

theorem Recorded.append {own : List Setting} {c : Condition} (h : Recorded own c) (d : Setting) :
    Recorded (own ++ [d]) (d.renew (some c)) where
  last := ⟨d, List.getLast?_concat, rfl, rfl⟩
  paired := rfl
  since := by
    by_cases hsame : c.status = d.reason.status
    · -- the block goes on
      obtain ⟨early, first, rest, rfl, hblock, hearly, htime⟩ := h.since
      have hnow : (d.renew (some c)).lastTransition = c.lastTransition := if_pos hsame
      have hstatus : (d.renew (some c)).status = c.status := hsame.symm
      refine ⟨early, first, rest ++ [d], ?_, ?_, ?_, hnow.trans htime⟩
      · rw [List.append_assoc, List.cons_append]
      · intro e he
        rw [hstatus]
        rw [← List.cons_append, List.mem_append, List.mem_singleton] at he
        obtain he | rfl := he
        · exact hblock e he
        · exact hsame.symm
      · rw [hstatus]
        exact hearly
    · -- a block begins
      have hnow : (d.renew (some c)).lastTransition = d.now := if_neg hsame
      refine ⟨own, d, [], rfl, ?_, ?_, hnow⟩
      · intro e he
        rw [List.mem_singleton.mp he]
        rfl
      · intro e he
        obtain ⟨l, hl, hreason, _⟩ := h.last
        have hel : l = e := Option.some.inj (hl.symm.trans he)
        have hstatus : c.status = e.reason.status := by rw [h.paired, hreason, hel]
        show e.reason.status ≠ d.reason.status
        rw [← hstatus]
        exact hsame

end Condition

namespace Status

theorem find?_setIn_eq (d : Setting) (cs : List Condition) :
    (setIn d.now d.type d.reason d.message cs).find? (fun c => c.type = d.type) =
      some (d.renew (cs.find? fun c => c.type = d.type)) := by
  induction cs with
  | nil =>
    rw [setIn, List.find?_cons_of_pos (by simp)]
    rfl
  | cons c rest ih =>
    by_cases hc : c.type = d.type
    · rw [setIn, if_pos hc, List.find?_cons_of_pos (by simpa using hc),
        List.find?_cons_of_pos (by simpa using hc), hc]
      rfl
    · rw [setIn, if_neg hc, List.find?_cons_of_neg (by simpa using hc),
        List.find?_cons_of_neg (by simpa using hc), ih]

theorem condition?_apply (s : Status) (d : Setting) :
    (d.apply s).condition? d.type = some (d.renew (s.condition? d.type)) := by
  rw [d.apply_eq]
  exact find?_setIn_eq d s.conditions

theorem condition?_apply_of_ne (s : Status) (d : Setting) {type : String} (h : type ≠ d.type) :
    (d.apply s).condition? type = s.condition? type := by
  rw [d.apply_eq]
  exact condition?_setCondition_of_ne _ _ _ _ s h

/-- the status that a sequence of settings leaves -/
def after (calls : List Setting) : Status := calls.foldl Setting.apply {}

theorem after_concat (calls : List Setting) (d : Setting) :
    after (calls ++ [d]) = d.apply (after calls) := List.foldl_concat ..

theorem sound_after (calls : List Setting) : (after calls).Sound := by
  induction calls using List.reverseRecOn with
  | nil => exact Sound.empty
  | append_singleton calls d ih =>
    rw [after_concat, d.apply_eq]
    exact ih.setCondition _ _ _ _

theorem eraseDups_concat (types : List String) (type : String) :
    (types ++ [type]).eraseDups =
      if type ∈ types then types.eraseDups else types.eraseDups ++ [type] := by
  rw [List.eraseDups_append]
  by_cases h : type ∈ types
  · simp [List.removeAll, h]
  · simp [List.removeAll, h, List.eraseDups_cons]

/-- there is a condition for each type that has been used, in the order of first use -/
theorem types_after (calls : List Setting) :
    (after calls).types = (calls.map (·.type)).eraseDups := by
  induction calls using List.reverseRecOn with
  | nil => rfl
  | append_singleton calls d ih =>
    have hmem : d.type ∈ (after calls).types ↔ d.type ∈ calls.map (·.type) := by
      rw [ih, List.mem_eraseDups]
    rw [after_concat, d.apply_eq, types_setCondition, List.map_append, List.map_singleton,
      eraseDups_concat, ← ih]
    simp only [hmem]

/-- what is found for a type tells of its settings, and nothing is found if there are none -/
theorem recorded_condition? (calls : List Setting) (type : String) :
    match (after calls).condition? type with
    | none => calls.filter (·.type = type) = []
    | some c => c.Recorded (calls.filter (·.type = type)) := by
  induction calls using List.reverseRecOn with
  | nil => rfl
  | append_singleton calls d ih =>
    rw [after_concat, List.filter_append]
    by_cases htype : d.type = type
    · have hown : [d].filter (·.type = type) = [d] := by simp [htype]
      rw [hown, ← htype, condition?_apply]
      rw [← htype] at ih
      cases hbefore : (after calls).condition? d.type with
      | none =>
        rw [hbefore] at ih
        rw [show calls.filter (·.type = d.type) = [] from ih]
        exact Condition.recorded_single d
      | some c =>
        rw [hbefore] at ih
        exact Condition.Recorded.append ih d
    · have hother : [d].filter (·.type = type) = [] := by simp [htype]
      rw [hother, List.append_nil, condition?_apply_of_ne _ _ (Ne.symm htype)]
      exact ih

/-- the conditions after a sequence of settings: one for each type, in the order of first use, and
each tells of the last setting of its type and of when its status began -/
theorem recorded_after (calls : List Setting) :
    (after calls).types = (calls.map (·.type)).eraseDups ∧ (after calls).types.Nodup ∧
      ∀ c ∈ (after calls).conditions, c.Recorded (calls.filter (·.type = c.type)) := by
  refine ⟨types_after calls, (sound_after calls).nodup, fun c hc => ?_⟩
  have hfound := recorded_condition? calls c.type
  rw [(sound_after calls).condition?_eq hc] at hfound
  exact hfound

/-- the operating system is under way and then fails, and the distribution is set in between -/
def failing : List Setting :=
  [⟨.condition .pending, osUpgraded, "", ⟨0, 0⟩⟩,
    ⟨.inProgress, osUpgraded, "Control plane", ⟨1, 0⟩⟩,
    ⟨.condition .pending, kubernetesUpgraded, "", ⟨2, 0⟩⟩, ⟨.failed, osUpgraded, "Broken", ⟨3, 0⟩⟩,
    ⟨.inProgress, kubernetesUpgraded, "Workers", ⟨4, 0⟩⟩]

theorem recorded_after_failing :
    (⟨osUpgraded, .isFalse, .failed, "Broken", ⟨1, 0⟩⟩ : Condition) ∈ (after failing).conditions ∧
      Condition.Recorded (failing.filter (·.type = osUpgraded))
        ⟨osUpgraded, .isFalse, .failed, "Broken", ⟨1, 0⟩⟩ := by
  have hmem : (⟨osUpgraded, .isFalse, .failed, "Broken", ⟨1, 0⟩⟩ : Condition) ∈
      (after failing).conditions := by decide
  exact ⟨hmem, (recorded_after failing).2.2 _ hmem⟩

end Status

end ReleaseUpgrade
