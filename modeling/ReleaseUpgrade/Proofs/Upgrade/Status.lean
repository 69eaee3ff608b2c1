import ReleaseUpgrade.Upgrade.Status

/-!
# Conditions that are set

`Status.setCondition` puts one condition into a status: that of its type says afterwards what was
put there, and those of the other types say what they said before.  A condition is `Held` by what
does not make it true.
-/

namespace ReleaseUpgrade.Status

section
variable (now : Instant) (type : String) (reason : Reason) (message : String)

theorem find?_setIn (cs : List Condition) :
    ∃ c, (setIn now type reason message cs).find? (fun c => c.type = type) = some c ∧
      c.status = reason.status ∧ c.reason = reason ∧ c.message = message := by
  induction cs with
  | nil => exact ⟨_, by rw [setIn, List.find?_cons_of_pos (by simp)], rfl, rfl, rfl⟩
  | cons c rest ih =>
    by_cases hc : c.type = type
    · rw [setIn, if_pos hc]
      exact ⟨_, by rw [List.find?_cons_of_pos (by simpa using hc)], rfl, rfl, rfl⟩
    · rw [setIn, if_neg hc, List.find?_cons_of_neg (by simpa using hc)]
      exact ih

theorem find?_setIn_of_ne {other : String} (h : other ≠ type) (cs : List Condition) :
    (setIn now type reason message cs).find? (fun c => c.type = other) =
      cs.find? fun c => c.type = other := by
  induction cs with
  | nil =>
    rw [setIn, List.find?_cons_of_neg (by simpa using h.symm)]
  | cons c rest ih =>
    by_cases hc : c.type = type
    · have hne : ¬c.type = other := fun he => h (he.symm.trans hc)
      rw [setIn, if_pos hc, List.find?_cons_of_neg (by simpa using hne),
        List.find?_cons_of_neg (by simpa using hne)]
    · rw [setIn, if_neg hc, List.find?_cons, List.find?_cons, ih]

variable (s : Status)

theorem condition?_setCondition :
    ∃ c, (s.setCondition now type reason message).condition? type = some c ∧
      c.status = reason.status ∧ c.reason = reason ∧ c.message = message :=
  find?_setIn now type reason message s.conditions

theorem condition?_setCondition_of_ne {other : String} (h : other ≠ type) :
    (s.setCondition now type reason message).condition? other = s.condition? other :=
  find?_setIn_of_ne now type reason message h s.conditions

theorem isSucceeded_setCondition :
    (s.setCondition now type reason message).isSucceeded type = true ↔
      reason.status = .isTrue := by
  obtain ⟨c, hc, hstatus, _, _⟩ := condition?_setCondition now type reason message s
  rw [isSucceeded, hc, Option.any_some, hstatus, decide_eq_true_iff]

/-- the condition of a type has been left as it was, or has been set for a reason that does not say
that it is true -/
def Held (now : Instant) (type : String) (before after : Status) : Prop :=
  after = before ∨ ∃ reason message, reason.status ≠ .isTrue ∧
    after = before.setCondition now type reason message

theorem Held.refl (now : Instant) (type : String) (s : Status) : Held now type s s := .inl rfl

theorem Held.isSucceeded {now : Instant} {type : String} {before after : Status}
    (h : Held now type before after) (hs : after.isSucceeded type = true) : after = before := by
  obtain rfl | ⟨reason, message, hreason, rfl⟩ := h
  · rfl
  · exact absurd ((isSucceeded_setCondition _ _ _ _ _).mp hs) hreason

end

end ReleaseUpgrade.Status
