import ReleaseUpgrade.Json.Record

/-!
# What a field of a record holds

One lemma for each way to read a field: when it gives a value, and which one.

* `Record.required_eq_some_iff`, `Record.defaulted_eq_some_iff`;
* `Record.Absent`  the field is missing or null, as `Record.nullable` takes it;
* `Record.optional_eq_some_iff`, `Record.nullable_eq_some_iff`.
-/

namespace ReleaseUpgrade.Record

section
variable {α : Type} {r : Record} {name : String} {read : Json → Option α}

/-- a field is missing from an object, or null -/
def Absent (r : Record) (name : String) : Prop :=
  r.get? name = some .null ∨ r.get? name = none ∧ r.positional = false

theorem required_eq_some_iff {x : α} :
    r.required name read = some x ↔ ∃ j, r.get? name = some j ∧ read j = some x := by
  rw [required]
  cases r.get? name with
  | none => simp
  | some j => simp

theorem defaulted_eq_some_iff {default x : α} :
    r.defaulted name default read = some x ↔
      (r.get? name = none ∧ x = default) ∨ ∃ j, r.get? name = some j ∧ read j = some x := by
  rw [defaulted]
  cases r.get? name with
  | none => simp [eq_comm]
  | some j => simp

theorem orNull_eq_some_iff {j : Json} {x : Option α} :
    orNull read j = some x ↔
      (j = .null ∧ x = none) ∨ j ≠ .null ∧ ∃ y, read j = some y ∧ x = some y := by
  rw [orNull]
  cases hj : j.isNull with
  | true =>
    obtain rfl : j = .null := by
      cases j with
      | null => rfl
      | _ => cases hj
    simp [eq_comm]
  | false =>
    have hne : j ≠ .null := by
      rintro rfl
      cases hj
    simp [hne, eq_comm]

theorem optional_eq_some_iff {x : Option α} :
    r.optional name read = some x ↔
      ((r.get? name = none ∨ r.get? name = some .null) ∧ x = none) ∨
        ∃ j y, r.get? name = some j ∧ j ≠ .null ∧ read j = some y ∧ x = some y := by
  rw [optional]
  cases r.get? name with
  | none => simp [eq_comm]
  | some j => simp [orNull_eq_some_iff]

theorem nullable_eq_some_iff {x : Option α} :
    r.nullable name read = some x ↔
      (r.Absent name ∧ x = none) ∨
        ∃ j y, r.get? name = some j ∧ j ≠ .null ∧ read j = some y ∧ x = some y := by
  rw [nullable, Absent]
  cases r.get? name with
  | none => cases r.positional <;> simp [eq_comm]
  | some j => simp [orNull_eq_some_iff]

end

end ReleaseUpgrade.Record
