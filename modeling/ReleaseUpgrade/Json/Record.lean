import ReleaseUpgrade.Json.Basic

/-!
# Records in JSON

A record is an object with named fields, or an array that gives the fields by position.  In an
object a known field stands at most once and unknown fields are skipped; an array has at most as
many items as the record has fields.

* `Record.open?`        the fields of a record, both forms;
* `Record.openObject?`  the fields of a record that must be an object, all of it readable;
* `Record.required`     a field that must be there;
* `Record.defaulted`    a field with a default;
* `Record.optional`     a field that may be missing or null;
* `Record.nullable`     the same, but an array must not end before it.
-/

namespace ReleaseUpgrade

/-- the fields of a record as they are given -/
structure Record where
  fields : List (String × Json)
  /-- the fields are given by position -/
  positional : Bool := false

namespace Record

/-- no two fields have the same known name -/
def distinct (names : List String) (fields : List (String × Json)) : Bool :=
  names.all fun n => (fields.filter fun f => f.1 = n).length ≤ 1

/-- the fields of a record with the given names -/
def open? (names : List String) : Json → Option Record
  | .obj fields => if distinct names fields then some ⟨fields, false⟩ else none
  | .arr items => if items.length ≤ names.length then some ⟨names.zip items, true⟩ else none
  | _ => none

/-- the fields of a record that is an object and has no unreadable part -/
def openObject? (names : List String) (j : Json) : Option Record :=
  match j with
  | .obj fields => if distinct names fields && j.readable then some ⟨fields, false⟩ else none
  | _ => none

variable {α : Type}

/-- the field `name`, if it is given -/
def get? (r : Record) (name : String) : Option Json := Dict.get? name r.fields

/-- a field that must be there -/
def required (r : Record) (name : String) (read : Json → Option α) : Option α :=
  match r.get? name with
  | some j => read j
  | none => none

/-- a field with a default for when it is missing -/
def defaulted (r : Record) (name : String) (default : α) (read : Json → Option α) : Option α :=
  match r.get? name with
  | some j => read j
  | none => some default

/-- the value of a field that may be null -/
def orNull (read : Json → Option α) (j : Json) : Option (Option α) :=
  if j.isNull then some none else (read j).map some

/-- a field that may be missing or null -/
def optional (r : Record) (name : String) (read : Json → Option α) : Option (Option α) :=
  match r.get? name with
  | some j => orNull read j
  | none => some none

/-- a field that may be missing from an object, or null -/
def nullable (r : Record) (name : String) (read : Json → Option α) : Option (Option α) :=
  match r.get? name with
  | some j => orNull read j
  | none => if r.positional then none else some none

theorem mem_of_get? {α : Type} {fields : List (String × α)} {k : String} {v : α}
    (h : Dict.get? k fields = some v) : (k, v) ∈ fields := by
  induction fields with
  | nil => simp at h
  | cons e fields ih =>
    obtain ⟨k', v'⟩ := e
    rw [Dict.get?_cons] at h
    split at h
    · rename_i hk
      cases h
      simp [hk]
    · exact List.mem_cons_of_mem _ (ih h)

/-- the value of a field is a part of the record's document -/
theorem sizeOf_get?_lt {names : List String} {j : Json} {r : Record} (h : open? names j = some r)
    {k : String} {v : Json} (hv : r.get? k = some v) : sizeOf v < sizeOf j := by
  have hmem := mem_of_get? hv
  unfold open? at h
  split at h
  · rename_i fields
    split at h
    · cases h
      have := List.sizeOf_lt_of_mem hmem
      simp at this ⊢
      omega
    · cases h
  · rename_i items
    split at h
    · cases h
      have := List.sizeOf_lt_of_mem (List.of_mem_zip hmem).2
      simp
      omega
    · cases h
  · cases h

/-- the fields without those of the given names, in order of their keys -/
def rest (r : Record) (names : List String) : Dict Json :=
  Dict.ofList (Json.sortedFields (Dict.eraseAll names r.fields))

end Record

namespace Json
variable {α : Type}

/-- an array of values -/
def list? (read : Json → Option α) : Json → Option (List α)
  | .arr items => items.mapM read
  | _ => none

/-- an object of values, the last of equal keys counting -/
def dict? (read : Json → Option α) : Json → Option (Dict α)
  | .obj fields => (fields.mapM fun f => (read f.2).map (f.1, ·)).map Dict.ofList
  | _ => none

/-- an integer of 64 bits -/
def int64? (j : Json) : Option Int :=
  match j.int? with
  | some n => if -(Nat.pow 2 63 : Int) ≤ n && n < Nat.pow 2 63 then some n else none
  | none => none

/-- an integer of 32 bits -/
def int32? (j : Json) : Option Int :=
  match j.int? with
  | some n => if -(Nat.pow 2 31 : Int) ≤ n && n < Nat.pow 2 31 then some n else none
  | none => none

/-- any readable document, objects in order of their keys -/
def value? (j : Json) : Option Json := if j.readable then some j.sorted else none

/-- one of some names, as a text or as the only key of an object whose value is null -/
def name? (j : Json) : Option String :=
  match j with
  | .str s => some s
  | .obj [(s, .null)] => some s
  | _ => none

/-- the value that a name stands for -/
def choice? (choices : List (String × α)) (j : Json) : Option α := do
  Dict.get? (← j.name?) choices

end Json

namespace Record
variable {α : Type}

/-- an array of records in a field, nothing if it is missing; each item is a part of the document
`j`, so that `read` may be the function that reads `j` -/
def nested {names : List String} {j : Json} {r : Record} (h : open? names j = some r)
    (name : String) (read : (item : Json) → sizeOf item < sizeOf j → Option α) :
    Option (List α) :=
  match hv : r.get? name with
  | none => some []
  | some (.arr items) =>
    items.attach.mapM fun item =>
      read item.1 (by
        have := List.sizeOf_lt_of_mem item.2
        have := sizeOf_get?_lt h hv
        simp at this
        omega)
  | some _ => none

/-- reading the items with a function of the item alone is reading a list with a default -/
theorem nested_eq {names : List String} {j : Json} {r : Record} (h : open? names j = some r)
    (name : String) (read : Json → Option α) :
    nested h name (fun item _ => read item) = r.defaulted name [] (Json.list? read) := by
  unfold nested
  split
  · rename_i hv
    simp [defaulted, hv]
  · rename_i items hv
    simp [defaulted, hv, Json.list?]
  · rename_i j' hne hv
    cases j' <;> simp_all [defaulted, Json.list?]

end Record

end ReleaseUpgrade
