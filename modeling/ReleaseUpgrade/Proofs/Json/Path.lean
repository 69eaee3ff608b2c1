import ReleaseUpgrade.Proofs.Json.RoundTrip

/-!
# Paths and equality of documents

* `Json.at?`              what stands at a path of keys;
* `Json.stored_obj_iff`   an object is stored so if its fields are in order and are stored so;
* `Json.eqv`              equality of documents as a test, `Json.eqv_iff`.
-/

namespace ReleaseUpgrade.Json

/-- the document is an object -/
def isObject : Json → Bool
  | .obj _ => true
  | _ => false

theorem exists_obj_of_isObject {j : Json} (h : ¬ j.isObject = false) : ∃ d, j = .obj d := by
  cases j with
  | obj d => exact ⟨d, rfl⟩
  | _ => exact absurd rfl h

/-- what stands at a path of keys -/
def at? : List String → Json → Option Json
  | [], j => some j
  | k :: p, j => (j.field? k).bind (at? p)

theorem at?_cons_obj (k : String) (p : List String) (fields : Dict Json) :
    at? (k :: p) (.obj fields) = (Dict.get? k fields).bind (at? p) := rfl

theorem at?_cons_eq_some {k : String} {p : List String} {fields : Dict Json} {j : Json} :
    at? (k :: p) (.obj fields) = some j ↔ ∃ v, Dict.get? k fields = some v ∧ at? p v = some j :=
  Option.bind_eq_some_iff

/-- there is something below an object only -/
theorem at?_cons_eq_none {j : Json} (h : j.isObject = false) (k : String) (p : List String) :
    at? (k :: p) j = none := by
  cases j with
  | obj => cases h
  | _ => rfl

theorem exists_obj_of_at? {p : List String} {j : Json} {fields : Dict Json}
    (h : at? p j = some (.obj fields)) : ∃ d, j = .obj d := by
  cases p with
  | nil => exact ⟨fields, Option.some.inj h⟩
  | cons k p =>
    cases j with
    | obj d => exact ⟨d, rfl⟩
    | _ => cases h

/-- the fields of an object in a field are a part of the object -/
theorem sizeOf_lt_of_get? {k : String} {fields d : Dict Json}
    (h : Dict.get? k fields = some (.obj d)) : sizeOf d < sizeOf fields := by
  have hlt := List.sizeOf_lt_of_mem (Record.mem_of_get? h)
  simp only [Prod.mk.sizeOf_spec, obj.sizeOf_spec] at hlt
  omega

theorem stored_obj_iff {fields : Dict Json} :
    (Json.obj fields).Stored ↔ Dict.Ordered fields ∧ ∀ e ∈ fields, e.2.Stored := by
  constructor
  · intro h
    have hordered : Dict.Ordered fields := h.ordered_fieldsOr
    exact ⟨hordered, fun e he => h.field (hordered.get?_of_mem he)⟩
  · rintro ⟨hordered, hfields⟩
    rw [Stored, sorted, sortedFields_of_stored hfields, Dict.ofList_of_ordered hordered]

theorem stored_arr {items : List Json} (h : ∀ j ∈ items, j.Stored) : (Json.arr items).Stored := by
  have hsame : ∀ j ∈ items, j.sorted = id j := h
  rw [Stored, sorted, sortedItems_eq, List.map_congr_left hsame, List.map_id]

/-! ## equality -/

mutual

/-- two documents are the same -/
def eqv : Json → Json → Bool
  | .null, .null | .unreadable, .unreadable => true
  | .bool a, .bool b => a = b
  | .num (.int a), .num (.int b) => a = b
  | .num (.float a), .num (.float b) => a = b
  | .str a, .str b => a = b
  | .arr a, .arr b => eqvItems a b
  | .obj a, .obj b => eqvFields a b
  | _, _ => false

def eqvItems : List Json → List Json → Bool
  | [], [] => true
  | a :: as, b :: bs => eqv a b && eqvItems as bs
  | _, _ => false

def eqvFields : List (String × Json) → List (String × Json) → Bool
  | [], [] => true
  | (k, a) :: as, (l, b) :: bs => k = l && eqv a b && eqvFields as bs
  | _, _ => false

end

mutual

theorem eqv_iff : (a b : Json) → (eqv a b = true ↔ a = b)
  | .null, b | .unreadable, b | .bool _, b | .str _, b => by cases b <;> simp [eqv]
  | .num (.int _), b | .num (.float _), b => by
    cases b with
    | num n => cases n <;> simp [eqv]
    | _ => simp [eqv]
  | .arr a, b => by cases b <;> simp [eqv, eqvItems_iff a]
  | .obj a, b => by cases b <;> simp [eqv, eqvFields_iff a]

theorem eqvItems_iff : (a b : List Json) → (eqvItems a b = true ↔ a = b)
  | [], b => by cases b <;> simp [eqvItems]
  | a :: as, b => by cases b <;> simp [eqvItems, eqv_iff a, eqvItems_iff as]

theorem eqvFields_iff : (a b : List (String × Json)) → (eqvFields a b = true ↔ a = b)
  | [], b => by cases b <;> simp [eqvFields]
  | (k, a) :: as, b => by
    cases b <;> simp [eqvFields, eqv_iff a, eqvFields_iff as, Prod.ext_iff]

end

instance : DecidableEq Json := fun a b => decidable_of_iff _ (eqv_iff a b)

end ReleaseUpgrade.Json
