import ReleaseUpgrade.Json.MergePatch
import ReleaseUpgrade.Json.Record
import ReleaseUpgrade.Proofs.Dict

/-!
# Documents that are stored

A document is stored with the fields of every object in order of their keys, each key once.

* `Json.Stored`              the document is stored so;
* `Record.open?_of_nodup`    an object that has each field once can be read as a record;
* `Json.mergeFields_eq`      what a patch of texts, numbers and arrays makes of the fields;
* `Json.get?_filterMap`      the fields of an object that leaves out what has no value;
* `Json.list?_map`           a list that has been written is read back.
-/

namespace ReleaseUpgrade

namespace Json

/-- the fields of every object are in order of their keys, each key once -/
def Stored (j : Json) : Prop := j.sorted = j

namespace Stored
variable {j v : Json} {k : String}

theorem ordered_fieldsOr (h : j.Stored) : Dict.Ordered j.fieldsOr := by
  cases j with
  | obj fields =>
    have heq : Dict.ofList (sortedFields fields) = fields := Json.obj.inj h
    rw [fieldsOr, ← heq]
    exact Dict.ordered_ofList _
  | _ => exact Dict.ordered_nil

theorem mem_sortedFields {fields : List (String × Json)} (h : (k, v) ∈ sortedFields fields) :
    ∃ v', (k, v') ∈ fields ∧ v = v'.sorted := by
  induction fields with
  | nil => cases h
  | cons e fields ih =>
    obtain he | h := List.mem_cons.mp h
    · obtain ⟨rfl, rfl⟩ := Prod.mk.inj he
      exact ⟨e.2, List.mem_cons_self, rfl⟩
    · obtain ⟨v', hmem, hv⟩ := ih h
      exact ⟨v', List.mem_cons_of_mem e hmem, hv⟩

theorem field (h : j.Stored) (hv : Dict.get? k j.fieldsOr = some v) : v.Stored := by
  have hordered := h.ordered_fieldsOr
  cases j with
  | obj fields =>
    have heq : Dict.ofList (sortedFields fields) = fields := Json.obj.inj h
    have hmem : (k, v) ∈ fields := Record.mem_of_get? hv
    have hsorted := hmem
    rw [← heq] at hsorted
    obtain hnil | hsorted := Dict.mem_of_mem_insertAll hsorted
    · cases hnil
    obtain ⟨v', hmem', hv'⟩ := mem_sortedFields hsorted
    obtain rfl : v' = v :=
      Option.some.inj ((hordered.get?_of_mem hmem').symm.trans (hordered.get?_of_mem hmem))
    exact hv'.symm
  | _ => cases hv

end Stored

/-- a document that is neither null nor an object, so that it takes the place of another one -/
def isPlain : Json → Bool
  | .null | .obj _ => false
  | _ => true

/-- the changes of a patch take the places of the fields if they are plain -/
theorem mergeFields_eq {changes : List (String × Json)} (h : ∀ e ∈ changes, e.2.isPlain = true)
    (fields : Dict Json) : mergeFields fields changes = Dict.insertAll fields changes := by
  induction changes generalizing fields with
  | nil => rw [mergeFields, Dict.insertAll_nil]
  | cons e changes ih =>
    obtain ⟨he, hchanges⟩ := List.forall_mem_cons.mp h
    obtain ⟨k, v⟩ := e
    rw [Dict.insertAll_cons, ← ih hchanges]
    cases v with
    | null | obj => cases he
    | bool | num | str | arr | unreadable =>
      rw [mergeFields, mergePatch]
      · exact fun _ heq => nomatch heq
      · exact fun heq => nomatch heq

theorem get?_filterMap {fields : List (String × Option Json)} (h : (fields.map Prod.fst).Nodup)
    (k : String) :
    Dict.get? k (fields.filterMap fun f => f.2.map (f.1, ·)) = (Dict.get? k fields).join := by
  induction fields with
  | nil => rfl
  | cons f fields ih =>
    obtain ⟨hnew, hfields⟩ := List.nodup_cons.mp h
    -- the first field of a name is the only one, so its absence is not made up for by a later one
    have hnone (hk : f.1 = k) : Dict.get? k fields = none :=
      Dict.get?_eq_none fun e he heq => hnew (List.mem_map.mpr ⟨e, he, heq.trans hk.symm⟩)
    obtain ⟨name, value⟩ := f
    rw [Dict.get?_cons]
    cases value with
    | none =>
      rw [List.filterMap_cons_none rfl, ih hfields]
      by_cases hk : name = k
      · rw [if_pos hk, hnone hk]
        rfl
      · rw [if_neg hk]
    | some v =>
      have hcons : ((name, some v) :: fields).filterMap (fun f => f.2.map (f.1, ·)) =
          (name, v) :: fields.filterMap fun f => f.2.map (f.1, ·) := List.filterMap_cons_some rfl
      rw [hcons, Dict.get?_cons, ih hfields]
      by_cases hk : name = k
      · rw [if_pos hk, if_pos hk]
        rfl
      · rw [if_neg hk, if_neg hk]

theorem nodup_filterMap {fields : List (String × Option Json)} (h : (fields.map Prod.fst).Nodup) :
    ((fields.filterMap fun f => f.2.map (f.1, ·)).map Prod.fst).Nodup := by
  refine List.Pairwise.sublist ?_ h
  induction fields with
  | nil => exact .slnil
  | cons f fields ih =>
    obtain ⟨name, value⟩ := f
    have ih := ih (List.nodup_cons.mp h).2
    cases value with
    | none => exact ih.cons name
    | some v => exact ih.cons_cons name

section
variable {α : Type} {read : Json → Option α}

theorem list?_map {write : α → Json} {xs : List α} (h : ∀ x ∈ xs, read (write x) = some x) :
    list? read (.arr (xs.map write)) = some xs := by
  rw [list?]
  induction xs with
  | nil => rfl
  | cons x xs ih =>
    obtain ⟨hx, hxs⟩ := List.forall_mem_cons.mp h
    rw [List.map_cons, List.mapM_cons, hx, ih hxs]
    rfl

theorem exists_of_list? {j : Json} {xs : List α} (h : list? read j = some xs) :
    ∀ x ∈ xs, ∃ item, read item = some x := by
  cases j with
  | arr items =>
    rw [list?] at h
    induction items generalizing xs with
    | nil =>
      cases h
      exact fun _ hx => absurd hx List.not_mem_nil
    | cons item items ih =>
      rw [List.mapM_cons] at h
      obtain ⟨x, hx, h⟩ := Option.bind_eq_some_iff.mp h
      obtain ⟨rest, hrest, h⟩ := Option.bind_eq_some_iff.mp h
      cases h
      exact List.forall_mem_cons.mpr ⟨⟨item, hx⟩, ih hrest⟩
  | _ => cases h

end

theorem str?_eq_some_iff {j : Json} {s : String} : j.str? = some s ↔ j = .str s := by
  constructor
  · intro h
    cases j with
    | str t => exact congrArg Json.str (Option.some.inj h)
    | _ => cases h
  · rintro rfl
    rfl

/-- the number is an integer of 64 bits -/
def IsInt64 (n : Int) : Prop := -9223372036854775808 ≤ n ∧ n < 9223372036854775808

theorem int64?_eq_some_iff {j : Json} {n : Int} :
    j.int64? = some n ↔ j = .int n ∧ IsInt64 n := by
  constructor
  · intro h
    unfold int64? at h
    split at h
    · rename_i m hm
      split at h
      · rename_i hfits
        cases h
        refine ⟨?_, by simpa [IsInt64] using hfits⟩
        cases j with
        | num v =>
          cases v with
          | int => exact congrArg Json.int (Option.some.inj hm)
          | float => cases hm
        | _ => cases hm
      · cases h
    · cases h
  · rintro ⟨rfl, hfits⟩
    exact if_pos (by simpa [IsInt64] using hfits)

theorem int64?_int {j : Json} {n : Int} (h : int64? j = some n) : int64? (.int n) = some n := by
  unfold int64? at h
  split at h
  · split at h
    · cases h
      rename_i hfits
      exact if_pos hfits
    · cases h
  · cases h

end Json

theorem Record.distinct_of_nodup {fields : List (String × Json)} (h : (fields.map Prod.fst).Nodup)
    (names : List String) : distinct names fields = true := by
  refine List.all_eq_true.mpr fun name _ => decide_eq_true ?_
  have hpairwise := (List.pairwise_map.mp h).filter fun f => f.1 = name
  have hname : ∀ f ∈ fields.filter fun f => f.1 = name, f.1 = name :=
    fun f hf => of_decide_eq_true (List.mem_filter.mp hf).2
  generalize fields.filter (fun f => f.1 = name) = same at hpairwise hname
  match same with
  | [] => exact Nat.zero_le 1
  | [_] => exact Nat.le_refl 1
  | f :: g :: _ =>
    have hne := List.rel_of_pairwise_cons hpairwise List.mem_cons_self
    obtain ⟨hf, hg⟩ := List.forall_mem_cons.mp hname
    exact absurd (hf.trans (hg g List.mem_cons_self).symm) hne

theorem Record.open?_of_nodup {fields : List (String × Json)} (h : (fields.map Prod.fst).Nodup)
    (names : List String) : open? names (.obj fields) = some ⟨fields, false⟩ :=
  if_pos (distinct_of_nodup h names)

theorem Record.open?_of_ordered {fields : Dict Json} (h : Dict.Ordered fields)
    (names : List String) : open? names (.obj fields) = some ⟨fields, false⟩ :=
  open?_of_nodup h.nodup_keys names

theorem Record.eq_of_open? {names : List String} {fields : List (String × Json)} {r : Record}
    (h : open? names (.obj fields) = some r) : r = ⟨fields, false⟩ := by
  rw [open?] at h
  split at h
  · exact (Option.some.inj h).symm
  · cases h

end ReleaseUpgrade
