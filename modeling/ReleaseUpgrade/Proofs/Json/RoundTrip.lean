import ReleaseUpgrade.Proofs.Json.Document

/-!
# Values that are read back

A value that has been read from a document is written to one that may differ from it: fields stand
in another order, defaults are left out or filled in, unknown fields are gone.  Reading that
document gives the same value again.

* `Json.ReadsBack`        what is read is read again from what is written;
* `Json.ReadsBack.list`   the same for lists; there are lemmas for texts, numbers and documents too;
* `Record.Gives`          a record has the fields that are written;
* `Record.readsBack`      it is enough that the fields of a record can be read back.
-/

namespace ReleaseUpgrade

namespace Json

theorem readableItems_iff {items : List Json} :
    readableItems items = true ↔ ∀ j ∈ items, j.readable = true := by
  induction items with
  | nil => exact iff_of_true rfl fun _ h => absurd h List.not_mem_nil
  | cons j items ih => rw [readableItems, Bool.and_eq_true, ih, List.forall_mem_cons]

theorem readableFields_iff {fields : List (String × Json)} :
    readableFields fields = true ↔ ∀ f ∈ fields, f.2.readable = true := by
  induction fields with
  | nil => exact iff_of_true rfl fun _ h => absurd h List.not_mem_nil
  | cons f fields ih => rw [readableFields, Bool.and_eq_true, ih, List.forall_mem_cons]

theorem sortedItems_eq (items : List Json) : sortedItems items = items.map sorted := by
  induction items with
  | nil => rfl
  | cons j items ih => rw [sortedItems, ih, List.map_cons]

theorem sortedFields_eq (fields : List (String × Json)) :
    sortedFields fields = fields.map fun f => (f.1, f.2.sorted) := by
  induction fields with
  | nil => rfl
  | cons f fields ih => rw [sortedFields, ih, List.map_cons]

theorem sortedFields_of_stored {fields : List (String × Json)} (h : ∀ f ∈ fields, f.2.Stored) :
    sortedFields fields = fields := by
  have hsame : ∀ f ∈ fields, (f.1, f.2.sorted) = id f := fun f hf => Prod.ext rfl (h f hf)
  rw [sortedFields_eq, List.map_congr_left hsame, List.map_id]

/-- the documents in the entries of a list are among those of the list -/
theorem mem_ofList_sortedFields {fields : List (String × Json)} {f : String × Json}
    (h : f ∈ Dict.ofList (sortedFields fields)) : ∃ f' ∈ fields, f = (f'.1, f'.2.sorted) := by
  obtain hnil | hmem := Dict.mem_of_mem_insertAll h
  · cases hnil
  · rw [sortedFields_eq] at hmem
    obtain ⟨f', hf', rfl⟩ := List.mem_map.mp hmem
    exact ⟨f', hf', rfl⟩

theorem stored_sorted (j : Json) : j.sorted.Stored := by
  match j with
  | .null | .bool _ | .num _ | .str _ | .unreadable => rfl
  | .arr items =>
    have hitems (item : Json) (hitem : item ∈ items) := stored_sorted item
    rw [Stored, sorted, sortedItems_eq, sorted, sortedItems_eq, List.map_map]
    exact congrArg Json.arr (List.map_congr_left hitems)
  | .obj fields =>
    have hfields (f : String × Json) (hf : f ∈ Dict.ofList (sortedFields fields)) : f.2.Stored := by
      obtain ⟨f', hf', rfl⟩ := mem_ofList_sortedFields hf
      exact stored_sorted f'.2
    rw [Stored, sorted, sorted, sortedFields_of_stored hfields,
      Dict.ofList_of_ordered (Dict.ordered_ofList _)]
termination_by sizeOf j
decreasing_by
  · have := List.sizeOf_lt_of_mem hitem
    simp only [arr.sizeOf_spec]
    omega
  · have := List.sizeOf_lt_of_mem hf'
    obtain ⟨k, v⟩ := f'
    simp only [obj.sizeOf_spec, Prod.mk.sizeOf_spec] at this ⊢
    omega

theorem readable_sorted {j : Json} (h : j.readable = true) : j.sorted.readable = true := by
  match j with
  | .null | .bool _ | .num _ | .str _ => rfl
  | .unreadable => cases h
  | .arr items =>
    rw [sorted, sortedItems_eq, readable, readableItems_iff]
    rw [readable, readableItems_iff] at h
    intro j hj
    obtain ⟨item, hitem, rfl⟩ := List.mem_map.mp hj
    exact readable_sorted (h item hitem)
  | .obj fields =>
    rw [sorted, readable, readableFields_iff]
    rw [readable, readableFields_iff] at h
    intro f hf
    obtain ⟨f', hf', rfl⟩ := mem_ofList_sortedFields hf
    exact readable_sorted (h f' hf')
termination_by sizeOf j
decreasing_by
  · have := List.sizeOf_lt_of_mem hitem
    simp only [arr.sizeOf_spec]
    omega
  · have := List.sizeOf_lt_of_mem hf'
    obtain ⟨k, v⟩ := f'
    simp only [obj.sizeOf_spec, Prod.mk.sizeOf_spec] at this ⊢
    omega

theorem isNull_sorted (j : Json) : j.sorted.isNull = j.isNull := by
  cases j <;> rfl

section
variable {α : Type} {read : Json → Option α} {write : α → Json}

/-- what is read from the document `j` is read again from the document it is written to, and that
one is null only if `j` is -/
def ReadsBackFrom (read : Json → Option α) (write : α → Json) (j : Json) : Prop :=
  ∀ x, read j = some x → read (write x) = some x ∧ ((write x).isNull = true → j.isNull = true)

/-- what is read from any document is read again from the document it is written to -/
def ReadsBack (read : Json → Option α) (write : α → Json) : Prop := ∀ j, ReadsBackFrom read write j

theorem ReadsBack.again (h : ReadsBack read write) {j : Json} {x : α} (hx : read j = some x) :
    read (write x) = some x :=
  (h j x hx).1

/-- documents that are never null -/
theorem readsBack_of_notNull (hnull : ∀ x, (write x).isNull = false)
    (h : ∀ j x, read j = some x → read (write x) = some x) : ReadsBack read write :=
  fun j x hx => ⟨h j x hx, fun hx => absurd ((hnull x).symm.trans hx) Bool.false_ne_true⟩

theorem readsBack_str : ReadsBack str? .str :=
  readsBack_of_notNull (fun _ => rfl) fun _ _ _ => rfl

theorem readsBack_bool : ReadsBack bool? .bool :=
  readsBack_of_notNull (fun _ => rfl) fun _ _ _ => rfl

theorem readsBack_int64 : ReadsBack int64? .int :=
  readsBack_of_notNull (fun _ => rfl) fun _ _ h => int64?_int h

theorem int32?_int {j : Json} {n : Int} (h : int32? j = some n) : int32? (.int n) = some n := by
  unfold int32? at h
  split at h
  · split at h
    · cases h
      rename_i hfits
      exact if_pos hfits
    · cases h
  · cases h

theorem readsBack_int32 : ReadsBack int32? .int :=
  readsBack_of_notNull (fun _ => rfl) fun _ _ h => int32?_int h

/-- a document is kept in its order -/
theorem readsBack_value : ReadsBack value? id := by
  intro j x hx
  rw [value?] at hx
  split at hx
  · rename_i hreadable
    cases hx
    refine ⟨?_, fun hnull => (isNull_sorted j).symm.trans hnull⟩
    rw [id, value?, if_pos (readable_sorted hreadable), stored_sorted j]
  · cases hx

/-- one of some values that have names -/
theorem readsBack_choice {choices : List (String × α)} {text : α → String}
    (h : ∀ x, choice? choices (.str (text x)) = some x) :
    ReadsBack (choice? choices) (fun x => .str (text x)) :=
  readsBack_of_notNull (fun _ => rfl) fun _ x _ => h x

theorem readsBackFrom_arr {items : List Json} (h : ∀ item ∈ items, ReadsBackFrom read write item) :
    ReadsBackFrom (list? read) (fun xs => .arr (xs.map write)) (.arr items) := by
  intro xs hxs
  refine ⟨list?_map ?_, fun hnull => nomatch hnull⟩
  rw [list?] at hxs
  induction items generalizing xs with
  | nil =>
    cases hxs
    exact fun _ hx => absurd hx List.not_mem_nil
  | cons item items ih =>
    obtain ⟨hitem, hitems⟩ := List.forall_mem_cons.mp h
    rw [List.mapM_cons] at hxs
    obtain ⟨x, hx, hxs⟩ := Option.bind_eq_some_iff.mp hxs
    obtain ⟨rest, hrest, hxs⟩ := Option.bind_eq_some_iff.mp hxs
    cases hxs
    exact List.forall_mem_cons.mpr ⟨(hitem x hx).1, ih hitems rest hrest⟩

/-- it is enough that what is read from the parts of a document is read again -/
theorem readsBackFrom_list {j : Json}
    (h : ∀ item, sizeOf item < sizeOf j → ReadsBackFrom read write item) :
    ReadsBackFrom (list? read) (fun xs => .arr (xs.map write)) j := by
  intro xs hxs
  cases j with
  | arr items =>
    refine readsBackFrom_arr (fun item hitem => h item ?_) xs hxs
    have := List.sizeOf_lt_of_mem hitem
    simp only [arr.sizeOf_spec]
    omega
  | _ => cases hxs

theorem ReadsBack.list (h : ReadsBack read write) :
    ReadsBack (list? read) (fun xs => .arr (xs.map write)) :=
  fun _ => readsBackFrom_list fun item _ => h item

theorem readsBack_strings : ReadsBack (list? str?) ofStrings := readsBack_str.list

end

theorem mapM_mapValues_str (d : Dict String) :
    (Dict.mapValues Json.str d).mapM (fun f => (str? f.2).map (f.1, ·)) = some d := by
  induction d with
  | nil => rfl
  | cons e d ih =>
    have hcons : Dict.mapValues Json.str (e :: d) = (e.1, .str e.2) :: Dict.mapValues .str d := rfl
    rw [hcons, List.mapM_cons, ih]
    rfl

theorem ordered_of_dict? {α : Type} {read : Json → Option α} {j : Json} {d : Dict α}
    (h : dict? read j = some d) : Dict.Ordered d := by
  cases j with
  | obj fields =>
    obtain ⟨entries, _, rfl⟩ := Option.map_eq_some_iff.mp h
    exact Dict.ordered_ofList entries
  | _ => cases h

theorem readsBack_stringDict : ReadsBack (dict? str?) ofStringDict := by
  refine readsBack_of_notNull (fun _ => rfl) fun j d h => ?_
  rw [ofStringDict, dict?, mapM_mapValues_str]
  exact congrArg some (Dict.ofList_of_ordered (ordered_of_dict? h))

end Json

namespace Record

/-- the record has the fields that are written, those without a value being absent -/
def Gives (r : Record) (fields : List (String × Option Json)) : Prop :=
  ∀ name, r.get? name = (Dict.get? name fields).join

theorem exists_open?_ofFields {fields : List (String × Option Json)}
    (h : (fields.map Prod.fst).Nodup) (names : List String) :
    ∃ r, open? names (.ofFields fields) = some r ∧ r.Gives fields :=
  ⟨_, open?_of_nodup (Json.nodup_filterMap h) names, Json.get?_filterMap h⟩

section
variable {α : Type} {read : Json → Option α} {write : α → Json} {r r' : Record} {name : String}

theorem required_again (hback : Json.ReadsBack read write) {x : α}
    (h : r.required name read = some x) (hget : r'.get? name = some (write x)) :
    r'.required name read = some x := by
  rw [required, hget]
  unfold required at h
  split at h
  · exact hback.again h
  · cases h

theorem optional_again (hback : Json.ReadsBack read write) {x : Option α}
    (h : r.optional name read = some x) (hget : r'.get? name = x.map write) :
    r'.optional name read = some x := by
  rw [optional, hget]
  cases x with
  | none => rfl
  | some x =>
    unfold optional orNull at h
    split at h
    · rename_i j _
      split at h
      · cases h
      · rename_i hj
        obtain ⟨y, hy, heq⟩ := Option.map_eq_some_iff.mp h
        cases heq
        obtain ⟨hagain, hnull⟩ := hback j x hy
        have hread : orNull read (write x) = (read (write x)).map some :=
          if_neg fun h => hj (hnull h)
        exact hread.trans (congrArg (Option.map some) hagain)
    · cases h

variable {default : α}

/-- a field that is always written; the default can be read back too -/
theorem defaulted_again (hback : Json.ReadsBack read write)
    (hdefault : read (write default) = some default) {x : α}
    (h : r.defaulted name default read = some x) (hget : r'.get? name = some (write x)) :
    r'.defaulted name default read = some x := by
  rw [defaulted, hget]
  unfold defaulted at h
  split at h
  · exact hback.again h
  · cases h
    exact hdefault

/-- a field that is left out when it has its default -/
theorem defaulted_spared {x : α} {c : Prop} [Decidable c]
    (hback : ∀ j, r.get? name = some j → Json.ReadsBackFrom read write j) (hc : c ↔ x = default)
    (h : r.defaulted name default read = some x)
    (hget : r'.get? name = if c then none else some (write x)) :
    r'.defaulted name default read = some x := by
  rw [defaulted, hget]
  by_cases hx : c
  · rw [if_pos hx, hc.mp hx]
  · rw [if_neg hx]
    unfold defaulted at h
    split at h
    · rename_i j hj
      exact (hback j hj x h).1
    · cases h
      exact absurd (hc.mpr rfl) hx

/-- a text that is left out when it is empty -/
theorem text_spared {x : String} (h : r.defaulted name "" Json.str? = some x)
    (hget : r'.get? name = if x = "" then none else some (.str x)) :
    r'.defaulted name "" Json.str? = some x :=
  defaulted_spared (fun j _ => Json.readsBack_str j) Iff.rfl h hget

/-- a list that is left out when it is empty -/
theorem list_spared (hback : Json.ReadsBack read write) {xs : List α}
    (h : r.defaulted name [] (Json.list? read) = some xs)
    (hget : r'.get? name = if xs.isEmpty then none else some (.arr (xs.map write))) :
    r'.defaulted name [] (Json.list? read) = some xs :=
  defaulted_spared (fun j _ => hback.list j) List.isEmpty_iff h hget

end

/-- the fields of a record can be read back from any record that has them -/
theorem readsBack {α : Type} {names : List String} {f : Record → Option α}
    {fields : α → List (String × Option Json)} (hnames : names.Nodup)
    (hfields : ∀ x, (fields x).map Prod.fst = names)
    (h : ∀ r r' x, f r = some x → r'.Gives (fields x) → f r' = some x) :
    Json.ReadsBack (fun j => open? names j >>= f) (fun x => .ofFields (fields x)) := by
  refine Json.readsBack_of_notNull (fun _ => rfl) fun j x hx => ?_
  obtain ⟨r, _, hx⟩ := Option.bind_eq_some_iff.mp hx
  obtain ⟨r', hopen, hgives⟩ := exists_open?_ofFields ((hfields x).symm ▸ hnames) names
  rw [hopen]
  exact h r r' x hx hgives

/-- the same for a record whose fields always have a value -/
theorem readsBack_full {α : Type} {names : List String} {f : Record → Option α}
    {fields : α → List (String × Json)} (hnames : names.Nodup)
    (hfields : ∀ x, (fields x).map Prod.fst = names)
    (h : ∀ r r' x, f r = some x → (∀ name, r'.get? name = Dict.get? name (fields x)) →
      f r' = some x) :
    Json.ReadsBack (fun j => open? names j >>= f) (fun x => .obj (fields x)) := by
  refine Json.readsBack_of_notNull (fun _ => rfl) fun j x hx => ?_
  obtain ⟨r, _, hx⟩ := Option.bind_eq_some_iff.mp hx
  rw [open?_of_nodup ((hfields x).symm ▸ hnames)]
  exact h r _ x hx fun _ => rfl

end Record

end ReleaseUpgrade
