import ReleaseUpgrade.Object.Selector
import ReleaseUpgrade.Proofs.Json.RoundTrip

/-!
# Selectors and tolerations are read back

In objects of the cluster's own types a field that is null counts as missing.

* `Shape.readsBack`  it is enough that the members of such an object can be read back.
-/

namespace ReleaseUpgrade

namespace Shape

/-- no field is null -/
def NoNull (fields : Dict Json) : Prop := ∀ f ∈ fields, f.2.isNull = false

theorem noNull_of_open? {j : Json} {fields : Dict Json} (h : open? j = some fields) :
    NoNull fields := by
  cases j with
  | obj all =>
    cases h
    intro f hf
    have hkept := (List.mem_filter.mp hf).2
    rwa [Bool.not_eq_true'] at hkept
  | _ => cases h

variable {α : Type} {read : Json → Option α} {write : α → Json}

/-- a member that is there is not null -/
theorem member?_eq_optional {fields : Dict Json} (h : NoNull fields) (name : String) :
    member? fields name read = Record.optional ⟨fields, false⟩ name read := by
  unfold member? Record.optional Record.get?
  cases hj : Dict.get? name fields with
  | none => rfl
  | some j =>
    have hnull : j.isNull = false := h _ (Record.mem_of_get? hj)
    exact (if_neg (ne_true_of_eq_false hnull)).symm

/-- an object whose fields are written without a null has all of them -/
theorem exists_open?_ofFields {fields : List (String × Option Json)}
    (hnames : (fields.map Prod.fst).Nodup) (hnull : ∀ f ∈ fields, ∀ j ∈ f.2, j.isNull = false) :
    ∃ fs, open? (.ofFields fields) = some fs ∧ Record.Gives ⟨fs, false⟩ fields := by
  refine ⟨_, rfl, fun name => ?_⟩
  have hentry : NoNull (Dict.ofList (fields.filterMap fun f => f.2.map (f.1, ·))) := by
    intro e he
    obtain hnil | he := Dict.mem_of_mem_insertAll he
    · cases hnil
    · obtain ⟨f, hf, he⟩ := List.mem_filterMap.mp he
      obtain ⟨j, hj, rfl⟩ := Option.map_eq_some_iff.mp he
      exact hnull f hf j hj
  have hkeep : ∀ e ∈ Dict.ofList (fields.filterMap fun f => f.2.map (f.1, ·)),
      (!e.2.isNull) = true := fun e he => (Bool.not_eq_true' _).mpr (hentry e he)
  rw [Record.get?, List.filter_eq_self.mpr hkeep, Dict.ofList,
    Dict.get?_insertAll (Json.nodup_filterMap hnames), Json.get?_filterMap hnames]
  exact Option.or_none

/-- the members of an object can be read back from any object that has them -/
theorem readsBack (names : List String) {f : Dict Json → Option α}
    {fields : α → List (String × Option Json)} (hnames : names.Nodup)
    (hfields : ∀ x, (fields x).map Prod.fst = names)
    (hnull : ∀ x, ∀ e ∈ fields x, ∀ j ∈ e.2, j.isNull = false)
    (h : ∀ fs fs' x, NoNull fs → f fs = some x → NoNull fs' →
      Record.Gives ⟨fs', false⟩ (fields x) → f fs' = some x) :
    Json.ReadsBack (fun j => open? j >>= f) (fun x => .ofFields (fields x)) := by
  refine Json.readsBack_of_notNull (fun _ => rfl) fun j x hx => ?_
  obtain ⟨fs, hfs, hx⟩ := Option.bind_eq_some_iff.mp hx
  obtain ⟨fs', hfs', hgives⟩ := exists_open?_ofFields ((hfields x).symm ▸ hnames) (hnull x)
  rw [hfs']
  exact h fs fs' x (noNull_of_open? hfs) hx (noNull_of_open? hfs') hgives

theorem member?_again (hback : Json.ReadsBack read write) {fs fs' : Dict Json} {name : String}
    {x : Option α} (hnull : NoNull fs) (h : member? fs name read = some x) (hnull' : NoNull fs')
    (hget : Record.get? ⟨fs', false⟩ name = x.map write) : member? fs' name read = some x := by
  rw [member?_eq_optional hnull] at h
  rw [member?_eq_optional hnull']
  exact Record.optional_again hback h hget

theorem memberOr_again (hback : Json.ReadsBack read write) {fs fs' : Dict Json} {name : String}
    {default x : α} (hdefault : read (write default) = some default)
    (h : memberOr fs name default read = some x)
    (hget : Record.get? ⟨fs', false⟩ name = some (write x)) :
    memberOr fs' name default read = some x :=
  Record.defaulted_again (r := ⟨fs, false⟩) hback hdefault h hget

end Shape

theorem Requirement.readsBack : Json.ReadsBack ofJson? toJson := by
  refine Shape.readsBack ["key", "operator", "values"] (by decide) (fun _ => rfl)
    (fun r => ?_) fun fs fs' r hnull h hnull' hgives => ?_
  · simp [Json.isNull, Json.ofStrings]
  · simp only [Option.bind_eq_bind, Option.bind_eq_some_iff] at h ⊢
    obtain ⟨_, hkey, _, hoperator, _, hvalues, heq⟩ := h
    cases heq
    exact ⟨_, Shape.memberOr_again Json.readsBack_str rfl hkey (hgives _),
      _, Shape.memberOr_again Json.readsBack_str rfl hoperator (hgives _),
      _, Shape.member?_again Json.readsBack_strings hnull hvalues hnull' (hgives _), rfl⟩

theorem LabelSelector.readsBack : Json.ReadsBack ofJson? toJson := by
  refine Shape.readsBack ["matchExpressions", "matchLabels"] (by decide) (fun _ => rfl)
    (fun s => ?_) fun fs fs' s hnull h hnull' hgives => ?_
  · simp [Json.isNull, Json.ofStringDict]
  · simp only [Option.bind_eq_bind, Option.bind_eq_some_iff] at h ⊢
    obtain ⟨_, hexpressions, _, hlabels, heq⟩ := h
    cases heq
    exact ⟨_, Shape.member?_again Requirement.readsBack.list hnull hexpressions hnull' (hgives _),
      _, Shape.member?_again Json.readsBack_stringDict hnull hlabels hnull' (hgives _), rfl⟩

theorem Toleration.readsBack : Json.ReadsBack ofJson? toJson := by
  refine Shape.readsBack ["key", "operator", "value", "effect", "tolerationSeconds"] (by decide)
    (fun _ => rfl) (fun t => ?_) fun fs fs' t hnull h hnull' hgives => ?_
  · simp [Json.isNull]
  · simp only [Option.bind_eq_bind, Option.bind_eq_some_iff] at h ⊢
    obtain ⟨_, hkey, _, hoperator, _, hvalue, _, heffect, _, hseconds, heq⟩ := h
    cases heq
    exact ⟨_, Shape.member?_again Json.readsBack_str hnull hkey hnull' (hgives _),
      _, Shape.member?_again Json.readsBack_str hnull hoperator hnull' (hgives _),
      _, Shape.member?_again Json.readsBack_str hnull hvalue hnull' (hgives _),
      _, Shape.member?_again Json.readsBack_str hnull heffect hnull' (hgives _),
      _, Shape.member?_again Json.readsBack_int64 hnull hseconds hnull' (hgives _), rfl⟩

end ReleaseUpgrade
