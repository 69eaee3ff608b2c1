import ReleaseUpgrade.Helm.Chart
import ReleaseUpgrade.Proofs.Json.RoundTrip

/-!
# Chart resources are read back

A chart resource keeps the fields that others manage.  They are written after the known ones, and
reading finds them again because none of them has the name of a known field.

* `Record.Carried`             fields that are kept as they are;
* `Record.readsBack_carrying`  a record with such fields can be read back;
* `HelmChartSpec.readsBack`, `HelmChartStatus.readsBack`.
-/

namespace ReleaseUpgrade

namespace Record

/-- fields that are kept beside those of the given names: readable and in their order -/
structure Carried (names : List String) (extra : Dict Json) : Prop where
  ordered : Dict.Ordered extra
  apart : ∀ e ∈ extra, e.1 ∉ names
  stored : ∀ e ∈ extra, e.2.Stored
  readable : ∀ e ∈ extra, e.2.readable = true

section
variable {names : List String}

/-- such a record is an object, with each known field at most once -/
theorem obj_of_openObject? {j : Json} {r : Record} (h : openObject? names j = some r) :
    ∃ fields, j = .obj fields ∧ r = ⟨fields, false⟩ ∧ distinct names fields = true ∧
      Json.readableFields fields = true := by
  cases j with
  | obj fields =>
    rw [openObject?] at h
    split at h
    · rename_i hfields
      cases h
      exact ⟨fields, rfl, rfl, Bool.and_eq_true_iff.mp hfields⟩
    · cases h
  | _ => cases h

theorem carried_rest {j : Json} {r : Record} (h : openObject? names j = some r) :
    Carried names (r.rest names) := by
  obtain ⟨fields, rfl, rfl, _, hreadable⟩ := obj_of_openObject? h
  have horigin : ∀ e ∈ rest ⟨fields, false⟩ names, ∃ f ∈ fields, f.1 ∉ names ∧
      e = (f.1, f.2.sorted) := by
    intro e he
    obtain ⟨f, hf, rfl⟩ := Json.mem_ofList_sortedFields he
    obtain ⟨hf, hname⟩ := List.mem_filter.mp hf
    refine ⟨f, hf, fun hmem => ?_, rfl⟩
    rw [List.contains_iff_mem.mpr hmem] at hname
    cases hname
  refine ⟨Dict.ordered_ofList _, fun e he => ?_, fun e he => ?_, fun e he => ?_⟩
  · obtain ⟨f, _, hname, rfl⟩ := horigin e he
    exact hname
  · obtain ⟨f, _, _, rfl⟩ := horigin e he
    exact Json.stored_sorted f.2
  · obtain ⟨f, hf, _, rfl⟩ := horigin e he
    exact Json.readable_sorted (Json.readableFields_iff.mp hreadable f hf)

variable {fields : List (String × Option Json)} {extra : Dict Json}

theorem mem_names_of_mem_filterMap (hfields : fields.map Prod.fst = names) {e : String × Json}
    (he : e ∈ fields.filterMap fun f => f.2.map (f.1, ·)) : e.1 ∈ names := by
  obtain ⟨f, hf, he⟩ := List.mem_filterMap.mp he
  obtain ⟨j, _, rfl⟩ := Option.map_eq_some_iff.mp he
  exact hfields ▸ List.mem_map_of_mem hf

/-- no field is written twice -/
theorem Carried.nodup_keys (h : Carried names extra) (hnames : names.Nodup)
    (hfields : fields.map Prod.fst = names) :
    (((fields.filterMap fun f => f.2.map (f.1, ·)) ++ extra).map Prod.fst).Nodup := by
  have hnodup : (fields.map Prod.fst).Nodup := hfields.symm ▸ hnames
  rw [List.map_append]
  refine List.nodup_append.mpr ⟨Json.nodup_filterMap hnodup, h.ordered.nodup_keys, ?_⟩
  intro k hk k' hk' heq
  obtain ⟨e, he, rfl⟩ := List.mem_map.mp hk
  obtain ⟨e', he', rfl⟩ := List.mem_map.mp hk'
  exact h.apart e' he' (heq ▸ mem_names_of_mem_filterMap hfields he)

/-- the fields that are carried follow those of the record -/
theorem exists_openObject? (hnames : names.Nodup) (hfields : fields.map Prod.fst = names)
    (hreadable : ∀ f ∈ fields, ∀ j ∈ f.2, j.readable = true) (h : Carried names extra) :
    ∃ r, openObject? names (.obj ((fields.filterMap fun f => f.2.map (f.1, ·)) ++ extra)) = some r ∧
      (∀ name ∈ names, r.get? name = (Dict.get? name fields).join) ∧ r.rest names = extra := by
  have hknown : ∀ e ∈ fields.filterMap fun f => f.2.map (f.1, ·), e.1 ∈ names :=
    fun e he => mem_names_of_mem_filterMap hfields he
  have hnodup : (fields.map Prod.fst).Nodup := hfields.symm ▸ hnames
  have hkeys := h.nodup_keys hnames hfields
  have hall : Json.readableFields ((fields.filterMap fun f => f.2.map (f.1, ·)) ++ extra) =
      true := by
    refine Json.readableFields_iff.mpr fun e he => ?_
    obtain he | he := List.mem_append.mp he
    · obtain ⟨f, hf, he⟩ := List.mem_filterMap.mp he
      obtain ⟨j, hj, rfl⟩ := Option.map_eq_some_iff.mp he
      exact hreadable f hf j hj
    · exact h.readable e he
  refine ⟨_, if_pos (Bool.and_eq_true_iff.mpr ⟨distinct_of_nodup hkeys names, hall⟩),
    fun name hname => ?_, ?_⟩
  · have hnone : Dict.get? name extra = none :=
      Dict.get?_eq_none fun e he heq => h.apart e he (heq ▸ hname)
    rw [get?, Dict.get?_append, hnone, Option.or_none, Json.get?_filterMap hnodup]
  · have hdrop : Dict.eraseAll names (fields.filterMap fun f => f.2.map (f.1, ·)) = [] := by
      refine List.filter_eq_nil_iff.mpr fun e he hkept => ?_
      rw [List.contains_iff_mem.mpr (hknown e he)] at hkept
      cases hkept
    have hkeep : Dict.eraseAll names extra = extra := by
      refine List.filter_eq_self.mpr fun e he => ?_
      rw [Bool.not_eq_true', ← Bool.not_eq_true, List.contains_iff_mem]
      exact h.apart e he
    have hsplit : Dict.eraseAll names ((fields.filterMap fun f => f.2.map (f.1, ·)) ++ extra) =
        extra := by
      rw [Dict.eraseAll, List.filter_append]
      show Dict.eraseAll names _ ++ Dict.eraseAll names extra = extra
      rw [hdrop, hkeep, List.nil_append]
    rw [rest, hsplit, Json.sortedFields_of_stored h.stored, Dict.ofList_of_ordered h.ordered]

/-- the fields of a record can be read back, together with those that it carries -/
theorem readsBack_carrying {α : Type} {f : Record → Option α}
    {fields : α → List (String × Option Json)} {extra : α → Dict Json} (hnames : names.Nodup)
    (hfields : ∀ x, (fields x).map Prod.fst = names)
    (hreadable : ∀ x, ∀ e ∈ fields x, ∀ j ∈ e.2, j.readable = true)
    (hextra : ∀ r x, f r = some x → extra x = r.rest names)
    (h : ∀ r r' x, f r = some x →
      (∀ name ∈ names, r'.get? name = (Dict.get? name (fields x)).join) →
      r'.rest names = extra x → f r' = some x) :
    Json.ReadsBack (fun j => openObject? names j >>= f)
      (fun x => .obj (((fields x).filterMap fun e => e.2.map (e.1, ·)) ++ extra x)) := by
  refine Json.readsBack_of_notNull (fun _ => rfl) fun j x hx => ?_
  obtain ⟨r, hr, hx⟩ := Option.bind_eq_some_iff.mp hx
  have hcarried : Carried names (extra x) := hextra r x hx ▸ carried_rest hr
  obtain ⟨r', hopen, hgives, hrest⟩ :=
    exists_openObject? hnames (hfields x) (hreadable x) hcarried
  rw [hopen]
  exact h r r' x hx hgives hrest

end

end Record

namespace HelmChartSpec

/-- the known fields as they are written -/
def written (s : HelmChartSpec) : List (String × Option Json) := [
  ("targetNamespace", filled s.targetNamespace),
  ("chart", filled s.chart),
  ("version", filled s.version),
  ("repo", filled s.repo),
  ("valuesContent", filled s.valuesContent),
  ("chartContent", filled s.chartContent),
  ("backOffLimit", s.backOffLimit.map Json.int)]

theorem readable_of_filled {s : String} {j : Json} (h : j ∈ filled s) : j.readable = true := by
  unfold filled at h
  split at h
  · cases h
  · cases h
    rfl

theorem readable_written (s : HelmChartSpec) : ∀ e ∈ s.written, ∀ j ∈ e.2, j.readable = true := by
  simp only [written, List.forall_mem_cons]
  refine ⟨fun _ => readable_of_filled, fun _ => readable_of_filled, fun _ => readable_of_filled,
    fun _ => readable_of_filled, fun _ => readable_of_filled, fun _ => readable_of_filled,
    fun j hj => ?_, fun _ h => absurd h List.not_mem_nil⟩
  obtain ⟨n, _, rfl⟩ := Option.map_eq_some_iff.mp hj
  rfl

theorem readsBack : Json.ReadsBack ofJson? toJson := by
  refine Record.readsBack_carrying (by decide) (fun _ => rfl) readable_written (fun r s h => ?_)
    fun r r' s h hgives hrest => ?_
  · simp only [Option.bind_eq_bind, Option.bind_eq_some_iff] at h
    obtain ⟨_, _, _, _, _, _, _, _, _, _, _, _, _, _, heq⟩ := h
    cases heq
    rfl
  · simp only [Option.bind_eq_bind, Option.bind_eq_some_iff] at h ⊢
    obtain ⟨_, htarget, _, hchart, _, hversion, _, hrepo, _, hvalues, _, hcontent, _, hlimit,
      heq⟩ := h
    cases heq
    exact ⟨_, Record.text_spared htarget (hgives _ (by decide)),
      _, Record.text_spared hchart (hgives _ (by decide)),
      _, Record.text_spared hversion (hgives _ (by decide)),
      _, Record.text_spared hrepo (hgives _ (by decide)),
      _, Record.text_spared hvalues (hgives _ (by decide)),
      _, Record.text_spared hcontent (hgives _ (by decide)),
      _, Record.optional_again Json.readsBack_int32 hlimit (hgives _ (by decide)), by rw [hrest]⟩

end HelmChartSpec

namespace HelmChartStatus

/-- the known field as it is written -/
def written (s : HelmChartStatus) : List (String × Option Json) :=
  [("jobName", some (.str s.jobName))]

theorem readsBack : Json.ReadsBack ofJson? toJson := by
  show Json.ReadsBack ofJson? fun s =>
    .obj ((s.written.filterMap fun e => e.2.map (e.1, ·)) ++ s.extra)
  refine Record.readsBack_carrying (by decide) (fun _ => rfl) (fun s => ?_) (fun r s h => ?_)
    fun r r' s h hgives hrest => ?_
  · simp [written, Json.readable]
  · simp only [Option.bind_eq_bind, Option.bind_eq_some_iff] at h
    obtain ⟨_, _, heq⟩ := h
    cases heq
    rfl
  · simp only [Option.bind_eq_bind, Option.bind_eq_some_iff] at h ⊢
    obtain ⟨_, hjob, heq⟩ := h
    cases heq
    exact ⟨_, Record.defaulted_again Json.readsBack_str rfl hjob (hgives _ (by decide)),
      by rw [hrest]⟩

end HelmChartStatus

end ReleaseUpgrade
