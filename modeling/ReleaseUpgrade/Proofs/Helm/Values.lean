import Mathlib.Data.List.Sort
import ReleaseUpgrade.Proofs.Chart.Fault
import ReleaseUpgrade.Proofs.Yaml.Document

/-!
# Layers of values

The values of a chart are those that it has, with the values of the release over them and those of
the user over both.  A layer is laid over what is there by a mutual recursion through two nested
objects; here its result is told from the layers, path by path.

* `Overlaid`              wherever both have an object, how each field comes out;
* `overlaid_merge`        one layer over another comes out so;
* `layered_by_paths`      all three layers, and what becomes of a layer that is no object;
* `merge_merge_merge`     the same two layers over their own result change nothing;
* `layered_again`         so the text that has been written is written again.
-/

namespace ReleaseUpgrade

theorem Dict.Ordered.ext {α : Type} {d e : Dict α} (hd : Ordered d) (he : Ordered e)
    (h : ∀ k, get? k d = get? k e) : d = e := by
  have hirrefl : Std.Irrefl fun x y : String × α => x.1 < y.1 := ⟨fun x => String.lt_irrefl x.1⟩
  have hantisymm : Std.Antisymm fun x y : String × α => x.1 < y.1 :=
    ⟨fun x y hxy hyx => absurd (String.lt_trans hxy hyx) (String.lt_irrefl x.1)⟩
  refine hd.eq_of_mem_iff he fun x => ⟨fun hx => ?_, fun hx => ?_⟩
  · exact Record.mem_of_get? ((h x.1).symm.trans (hd.get?_of_mem hx))
  · exact Record.mem_of_get? ((h x.1).trans (he.get?_of_mem hx))

theorem Json.Stored.ext {d e : Dict Json} (hd : (Json.obj d).Stored) (he : (Json.obj e).Stored)
    (h : ∀ k, Dict.get? k d = Dict.get? k e) : d = e :=
  hd.ordered_fieldsOr.ext he.ordered_fieldsOr h

namespace Values
open Json (at? isObject)

/-! ## one layer over another -/

theorem overlay_obj (b t : Dict Json) : overlay (some (.obj b)) (.obj t) = .obj (merge b t) := by
  rw [overlay, merge]

/-- two objects are merged; any other value is taken over -/
theorem overlay_cases (below : Option Json) (j : Json) :
    (∃ b t, below = some (.obj b) ∧ j = .obj t ∧ overlay below j = .obj (merge b t)) ∨
      overlay below j = j ∧ (j.isObject = false ∨ ∀ b, below ≠ some (.obj b)) := by
  unfold overlay
  split
  · rename_i b t
    exact .inl ⟨b, t, rfl, rfl, rfl⟩
  · rename_i hboth
    refine .inr ⟨rfl, ?_⟩
    cases j with
    | obj t => exact .inr fun b hb => hboth b t hb rfl
    | _ => exact .inl rfl

/-- a field after a layer -/
def atop (below : Option Json) : Option Json → Option Json
  | none => below
  | some j => some (overlay below j)

theorem get?_merge {top : Dict Json} (h : (top.map Prod.fst).Nodup) (k : String)
    (base : Dict Json) :
    Dict.get? k (merge base top) = atop (Dict.get? k base) (Dict.get? k top) := by
  unfold merge
  induction top generalizing base with
  | nil => rfl
  | cons e rest ih =>
    obtain ⟨hnew, hrest⟩ := List.nodup_cons.mp h
    rw [mergeFields, ih hrest, Dict.get?_insert, Dict.get?_cons]
    by_cases hk : e.1 = k
    · -- the key does not come again
      have hnone : Dict.get? k rest = none := Dict.get?_eq_none fun x hx heq =>
        hnew (List.mem_map.mpr ⟨x, hx, heq.trans hk.symm⟩)
      rw [if_pos hk, if_pos hk, hnone, hk]
      rfl
    · rw [if_neg hk, if_neg hk]

theorem nodup_of_stored {fields : Dict Json} (h : (Json.obj fields).Stored) :
    (fields.map Prod.fst).Nodup := h.ordered_fieldsOr.nodup_keys

/-- how a field comes out under a layer -/
inductive FieldLaw : (below above result : Option Json) → Prop
  /-- the layer has no such field -/
  | kept (below) : FieldLaw below none below
  | taken (below j) : j.isObject = false → FieldLaw below (some j) (some j)
  /-- an object over something else, or over nothing -/
  | filled (below t) : (∀ b, below ≠ some (.obj b)) →
      FieldLaw below (some (.obj t)) (some (.obj t))
  /-- two objects, whose fields have this law too -/
  | merged (b t m) : FieldLaw (some (.obj b)) (some (.obj t)) (some (.obj m))

theorem fieldLaw_atop (below above : Option Json) : FieldLaw below above (atop below above) := by
  cases above with
  | none => exact .kept below
  | some j =>
    rw [atop]
    obtain ⟨b, t, rfl, rfl, heq⟩ | ⟨heq, hj | hb⟩ := overlay_cases below j
    · rw [heq]
      exact .merged b t _
    · rw [heq]
      exact .taken below j hj
    · rw [heq]
      cases j with
      | obj t => exact .filled below t hb
      | _ => exact .taken below _ rfl

/-- wherever both documents have an object the result has one, whose fields have come out by the
law -/
def Overlaid (base top result : Dict Json) : Prop :=
  ∀ p b t, at? p (.obj base) = some (.obj b) → at? p (.obj top) = some (.obj t) →
    ∃ m, at? p (.obj result) = some (.obj m) ∧
      ∀ k, FieldLaw (Dict.get? k b) (Dict.get? k t) (Dict.get? k m)

theorem overlaid_merge {top : Dict Json} (h : (Json.obj top).Stored) (base : Dict Json) :
    Overlaid base top (merge base top) := by
  intro p
  -- the first key of a path leads from two objects to two others
  induction p generalizing base top with
  | nil =>
    intro b t hb ht
    cases hb
    cases ht
    refine ⟨_, rfl, fun k => ?_⟩
    rw [get?_merge (nodup_of_stored h)]
    exact fieldLaw_atop _ _
  | cons k p ih =>
    intro b t hb ht
    obtain ⟨b₁, hb₁, hb⟩ := Json.at?_cons_eq_some.mp hb
    obtain ⟨t₁, ht₁, ht⟩ := Json.at?_cons_eq_some.mp ht
    obtain ⟨b₁, rfl⟩ := Json.exists_obj_of_at? hb
    obtain ⟨t₁, rfl⟩ := Json.exists_obj_of_at? ht
    have hget : Dict.get? k (merge base top) = some (.obj (merge b₁ t₁)) := by
      rw [get?_merge (nodup_of_stored h), hb₁, ht₁, atop, overlay_obj]
    obtain ⟨m, hm, hlaw⟩ := ih (h.field ht₁) b₁ b t hb ht
    refine ⟨m, ?_, hlaw⟩
    rw [Json.at?_cons_obj, hget]
    exact hm

theorem Overlaid.below {base top result b t m : Dict Json} {k : String}
    (h : Overlaid base top result) (hb : Dict.get? k base = some (.obj b))
    (ht : Dict.get? k top = some (.obj t)) (hm : Dict.get? k result = some (.obj m)) :
    Overlaid b t m := by
  intro p b' t' hb' ht'
  obtain ⟨m', hm', hlaw⟩ := h (k :: p) b' t' (by rw [Json.at?_cons_obj, hb]; exact hb')
    (by rw [Json.at?_cons_obj, ht]; exact ht')
  rw [Json.at?_cons_obj, hm] at hm'
  exact ⟨m', hm', hlaw⟩

/-- the law decides a field, two objects apart -/
theorem FieldLaw.eq_or {x y z z' : Option Json} (h : FieldLaw x y z) (h' : FieldLaw x y z') :
    z = z' ∨ ∃ b t m m', x = some (.obj b) ∧ y = some (.obj t) ∧ z = some (.obj m) ∧
      z' = some (.obj m') := by
  cases h with
  | kept =>
    cases h'
    exact .inl rfl
  | taken _ _ hj =>
    cases h' with
    | taken | filled => exact .inl rfl
    | merged => cases hj
  | filled _ t hb =>
    cases h' with
    | taken | filled => exact .inl rfl
    | merged b => exact absurd rfl (hb b)
  | merged b t m =>
    cases h' with
    | taken _ _ hj => cases hj
    | filled _ _ hb => exact absurd rfl (hb b)
    | merged _ _ m' => exact .inr ⟨b, t, m, m', rfl, rfl, rfl, rfl⟩

theorem Overlaid.unique {base top m m' : Dict Json} (h : Overlaid base top m)
    (h' : Overlaid base top m') (hm : (Json.obj m).Stored) (hm' : (Json.obj m').Stored) :
    m = m' := by
  refine hm.ext hm' fun k => ?_
  obtain ⟨_, heq, hlaw⟩ := h [] base top rfl rfl
  cases heq
  obtain ⟨_, heq, hlaw'⟩ := h' [] base top rfl rfl
  cases heq
  obtain heq | ⟨b, t, m₁, m₂, hb, ht, hm₁, hm₂⟩ := (hlaw k).eq_or (hlaw' k)
  · exact heq
  · have hsame := (h.below hb ht hm₁).unique (h'.below hb ht hm₂) (hm.field hm₁) (hm'.field hm₂)
    rw [hm₁, hm₂, hsame]
termination_by sizeOf top
decreasing_by exact Json.sizeOf_lt_of_get? ht

theorem ordered_merge {base : Dict Json} (h : Dict.Ordered base) (top : Dict Json) :
    Dict.Ordered (merge base top) := by
  unfold merge
  induction top generalizing base with
  | nil => exact h
  | cons e rest ih => exact ih (h.insert e.1 _)

theorem stored_merge {top base : Dict Json} (htop : (Json.obj top).Stored)
    (hbase : (Json.obj base).Stored) : (Json.obj (merge base top)).Stored := by
  have hordered := ordered_merge hbase.ordered_fieldsOr top
  refine Json.stored_obj_iff.mpr ⟨hordered, fun e he => ?_⟩
  have hget := hordered.get?_of_mem he
  rw [get?_merge (nodup_of_stored htop)] at hget
  cases hv : Dict.get? e.1 top with
  | none =>
    rw [hv] at hget
    exact hbase.field hget
  | some v =>
    rw [hv] at hget
    have he : e.2 = overlay (Dict.get? e.1 base) v := (Option.some.inj hget).symm
    obtain ⟨b, t, hb, rfl, heq⟩ | ⟨heq, _⟩ := overlay_cases (Dict.get? e.1 base) v
    · rw [he, heq]
      exact stored_merge (htop.field hv) (hbase.field hb)
    · rw [he, heq]
      exact htop.field hv
termination_by sizeOf top
decreasing_by exact Json.sizeOf_lt_of_get? hv

/-- what is no object in a layer stands where it stood there -/
theorem at?_merge_of_isObject {p : List String} {top : Dict Json} (h : (Json.obj top).Stored)
    (base : Dict Json) {j : Json} (hj : at? p (.obj top) = some j) (hleaf : j.isObject = false) :
    at? p (.obj (merge base top)) = some j := by
  induction p generalizing base top with
  | nil =>
    cases hj
    cases hleaf
  | cons k p ih =>
    obtain ⟨v, hv, hj⟩ := Json.at?_cons_eq_some.mp hj
    rw [Json.at?_cons_obj, get?_merge (nodup_of_stored h), hv]
    show at? p (overlay (Dict.get? k base) v) = some j
    obtain ⟨b, t, _, rfl, heq⟩ | ⟨heq, _⟩ := overlay_cases (Dict.get? k base) v
    · rw [heq]
      exact ih (h.field hv) b hj
    · rw [heq]
      exact hj

/-- the path is not one of the layer and does not lead through a value of it that is no object -/
def Apart (p : List String) (top : Dict Json) : Prop :=
  at? p (.obj top) = none ∧ ∀ q j, q <+: p → at? q (.obj top) = some j → j.isObject = true

theorem at?_merge_of_apart {p : List String} {top : Dict Json} (h : (Json.obj top).Stored)
    (hp : Apart p top) (base : Dict Json) :
    at? p (.obj (merge base top)) = at? p (.obj base) := by
  induction p generalizing base top with
  | nil => cases hp.1
  | cons k p ih =>
    rw [Json.at?_cons_obj, Json.at?_cons_obj, get?_merge (nodup_of_stored h)]
    cases hv : Dict.get? k top with
    | none => rfl
    | some v =>
      -- the value in the layer is an object, without the rest of the path
      have hv' : at? [k] (.obj top) = some v := Json.at?_cons_eq_some.mpr ⟨v, hv, rfl⟩
      have hobject : v.isObject = true := hp.2 [k] v (List.prefix_append [k] p) hv'
      have hnone : at? p v = none := by
        have hnone := hp.1
        rwa [Json.at?_cons_obj, hv] at hnone
      show at? p (overlay (Dict.get? k base) v) = (Dict.get? k base).bind (at? p)
      obtain ⟨b, t, hb, rfl, heq⟩ | ⟨heq, hj | hb⟩ := overlay_cases (Dict.get? k base) v
      · rw [heq, hb]
        refine ih (h.field hv) ⟨hnone, fun q j hq hj => ?_⟩ b
        exact hp.2 (k :: q) j (List.cons_prefix_cons.mpr ⟨rfl, hq⟩)
          (Json.at?_cons_eq_some.mpr ⟨_, hv, hj⟩)
      · rw [hj] at hobject
        cases hobject
      · rw [heq, hnone]
        cases p with
        | nil => cases hnone
        | cons l p =>
          cases hbase : Dict.get? k base with
          | none => rfl
          | some v' =>
            have hv' : v'.isObject = false := by
              cases v' with
              | obj b => exact absurd hbase (hb b)
              | _ => rfl
            exact (Json.at?_cons_eq_none hv' l p).symm

/-! ## the same layers once more -/

theorem stored_nil : (Json.obj []).Stored := rfl

theorem merge_nil_left {top : Dict Json} (h : (Json.obj top).Stored) : merge [] top = top := by
  refine (stored_merge h stored_nil).ext h fun k => ?_
  rw [get?_merge (nodup_of_stored h), Dict.get?_nil]
  cases Dict.get? k top with
  | none => rfl
  | some j =>
    obtain ⟨_, _, hb, _⟩ | ⟨heq, _⟩ := overlay_cases none j
    · cases hb
    · rw [atop, heq]

theorem atop_of_isObject {j : Json} (h : j.isObject = false) (below : Option Json) :
    atop below (some j) = some j := by
  obtain ⟨_, _, _, rfl, _⟩ | ⟨heq, _⟩ := overlay_cases below j
  · cases h
  · rw [atop, heq]

/-- an object in a layer is merged with an object, perhaps with an empty one -/
theorem atop_obj {s : Dict Json} (h : (Json.obj s).Stored) (below : Option Json) :
    ∃ b, atop below (some (.obj s)) = some (.obj (merge b s)) := by
  obtain ⟨b, _, rfl, hs, _⟩ | ⟨heq, _⟩ := overlay_cases below (.obj s)
  · exact ⟨b, congrArg some (overlay_obj b s)⟩
  · exact ⟨[], by rw [atop, heq, merge_nil_left h]⟩

section
variable {x y : Option Json} (hy : ∀ j ∈ y, j.Stored) (hxy : ∀ j ∈ atop x y, j.Stored)
include hy hxy

/-- a field laid over its own result stays, if the fields of an object do so -/
theorem atop_atop_of (h : ∀ b s, y = some (.obj s) → (Json.obj (merge b s)).Stored →
    merge (merge b s) s = merge b s) : atop (atop x y) y = atop x y := by
  cases y with
  | none => rfl
  | some j =>
    by_cases hj : j.isObject = false
    · rw [atop_of_isObject hj, atop_of_isObject hj]
    obtain ⟨s, rfl⟩ := Json.exists_obj_of_isObject hj
    obtain ⟨b, hb⟩ := atop_obj (hy _ rfl) x
    rw [hb] at hxy ⊢
    rw [atop, overlay_obj, h b s rfl (hxy _ rfl)]

end

theorem merge_merge_self {base top : Dict Json} (htop : (Json.obj top).Stored)
    (h : (Json.obj (merge base top)).Stored) : merge (merge base top) top = merge base top := by
  refine (stored_merge htop h).ext h fun k => ?_
  have hfield := get?_merge (nodup_of_stored htop) k base
  rw [get?_merge (nodup_of_stored htop), hfield]
  refine atop_atop_of (fun j hj => htop.field hj) (fun j hj => h.field (hfield.trans hj))
    fun b s hs hstored => ?_
  exact merge_merge_self (htop.field hs) hstored
termination_by sizeOf top
decreasing_by exact Json.sizeOf_lt_of_get? hs

theorem atop_atop_self {x y : Option Json} (hy : ∀ j ∈ y, j.Stored)
    (hxy : ∀ j ∈ atop x y, j.Stored) : atop (atop x y) y = atop x y :=
  atop_atop_of hy hxy fun _ _ hs => merge_merge_self (hy _ hs)

/-- two layers over their own result change nothing, although they may disagree on what is an
object -/
theorem merge_merge_merge {base release user : Dict Json} (hrelease : (Json.obj release).Stored)
    (huser : (Json.obj user).Stored)
    (h : (Json.obj (merge (merge base release) user)).Stored) :
    merge (merge (merge (merge base release) user) release) user =
      merge (merge base release) user := by
  refine (stored_merge huser (stored_merge hrelease h)).ext h fun k => ?_
  have hfield : ∀ j, atop (atop (Dict.get? k base) (Dict.get? k release)) (Dict.get? k user) =
      some j → j.Stored := by
    intro j hj
    rw [← get?_merge (nodup_of_stored hrelease), ← get?_merge (nodup_of_stored huser)] at hj
    exact h.field hj
  simp only [get?_merge (nodup_of_stored hrelease), get?_merge (nodup_of_stored huser)]
  generalize hy : Dict.get? k release = y at hfield ⊢
  generalize hz : Dict.get? k user = z at hfield ⊢
  have hystored : ∀ j ∈ y, j.Stored := fun j hj => hrelease.field (hy.trans hj)
  have hzstored : ∀ j ∈ z, j.Stored := fun j hj => huser.field (hz.trans hj)
  cases y with
  | none => exact atop_atop_self hzstored hfield
  | some j =>
  cases z with
  | none => exact atop_atop_self hystored hfield
  | some w =>
    by_cases hw : w.isObject = false
    · rw [atop_of_isObject hw, atop_of_isObject hw]
    by_cases hj : j.isObject = false
    · rw [atop_of_isObject hj, atop_of_isObject hj]
    obtain ⟨t, rfl⟩ := Json.exists_obj_of_isObject hw
    obtain ⟨s, rfl⟩ := Json.exists_obj_of_isObject hj
    have hs : (Json.obj s).Stored := hystored _ rfl
    have ht : (Json.obj t).Stored := hzstored _ rfl
    -- whatever is below, the layer of the release leaves an object
    obtain ⟨b, hb⟩ := atop_obj hs (Dict.get? k base)
    rw [hb] at hfield ⊢
    simp only [atop, overlay_obj] at hfield ⊢
    rw [merge_merge_merge hs ht (hfield _ rfl)]
termination_by sizeOf release + sizeOf user
decreasing_by
  have hslt := Json.sizeOf_lt_of_get? hy
  have htlt := Json.sizeOf_lt_of_get? hz
  omega

/-! ## the text of all layers -/

/-- the fields that a layer provides: none if it is absent or null -/
inductive Provides : Option Json → Dict Json → Prop
  | absent : Provides none []
  | null : Provides (some .null) []
  | fields (d) : Provides (some (.obj d)) d

/-- the values that a chart has already, as a layer; a blank text is an absent one -/
inductive Holds : BaseValues → Option Json → Prop
  | config (values) : Holds (.config values) (some (.obj values))
  | blank (text) : Text.isAllBlank text = true → Holds (.yaml text) none
  | document (text j) : Text.isAllBlank text = false → Yaml.ofText? text = some j →
      Holds (.yaml text) (some j)

def text (values : Dict Json) : String :=
  if values.isEmpty then "" else Yaml.render (.obj values)

def values? (base : BaseValues) (release user : Option Json) :
    Except UpgradeError (Dict Json) := do
  let values ← installed base
  let release ← layer "release" release
  let user ← layer "user" user
  .ok (merge (merge values release) user)

/-- what is said about a layer that is neither absent nor null nor an object -/
def refusal (name : String) (j : Json) : UpgradeError :=
  .chartValues (name ++ " values must be an object, got " ++ j.render)

theorem text_eq_empty_iff {values : Dict Json} : text values = "" ↔ values = [] := by
  constructor
  · intro h
    by_contra hvalues
    have hblank := Yaml.isAllBlank_render_obj hvalues
    rw [text, if_neg (by simpa using hvalues)] at h
    rw [h] at hblank
    cases hblank
  · rintro rfl
    rfl

theorem layer_of_provides {name : String} {j : Option Json} {d : Dict Json} (h : Provides j d) :
    layer name j = .ok d := by
  cases h <;> rfl

theorem provides_of_layer {name : String} {j : Option Json} {d : Dict Json}
    (h : layer name j = .ok d) : Provides j d := by
  unfold layer at h
  split at h <;> cases h
  · exact .absent
  · exact .null
  · exact .fields d

theorem stored_of_provides {j : Option Json} {d : Dict Json} (hj : ∀ v ∈ j, v.Stored)
    (h : Provides j d) : (Json.obj d).Stored := by
  cases h with
  | absent | null => exact stored_nil
  | fields d => exact hj _ rfl

theorem layer_of_not_provides {name : String} {j : Option Json} (h : ∀ d, ¬ Provides j d) :
    ∃ v, j = some v ∧ layer name j = .error (refusal name v) := by
  cases j with
  | none => exact absurd .absent (h [])
  | some v =>
    cases v with
    | null => exact absurd .null (h [])
    | obj d => exact absurd (.fields d) (h d)
    | _ => exact ⟨_, rfl, rfl⟩

theorem installed_of_holds {base : BaseValues} {j : Option Json} (h : Holds base j) :
    installed base = layer "installed" j := by
  cases h with
  | config => rfl
  | blank _ hblank => exact if_pos hblank
  | document _ _ hblank hread =>
    rw [installed, if_neg (by rw [hblank]; exact Bool.false_ne_true), hread]

theorem layered_eq (base : BaseValues) (release user : Option Json) :
    layered base release user = (values? base release user).map text := by
  unfold layered values?
  cases installed base with
  | error => rfl
  | ok b =>
  cases layer "release" release with
  | error => rfl
  | ok r =>
  cases layer "user" user with
  | error => rfl
  | ok u =>
    show (if _ then _ else _ : Except UpgradeError String) = .ok (text (merge (merge b r) u))
    unfold text
    split <;> rfl

section
variable {base : BaseValues} {below release user : Option Json} {b r u : Dict Json}

theorem values?_of_provides (hb : installed base = .ok b) (hr : Provides release r)
    (hu : Provides user u) : values? base release user = .ok (merge (merge b r) u) := by
  rw [values?, hb, layer_of_provides hr, layer_of_provides hu]
  rfl

/-- of the layers that are no object the first one is refused -/
theorem exists_refused (hbase : Holds base below)
    (h : ∃ layer ∈ [below, release, user], ∀ d, ¬ Provides layer d) :
    ∃ name j, (name, some j) ∈ [("installed", below), ("release", release), ("user", user)] ∧
      (∀ d, ¬ Provides (some j) d) ∧ values? base release user = .error (refusal name j) := by
  rw [values?, installed_of_holds hbase]
  by_cases hb : ∃ b, Provides below b
  · obtain ⟨b, hb⟩ := hb
    by_cases hr : ∃ r, Provides release r
    · obtain ⟨r, hr⟩ := hr
      have hu : ∀ d, ¬ Provides user d := by
        intro d hd
        obtain ⟨j, hj, hnone⟩ := h
        simp only [List.mem_cons, List.not_mem_nil, or_false] at hj
        obtain rfl | rfl | rfl := hj
        · exact hnone b hb
        · exact hnone r hr
        · exact hnone d hd
      obtain ⟨j, rfl, hrefused⟩ := @layer_of_not_provides "user" _ hu
      refine ⟨"user", j, by simp, hu, ?_⟩
      rw [layer_of_provides hb, layer_of_provides hr, hrefused]
      rfl
    · have hr := not_exists.mp hr
      obtain ⟨j, rfl, hrefused⟩ := @layer_of_not_provides "release" _ hr
      refine ⟨"release", j, by simp, hr, ?_⟩
      rw [layer_of_provides hb, hrefused]
      rfl
  · have hb := not_exists.mp hb
    obtain ⟨j, rfl, hrefused⟩ := @layer_of_not_provides "installed" _ hb
    refine ⟨"installed", j, by simp, hb, ?_⟩
    rw [hrefused]
    rfl

end

theorem exists_of_layered {base : BaseValues} {release user : Option Json} {y : String}
    (h : layered base release user = .ok y) :
    ∃ b r u, installed base = .ok b ∧ Provides release r ∧ Provides user u ∧
      y = text (merge (merge b r) u) := by
  rw [layered_eq, values?] at h
  cases hb : installed base with
  | error =>
    rw [hb] at h
    cases h
  | ok b =>
  cases hr : layer "release" release with
  | error =>
    rw [hb, hr] at h
    cases h
  | ok r =>
  cases hu : layer "user" user with
  | error =>
    rw [hb, hr, hu] at h
    cases h
  | ok u =>
    rw [hb, hr, hu] at h
    cases h
    exact ⟨b, r, u, rfl, provides_of_layer hr, provides_of_layer hu, rfl⟩

theorem installed_text {values : Dict Json}
    (hread : values ≠ [] → Yaml.ofText? (Yaml.render (.obj values)) = some (.obj values)) :
    installed (.yaml (text values)) = .ok values ∧ (Json.obj values).Stored := by
  by_cases hvalues : values = []
  · subst hvalues
    exact ⟨rfl, stored_nil⟩
  · have htext : text values = Yaml.render (.obj values) := if_neg (by simpa using hvalues)
    have hblank : ¬ Text.isAllBlank (Yaml.render (.obj values)) = true := by
      rw [Yaml.isAllBlank_render_obj hvalues]
      exact Bool.false_ne_true
    refine ⟨?_, Yaml.stored_of_ofText? (hread hvalues)⟩
    rw [htext, installed, if_neg hblank, hread hvalues]
    rfl

/-- how the values of a chart come from its layers -/
structure Layering (installed release user values : Dict Json) : Prop where
  /-- each layer is laid over what was there before it -/
  laid : ∃ between, (Json.obj between).Stored ∧ Overlaid installed release between ∧
    Overlaid between user values
  /-- what the user has set, objects apart, stands where it was set -/
  leaf : ∀ p j, at? p (.obj user) = some j → j.isObject = false → at? p (.obj values) = some j
  /-- apart from the release and the user everything stays -/
  apart : ∀ p, Apart p release → Apart p user → at? p (.obj values) = at? p (.obj installed)

theorem layering_merge {b r u : Dict Json} (hb : (Json.obj b).Stored) (hr : (Json.obj r).Stored)
    (hu : (Json.obj u).Stored) : Layering b r u (merge (merge b r) u) where
  laid := ⟨merge b r, stored_merge hr hb, overlaid_merge hr b, overlaid_merge hu (merge b r)⟩
  leaf _ _ := at?_merge_of_isObject hu (merge b r)
  apart _ hpr hpu :=
    (at?_merge_of_apart hu hpu (merge b r)).trans (at?_merge_of_apart hr hpr b)

theorem Layering.unique {b r u values values' : Dict Json} (h : Layering b r u values)
    (h' : Layering b r u values') (hvalues : (Json.obj values).Stored)
    (hvalues' : (Json.obj values').Stored) : values = values' := by
  obtain ⟨between, hbetween, hr, hu⟩ := h.laid
  obtain ⟨between', hbetween', hr', hu'⟩ := h'.laid
  obtain rfl := hr.unique hr' hbetween hbetween'
  exact hu.unique hu' hvalues hvalues'

/-- the text of the layers of a chart is that of the values which come from them path by path; a
layer that is neither absent nor null nor an object leaves no values -/
theorem layered_by_paths {base : BaseValues} {below release user : Option Json}
    (hbase : Holds base below) (hbelow : ∀ j ∈ below, j.Stored) (hrelease : ∀ j ∈ release, j.Stored)
    (huser : ∀ j ∈ user, j.Stored) :
    (∀ b r u, Provides below b → Provides release r → Provides user u →
      ∃ values, layered base release user = .ok (text values) ∧ (text values = "" ↔ values = []) ∧
        Layering b r u values ∧
        ∀ values', (Json.obj values').Stored → Layering b r u values' → values' = values) ∧
    ((∃ layer ∈ [below, release, user], ∀ d, ¬ Provides layer d) →
      ∃ name j, (name, some j) ∈ [("installed", below), ("release", release), ("user", user)] ∧
        (∀ d, ¬ Provides (some j) d) ∧ layered base release user = .error (refusal name j)) := by
  constructor
  · intro b r u hb hr hu
    have hbstored := stored_of_provides hbelow hb
    have hrstored := stored_of_provides hrelease hr
    have hustored := stored_of_provides huser hu
    have hlayering := layering_merge hbstored hrstored hustored
    have hstored := stored_merge hustored (stored_merge hrstored hbstored)
    refine ⟨merge (merge b r) u, ?_, text_eq_empty_iff, hlayering,
      fun values' hvalues' h' => h'.unique hlayering hvalues' hstored⟩
    have hinstalled : installed base = .ok b :=
      (installed_of_holds hbase).trans (layer_of_provides hb)
    rw [layered_eq, values?_of_provides hinstalled hr hu]
    rfl
  · intro hlayers
    obtain ⟨name, j, hmem, hnone, hrefused⟩ := exists_refused hbase hlayers
    refine ⟨name, j, hmem, hnone, ?_⟩
    rw [layered_eq, hrefused]
    rfl

namespace Nested

/-- the values of a chart as they are installed -/
def content : String := "a:\n  b: 1\n  c: 2\nkeep: true\nport: 80\n"

def below : Dict Json :=
  [("a", .obj [("b", .int 1), ("c", .int 2)]), ("keep", .bool true), ("port", .int 80)]

/-- an empty object in an object, and an object in place of a number -/
def release : Dict Json :=
  [("a", .obj [("c", .int 3), ("e", .obj [])]), ("port", .obj [("http", .int 80)])]

/-- a number in place of that object, and objects in place of other values -/
def user : Dict Json :=
  [("a", .obj [("b", .obj [("x", .null)])]), ("keep", .obj []), ("port", .int 8080)]

theorem holds : Holds (.yaml content) (some (.obj below)) :=
  .document content _ (by decide +kernel) (by decide +kernel)

theorem stored_below : ∀ j ∈ some (Json.obj below), j.Stored := by
  intro _ hj
  cases hj
  show Json.sorted _ = _
  decide +kernel

theorem stored_release : ∀ j ∈ some (Json.obj release), j.Stored := by
  intro _ hj
  cases hj
  show Json.sorted _ = _
  decide +kernel

theorem stored_user : ∀ j ∈ some (Json.obj user), j.Stored := by
  intro _ hj
  cases hj
  show Json.sorted _ = _
  decide +kernel

end Nested

open Nested in
theorem layered_by_paths_nested :
    (∃ values, layered (.yaml content) (some (.obj release)) (some (.obj user)) =
        .ok (text values) ∧ (text values = "" ↔ values = []) ∧
      Layering below release user values ∧
      ∀ values', (Json.obj values').Stored → Layering below release user values' →
        values' = values) ∧
    ∃ name j, (name, some j) ∈
        [("installed", some (Json.obj below)), ("release", some (.arr [])), ("user", none)] ∧
      (∀ d, ¬ Provides (some j) d) ∧
      layered (.yaml content) (some (.arr [])) none = .error (refusal name j) := by
  constructor
  · exact (layered_by_paths holds stored_below stored_release stored_user).1 below release user
      (.fields _) (.fields _) (.fields _)
  · refine (@layered_by_paths _ _ (some (.arr [])) none holds stored_below ?_ nofun).2
      ⟨some (.arr []), ?_, nofun⟩
    · intro _ hj
      cases hj
      rfl
    · exact List.mem_cons_of_mem _ List.mem_cons_self

/-- the text that has been written is written again from the same layers; so is the chart resource
with it, as long as YAML is read back as it was written -/
theorem layered_again {base : BaseValues} {release user : Option Json} {y : String}
    (hrelease : ∀ j ∈ release, j.Stored) (huser : ∀ j ∈ user, j.Stored)
    (h : layered base release user = .ok y)
    (hread : ∀ values, values? base release user = .ok values → values ≠ [] →
      Yaml.ofText? (Yaml.render (.obj values)) = some (.obj values)) :
    layered (.yaml y) release user = .ok y ∧
      ∀ ctx chart existing, chart.values = release → ctx.plan.spec.valuesFor chart.name = user →
        existing.spec.valuesContent = y → ∀ t r, (Evaluation.update ctx chart existing).Yields t r →
          ∃ answer, t = [⟨.replace .helmChart (Evaluation.revision ctx chart existing y), answer⟩] ∧
            (Evaluation.revision ctx chart existing y).spec.valuesContent = y := by
  obtain ⟨b, r, u, hb, hr, hu, rfl⟩ := exists_of_layered h
  have hrstored := stored_of_provides hrelease hr
  have hustored := stored_of_provides huser hu
  have hagain : layered (.yaml (text (merge (merge b r) u))) release user =
      .ok (text (merge (merge b r) u)) := by
    obtain ⟨hinstalled, hstored⟩ := installed_text (hread _ (values?_of_provides hb hr hu))
    rw [layered_eq, values?_of_provides hinstalled hr hu,
      merge_merge_merge hrstored hustored hstored]
    rfl
  refine ⟨hagain, ?_⟩
  rintro ctx chart existing rfl rfl hy t result hyields
  have hsame : Evaluation.values ctx chart (.yaml existing.spec.valuesContent) =
      .ok (text (merge (merge b r) u)) := by
    rw [hy]
    exact hagain
  obtain ⟨answer, rfl⟩ := Evaluation.replaced_of_yields ctx chart hsame hyields
  exact ⟨answer, rfl, rfl⟩

namespace Nested

def values : Dict Json :=
  [("a", .obj [("b", .obj [("x", .null)]), ("c", .int 3), ("e", .obj [])]), ("keep", .obj []),
    ("port", .int 8080)]

def written : String := "a:\n  b:\n    x: null\n  c: 3\n  e: {}\nkeep: {}\nport: 8080\n"

def context : Context where
  settings := {}
  plan := { spec := { releaseVersion := "3.1.0", helm := [⟨"metal3", some (.obj user)⟩] } }
  now := ⟨0, 0⟩

def chart : ReleaseChart :=
  { releaseName := "metal3", name := "metal3", version := "0.8.0", prettyName := "Metal3"
    values := some (.obj release) }

/-- a chart resource that has been set to the values before -/
def resource : HelmChart where
  metadata := { name := some "metal3", ns := some "kube-system" }
  spec := { chart := "metal3", version := "0.7.0", valuesContent := written }

theorem values?_eq_ok : values? (.yaml content) (some (.obj release)) (some (.obj user)) =
    .ok values := by
  decide +kernel

theorem read_again : ∀ values', values? (.yaml content) (some (.obj release)) (some (.obj user)) =
    .ok values' → values' ≠ [] →
    Yaml.ofText? (Yaml.render (.obj values')) = some (.obj values') := by
  intro values' hvalues _
  obtain rfl := Except.ok.inj (values?_eq_ok.symm.trans hvalues)
  decide +kernel

theorem layered_eq_ok : layered (.yaml content) (some (.obj release)) (some (.obj user)) =
    .ok written := by
  decide +kernel

end Nested

open Nested in
theorem layered_again_nested :
    layered (.yaml written) (some (.obj release)) (some (.obj user)) = .ok written ∧
      ∃ answer, [Exchange.replaced .helmChart
          (Evaluation.revision context chart resource written)] =
          [⟨.replace .helmChart (Evaluation.revision context chart resource written), answer⟩] ∧
        (Evaluation.revision context chart resource written).spec.valuesContent = written := by
  obtain ⟨hagain, hupdate⟩ := layered_again stored_release stored_user layered_eq_ok read_again
  have hset : context.plan.spec.valuesFor chart.name = some (.obj user) := by decide +kernel
  have hvalues : chart.values = some (.obj release) := rfl
  have hcontent : resource.spec.valuesContent = written := rfl
  -- with names for them the calls of the update are not computed
  generalize context = ctx, chart = chart, resource = existing at hset hvalues hcontent ⊢
  have hsame : Evaluation.values ctx chart (.yaml existing.spec.valuesContent) = .ok written := by
    rw [Evaluation.values, hset, hvalues, hcontent]
    exact hagain
  exact ⟨hagain, hupdate ctx chart existing hvalues hset hcontent _ _
    (Evaluation.yields_update ctx chart hsame)⟩

end Values

end ReleaseUpgrade
