import ReleaseUpgrade.Proofs.Json.Path
import ReleaseUpgrade.Text.Blank
import ReleaseUpgrade.Yaml.Document
import ReleaseUpgrade.Yaml.Writer

/-!
# Documents in YAML

* `Yaml.stored_of_ofText?`       what is read has the fields of every object in order;
* `Yaml.isAllBlank_render_obj`   what is written of an object with fields is not blank, because the
                                 first of its keys is followed by a colon.
-/

namespace ReleaseUpgrade.Yaml

namespace Document

section
variable {α β : Type} {f : Nat → α → Option (β × Nat)} {P : β → Prop} {as : List α} {bs : List β}
  {used used' : Nat}

/-- what holds of each result holds of all -/
theorem forall_of_each? (hf : ∀ used a b used', f used a = some (b, used') → P b)
    (h : each? f used as = some (bs, used')) : ∀ b ∈ bs, P b := by
  induction as generalizing used bs with
  | nil =>
    cases h
    exact fun b hb => absurd hb List.not_mem_nil
  | cons a as ih =>
    rw [each?] at h
    split at h
    · cases h
    · rename_i b used₁ hb
      obtain ⟨⟨rest, used₂⟩, hrest, heq⟩ := Option.map_eq_some_iff.mp h
      cases heq
      exact List.forall_mem_cons.mpr ⟨hf used a b used₁ hb, ih hrest⟩

end

theorem stored_of_integer? {n : Int} {j : Json} (h : integer? n = some j) : j.Stored := by
  unfold integer? at h
  split at h <;> cases h
  rfl

theorem stored_double (x : Float) : (double x).Stored := by
  unfold double
  split <;> rfl

theorem stored_of_plain? {text : String} {j : Json} (h : plain? text = some j) : j.Stored := by
  unfold plain? at h
  split at h
  · cases h
    rfl
  · cases h
    rfl
  · exact stored_of_integer? h
  · cases h
    exact stored_double _
  · cases h
    rfl

theorem stored_of_scalar? {tag : Option String} {text : String} {isPlain : Bool} {j : Json}
    (h : scalar? tag text isPlain = some j) : j.Stored := by
  unfold scalar? at h
  split at h
  · split at h
    · exact stored_of_plain? h
    · cases h
      rfl
  split at h
  · cases h
  split at h
  · obtain ⟨b, _, rfl⟩ := Option.map_eq_some_iff.mp h
    rfl
  split at h
  · obtain ⟨n, _, h⟩ := Option.bind_eq_some_iff.mp h
    exact stored_of_integer? h
  split at h
  · obtain ⟨x, _, rfl⟩ := Option.map_eq_some_iff.mp h
    exact stored_double x
  split at h
  · split at h <;> cases h
    rfl
  · cases h
    rfl

/-- by recursion on the depth that is left -/
theorem stored_of_value? (d : Document) {depth used used' : Nat} {n : Node Nat} {j : Json}
    (h : d.value? depth used n = some (j, used')) : j.Stored := by
  induction depth generalizing used n j used' with
  | zero =>
    rw [value?] at h
    split at h
    · cases h
    · cases h
    · obtain ⟨j, hj, heq⟩ := Option.map_eq_some_iff.mp h
      cases heq
      exact stored_of_scalar? hj
    · cases h
    · cases h
  | succ depth ih =>
    rw [value?] at h
    split at h
    · cases h
    · cases h
    · obtain ⟨j, hj, heq⟩ := Option.map_eq_some_iff.mp h
      cases heq
      exact stored_of_scalar? hj
    · dsimp only at h
      split at h
      · cases h
      obtain ⟨⟨js, _⟩, hjs, heq⟩ := Option.map_eq_some_iff.mp h
      cases heq
      exact Json.stored_arr (forall_of_each? (fun _ _ _ _ => ih) hjs)
    · dsimp only at h
      split at h
      · cases h
      obtain ⟨⟨fields, _⟩, hfields, heq⟩ := Option.map_eq_some_iff.mp h
      cases heq
      refine Json.stored_obj_iff.mpr ⟨Dict.ordered_ofList fields, fun e he => ?_⟩
      have hmem : e ∈ fields := (Dict.mem_of_mem_insertAll he).resolve_left List.not_mem_nil
      refine forall_of_each? (P := fun e => e.2.Stored) (fun used a e used' hentry => ?_) hfields e
        hmem
      split at hentry
      · cases hentry
      · obtain ⟨⟨j, _⟩, hj, heq⟩ := Option.map_eq_some_iff.mp hentry
        cases heq
        exact ih hj

end Document

/-- what is read has the fields of every object in order -/
theorem stored_of_ofText? {s : String} {j : Json} (h : ofText? s = some j) : j.Stored := by
  simp only [ofText?, Option.bind_eq_bind, Option.bind_eq_some_iff, Option.map_eq_some_iff] at h
  obtain ⟨_, _, _, _, d, _, ⟨j, _⟩, hj, rfl⟩ := h
  exact d.stored_of_value? hj

/-! ## what is written -/

mutual

/-- nothing is lost of what stands in front -/
theorem mem_append {c : Char} : (j : Json) → (indent : Nat) → (acc : String) → c ∈ acc.toList →
    c ∈ (Render.append indent acc j).toList
  | .null, _, _, h | .bool _, _, _, h | .num _, _, _, h | .str _, _, _, h | .unreadable, _, _, h |
    .arr [], _, _, h | .obj [], _, _, h => by
    simp [Render.append, h]
  | .arr (j :: items), indent, acc, h => by
    rw [Render.append]
    exact mem_appendItems items _ _ (mem_append j _ _ (by simp [h]))
  | .obj ((k, j) :: fields), indent, acc, h => by
    rw [Render.append]
    exact mem_appendFields fields _ _ (mem_append j _ _ (by simp [h]))

theorem mem_appendItems {c : Char} : (items : List Json) → (indent : Nat) → (acc : String) →
    c ∈ acc.toList → c ∈ (Render.appendItems indent acc items).toList
  | [], _, _, h => h
  | j :: items, indent, acc, h => by
    rw [Render.appendItems]
    exact mem_appendItems items _ _ (mem_append j _ _ (by simp [h]))

theorem mem_appendFields {c : Char} : (fields : List (String × Json)) → (indent : Nat) →
    (acc : String) → c ∈ acc.toList → c ∈ (Render.appendFields indent acc fields).toList
  | [], _, _, h => h
  | (k, j) :: fields, indent, acc, h => by
    rw [Render.appendFields]
    exact mem_appendFields fields _ _ (mem_append j _ _ (by simp [h]))

end

theorem colon_mem_key (indent : Nat) (k : String) : ':' ∈ (Render.key indent k).toList := by
  unfold Render.key
  split <;> simp

/-- an object with fields is written with a colon after its first key -/
theorem colon_mem_render (f : String × Json) (fields : Dict Json) :
    ':' ∈ (render (.obj (f :: fields))).toList := by
  obtain ⟨k, j⟩ := f
  have hkey := colon_mem_key 0 k
  rw [render, Render.append]
  exact mem_appendFields fields 0 _ (mem_append j _ _ (by simp [hkey]))

theorem isAllBlank_render_obj {fields : Dict Json} (h : fields ≠ []) :
    Text.isAllBlank (render (.obj fields)) = false := by
  obtain ⟨f, rest, rfl⟩ := List.exists_cons_of_ne_nil h
  exact List.all_eq_false.mpr ⟨':', colon_mem_render f rest, by decide⟩

end ReleaseUpgrade.Yaml
