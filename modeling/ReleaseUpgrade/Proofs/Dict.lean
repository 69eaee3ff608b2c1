import ReleaseUpgrade.Dict

/-!
# Entries in order

* `Dict.Ordered`         the entries are in ascending order of their keys; insertions keep them so;
* `Dict.get?_insertAll`  where an entry comes from after insertions under different keys;
* `Dict.get?_union`      where an entry of the union of two maps comes from;
* `Dict.get?_ofList`      of two entries with one key the later counts;
* `Dict.ofList_of_ordered`  entries that are in order already stay as they are;
* `Dict.mapValues_ofList`   changing the values and putting entries in order commute.
-/

namespace ReleaseUpgrade.Dict
variable {α : Type u} {k : String} {v : α} {d e : Dict α}

/-- the entries are in ascending order of their keys, each key once -/
def Ordered (d : Dict α) : Prop := d.Pairwise fun e e' => e.1 < e'.1

theorem ordered_nil : Ordered ([] : Dict α) := .nil

theorem mem_insert {x : String × α} (h : x ∈ insert k v d) : x = (k, v) ∨ x ∈ d := by
  induction d with
  | nil => exact .inl (List.mem_singleton.mp h)
  | cons e d ih =>
    unfold insert at h
    split at h
    · exact (List.mem_cons.mp h).imp id (List.mem_cons_of_mem _)
    split at h
    · exact List.mem_cons.mp h
    · obtain rfl | h := List.mem_cons.mp h
      · exact .inr List.mem_cons_self
      · exact (ih h).imp id (List.mem_cons_of_mem _)

theorem Ordered.insert (h : Ordered d) (k : String) (v : α) : Ordered (insert k v d) := by
  induction d with
  | nil => exact List.pairwise_singleton _ _
  | cons e d ih =>
    obtain ⟨hlt, hd⟩ := List.pairwise_cons.mp h
    unfold Dict.insert
    split
    · rename_i heq
      exact List.pairwise_cons.mpr ⟨fun x hx => heq ▸ hlt x hx, hd⟩
    rename_i hne
    split
    · rename_i hk
      refine List.pairwise_cons.mpr ⟨fun x hx => ?_, h⟩
      obtain rfl | hx := List.mem_cons.mp hx
      · exact hk
      · exact String.lt_trans hk (hlt x hx)
    · rename_i hk
      have hk : e.1 < k := Std.lt_of_le_of_ne hk (Ne.symm hne)
      refine List.pairwise_cons.mpr ⟨fun x hx => ?_, ih hd⟩
      obtain rfl | hx := mem_insert hx
      · exact hk
      · exact hlt x hx

theorem ordered_insertAll (h : Ordered d) (entries : List (String × α)) :
    Ordered (insertAll d entries) := by
  induction entries generalizing d with
  | nil => exact h
  | cons e entries ih => exact ih (h.insert e.1 e.2)

theorem ordered_ofList (entries : List (String × α)) : Ordered (ofList entries) :=
  ordered_insertAll ordered_nil entries

theorem get?_eq_none (h : ∀ x ∈ d, x.1 ≠ k) : get? k d = none := by
  induction d with
  | nil => rfl
  | cons e d ih =>
    rw [get?_cons, if_neg (h e List.mem_cons_self)]
    exact ih fun x hx => h x (List.mem_cons_of_mem e hx)

theorem get?_append (k : String) (d e : Dict α) : get? k (d ++ e) = (get? k d).or (get? k e) := by
  induction d with
  | nil => rfl
  | cons x d ih =>
    rw [List.cons_append, get?_cons, get?_cons, ih]
    split <;> rfl

/-- entries of other keys may be left out -/
theorem get?_filter {p : String × α → Bool} (h : ∀ x ∈ d, x.1 = k → p x = true) :
    get? k (d.filter p) = get? k d := by
  induction d with
  | nil => rfl
  | cons x d ih =>
    obtain ⟨hx, hd⟩ := List.forall_mem_cons.mp h
    rw [get?_cons, ← ih hd]
    by_cases hp : p x = true
    · rw [List.filter_cons_of_pos hp, get?_cons]
    · rw [List.filter_cons_of_neg hp, if_neg fun hk => hp (hx hk)]

theorem mem_of_mem_insertAll {entries : List (String × α)} {x : String × α}
    (h : x ∈ insertAll d entries) : x ∈ d ∨ x ∈ entries := by
  induction entries generalizing d with
  | nil => exact .inl h
  | cons e entries ih =>
    obtain h | h := ih h
    · obtain rfl | h := mem_insert h
      · exact .inr List.mem_cons_self
      · exact .inl h
    · exact .inr (List.mem_cons_of_mem e h)

theorem Ordered.nodup_keys (h : Ordered d) : (d.map Prod.fst).Nodup := by
  refine List.pairwise_map.mpr (List.Pairwise.imp (fun hlt heq => ?_) h)
  rw [heq] at hlt
  exact String.lt_irrefl _ hlt

theorem Ordered.get?_of_mem (h : Ordered d) (hmem : (k, v) ∈ d) : get? k d = some v := by
  induction d with
  | nil => cases hmem
  | cons e d ih =>
    obtain ⟨hlt, hd⟩ := List.pairwise_cons.mp h
    rw [get?_cons]
    obtain rfl | hmem := List.mem_cons.mp hmem
    · exact if_pos rfl
    · have hne : e.1 ≠ k := fun heq => String.lt_irrefl e.1 (by
        have hlt := hlt _ hmem
        rwa [← heq] at hlt)
      rw [if_neg hne]
      exact ih hd hmem

/-- after insertions under different keys an entry is one that has been inserted, or else an old
one -/
theorem get?_insertAll {entries : List (String × α)} (h : (entries.map Prod.fst).Nodup) (k : String)
    (d : Dict α) : get? k (insertAll d entries) = (get? k entries).or (get? k d) := by
  induction entries generalizing d with
  | nil => rfl
  | cons x e ih =>
    obtain ⟨hnew, he⟩ := List.nodup_cons.mp h
    rw [insertAll_cons, ih he, get?_insert, get?_cons]
    by_cases hk : x.1 = k
    · -- the key does not come again
      have hnone : get? k e = none := get?_eq_none fun y hy heq =>
        hnew (List.mem_map.mpr ⟨y, hy, heq.trans hk.symm⟩)
      rw [if_pos hk, if_pos hk, hnone]
      rfl
    · rw [if_neg hk, if_neg hk]

/-- an entry of the union is that of the second map, or else that of the first one -/
theorem get?_union (he : Ordered e) (k : String) (d : Dict α) :
    get? k (union d e) = (get? k e).or (get? k d) :=
  get?_insertAll he.nodup_keys k d

/-- of two insertions under one key the later counts -/
theorem get?_insertAll_reverse (k : String) (d : Dict α) (entries : List (String × α)) :
    get? k (insertAll d entries) = (get? k entries.reverse).or (get? k d) := by
  induction entries generalizing d with
  | nil => rfl
  | cons x entries ih =>
    rw [insertAll_cons, ih, get?_insert, List.reverse_cons, get?_append, get?_cons, get?_nil]
    cases get? k entries.reverse with
    | some v => rfl
    | none =>
      show _ = Option.or (if x.1 = k then some x.2 else none) (get? k d)
      split <;> rfl

theorem get?_ofList (k : String) (entries : List (String × α)) :
    get? k (ofList entries) = get? k entries.reverse := by
  rw [ofList, get?_insertAll_reverse, get?_nil, Option.or_none]

/-- the only entry of a key is the last one too -/
theorem get?_reverse (h : (d.filter fun x => x.1 = k).length ≤ 1) :
    get? k d.reverse = get? k d := by
  have hkeep (e : Dict α) : get? k (e.filter fun x => x.1 = k) = get? k e :=
    get?_filter fun _ _ hk => decide_eq_true hk
  rw [← hkeep d.reverse, ← hkeep d, List.filter_reverse]
  generalize d.filter (fun x => x.1 = k) = same at h
  match same with
  | [] | [_] => rfl
  | _ :: _ :: rest => exact absurd h (by simp)

theorem insert_of_forall_lt (h : ∀ e ∈ d, e.1 < k) (v : α) : insert k v d = d ++ [(k, v)] := by
  induction d with
  | nil => rfl
  | cons e d ih =>
    obtain ⟨he, hd⟩ := List.forall_mem_cons.mp h
    have hne : k ≠ e.1 := fun heq => String.lt_irrefl k (heq ▸ he)
    have hnot : ¬ k < e.1 := fun hlt => String.lt_irrefl k (String.lt_trans hlt he)
    rw [insert, if_neg hne, if_neg hnot, ih hd, List.cons_append]

theorem insertAll_of_ordered (h : Ordered (d ++ e)) : insertAll d e = d ++ e := by
  induction e generalizing d with
  | nil => exact (List.append_nil d).symm
  | cons x e ih =>
    have hlt : ∀ y ∈ d, y.1 < x.1 := fun y hy =>
      (List.pairwise_append.mp h).2.2 y hy x List.mem_cons_self
    have happend : d ++ x :: e = d ++ [x] ++ e := List.append_cons d x e
    rw [happend] at h ⊢
    rw [insertAll_cons, insert_of_forall_lt hlt, ih h]

theorem ofList_of_ordered (h : Ordered d) : ofList d = d := insertAll_of_ordered h

section
variable {β : Type v} (f : α → β)

theorem get?_mapValues (k : String) (d : Dict α) : get? k (mapValues f d) = (get? k d).map f := by
  induction d with
  | nil => rfl
  | cons e d ih =>
    show get? k ((e.1, f e.2) :: mapValues f d) = _
    rw [get?_cons, get?_cons, ih]
    split <;> rfl

theorem mapValues_insert (k : String) (v : α) (d : Dict α) :
    mapValues f (insert k v d) = insert k (f v) (mapValues f d) := by
  induction d with
  | nil => rfl
  | cons e d ih =>
    show mapValues f (insert k v ((e.1, e.2) :: d)) = insert k (f v) ((e.1, f e.2) :: mapValues f d)
    rw [insert, insert]
    split
    · rfl
    split
    · rfl
    · rw [← ih]
      rfl

theorem mapValues_insertAll (d : Dict α) (entries : List (String × α)) :
    mapValues f (insertAll d entries) = insertAll (mapValues f d) (mapValues f entries) := by
  induction entries generalizing d with
  | nil => rfl
  | cons e entries ih =>
    rw [insertAll_cons, ih, mapValues_insert]
    rfl

theorem mapValues_ofList (entries : List (String × α)) :
    mapValues f (ofList entries) = ofList (mapValues f entries) :=
  mapValues_insertAll f [] entries

end

end ReleaseUpgrade.Dict
