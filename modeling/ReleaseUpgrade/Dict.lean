/-!
# Maps with text keys

`Dict α` is a map from text to `α`, held as its entries in ascending order of the key, each key
once.  Text is ordered by code point, which is also the order of its UTF-8 bytes.

* `Dict.get?`      the entry of a key;
* `Dict.insert`    add an entry, or replace the one with the same key;
* `Dict.ofList`    the map of a list of entries, the last entry of a key counting;
* `Dict.union`     all entries of both maps, those of the second winning.
-/

namespace ReleaseUpgrade

/-- entries in ascending order of their keys -/
abbrev Dict (α : Type u) := List (String × α)

namespace Dict
variable {α : Type u} {β : Type v}

/-- the value of the first entry with key `k` -/
def get? (k : String) : Dict α → Option α
  | [] => none
  | (k', v) :: rest => if k' = k then some v else get? k rest

/-- the map with `v` at `k`, at its place in the order -/
def insert (k : String) (v : α) : Dict α → Dict α
  | [] => [(k, v)]
  | (k', v') :: rest =>
    if k = k' then (k, v) :: rest
    else if k < k' then (k, v) :: (k', v') :: rest
    else (k', v') :: insert k v rest

/-- the map without the entries at `k` -/
def erase (k : String) (d : Dict α) : Dict α := d.filter fun e => e.1 != k

/-- the map without the entries at any of `ks` -/
def eraseAll (ks : List String) (d : Dict α) : Dict α := d.filter fun e => !ks.contains e.1

/-- every entry of `entries` put into `d`, in turn -/
def insertAll (d : Dict α) (entries : List (String × α)) : Dict α :=
  entries.foldl (fun d e => insert e.1 e.2 d) d

/-- the map of a list of entries: of two entries with one key the later counts -/
def ofList (entries : List (String × α)) : Dict α := insertAll [] entries

/-- the entries of both maps, those of the second where both have the key -/
def union (d e : Dict α) : Dict α := insertAll d e

/-- the values changed by `f` -/
def mapValues (f : α → β) (d : Dict α) : Dict β := d.map fun e => (e.1, f e.2)

@[simp] theorem get?_nil (k : String) : get? k ([] : Dict α) = none := rfl

theorem get?_cons (k k' : String) (v : α) (d : Dict α) :
    get? k ((k', v) :: d) = if k' = k then some v else get? k d := rfl

@[simp] theorem get?_insert_self (k : String) (v : α) (d : Dict α) :
    get? k (insert k v d) = some v := by
  induction d with
  | nil => simp [insert, get?]
  | cons e d ih =>
    obtain ⟨k', v'⟩ := e
    unfold insert
    split
    · simp [get?]
    · split
      · simp [get?]
      · rename_i h _
        rw [get?_cons, if_neg (fun h' => h h'.symm), ih]

theorem get?_insert_of_ne {k k' : String} (h : k' ≠ k) (v : α) (d : Dict α) :
    get? k (insert k' v d) = get? k d := by
  induction d with
  | nil => simp [insert, get?, h]
  | cons e d ih =>
    obtain ⟨k₀, v₀⟩ := e
    unfold insert
    split
    · rename_i h₀
      subst h₀
      simp [get?, h]
    · split
      · rw [get?_cons, if_neg h]
      · rw [get?_cons, get?_cons, ih]

theorem get?_insert (k k' : String) (v : α) (d : Dict α) :
    get? k (insert k' v d) = if k' = k then some v else get? k d := by
  split
  · rename_i h
    rw [h, get?_insert_self]
  · rename_i h
    exact get?_insert_of_ne h v d

@[simp] theorem insertAll_nil (d : Dict α) : insertAll d [] = d := rfl

@[simp] theorem insertAll_cons (d : Dict α) (e : String × α) (es : List (String × α)) :
    insertAll d (e :: es) = insertAll (insert e.1 e.2 d) es := rfl

end Dict

end ReleaseUpgrade
