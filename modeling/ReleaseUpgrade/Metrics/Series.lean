/-!
# Series of metric values

A `Series` holds a value for each combination of labels that has come up.

* `Series.get?`     the value of some labels;
* `Series.update`   a change of the value of some labels, starting from a given value;
* `Series.remove`   the series without the value of some labels.
-/

namespace ReleaseUpgrade

/-- values by their labels, in the order in which the labels came up -/
abbrev Series (κ ν : Type) := List (κ × ν)

namespace Series
variable {κ ν : Type} [DecidableEq κ]

/-- the value of some labels -/
def get? (labels : κ) : Series κ ν → Option ν
  | [] => none
  | (l, v) :: rest => if l = labels then some v else get? labels rest

/-- the value of some labels changed by `f`; it is `start` before it comes up -/
def update (labels : κ) (start : ν) (f : ν → ν) : Series κ ν → Series κ ν
  | [] => [(labels, f start)]
  | (l, v) :: rest => if l = labels then (l, f v) :: rest else (l, v) :: update labels start f rest

/-- the series without the value of some labels -/
def remove (labels : κ) (s : Series κ ν) : Series κ ν := s.filter fun e => e.1 ≠ labels

/-- the series without the values of several labels -/
def removeAll (labels : List κ) (s : Series κ ν) : Series κ ν := s.filter fun e => e.1 ∉ labels

theorem get?_cons (labels l : κ) (v : ν) (s : Series κ ν) :
    get? labels ((l, v) :: s) = if l = labels then some v else get? labels s := rfl

@[simp] theorem get?_update_self (labels : κ) (start : ν) (f : ν → ν) (s : Series κ ν) :
    get? labels (update labels start f s) = some (f ((get? labels s).getD start)) := by
  induction s with
  | nil => simp [update, get?]
  | cons e s ih =>
    obtain ⟨l, v⟩ := e
    unfold update
    split
    · rename_i h
      simp [get?, h]
    · rename_i h
      rw [get?_cons, if_neg h, ih, get?_cons, if_neg h]

theorem get?_update_of_ne {labels l : κ} (h : l ≠ labels) (start : ν) (f : ν → ν)
    (s : Series κ ν) : get? labels (update l start f s) = get? labels s := by
  induction s with
  | nil => simp [update, get?, h]
  | cons e s ih =>
    obtain ⟨l', v⟩ := e
    unfold update
    split
    · rename_i h'
      subst h'
      simp [get?, h]
    · rw [get?_cons, get?_cons, ih]

theorem get?_remove_of_ne {labels l : κ} (h : l ≠ labels) (s : Series κ ν) :
    get? labels (remove l s) = get? labels s := by
  induction s with
  | nil => rfl
  | cons e s ih =>
    obtain ⟨l', v⟩ := e
    unfold remove at ih ⊢
    by_cases h' : l' = l
    · subst h'
      simpa [get?_cons, h] using ih
    · simp only [ne_eq, decide_not] at ih
      simp [h', get?_cons, ih]

end Series

end ReleaseUpgrade
