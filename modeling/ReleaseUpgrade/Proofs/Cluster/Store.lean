import ReleaseUpgrade.Proofs.Cluster.Writes
import ReleaseUpgrade.Cluster.Store

/-!
# Objects of a store by their keys

A store in which objects that are being deleted keep their place, as in a live cluster.

* `Key`, `Store.under`      kind, namespace and name of an object, and the object that goes by them;
* `under_answer_of_ne`      a call leaves the objects under all keys but its own as they are;
* `create_cases`            an object is created only if there is none under its key;
* `under_replaced`          what has been replaced is there afterwards;
* `mem_objects_answer`      no object comes but by a call that creates or replaces it.
-/

namespace ReleaseUpgrade

/-- kind, namespace and name of an object -/
structure Key where
  kind : Kind
  ns : Option String
  name : String
  deriving DecidableEq

/-- the key of an object -/
def Kind.key (k : Kind) (o : k.Object) : Key := ⟨k, (k.metadata o).ns, (k.metadata o).nameAny⟩

/-- the key that a writing call is about -/
def Call.key? : Call → Option Key
  | .create k o | .replace k o => some (k.key o)
  | .delete k ns name => some ⟨k, some ns, name⟩
  | _ => none

theorem Call.key?_eq_none {c : Call} (h : c.writes = false) : c.key? = none := by
  cases c <;> first | rfl | cases h

namespace Store

/-- the object under a key -/
def under (s : Store) (key : Key) : Option key.kind.Object :=
  (s.objects key.kind).find? (isNamed key.kind key.ns key.name)

section
variable {k : Kind} {ns : Option String} {name : String} {o : k.Object}

theorem isNamed_iff : isNamed k ns name o = true ↔ k.key o = ⟨k, ns, name⟩ := by
  rw [isNamed, Bool.and_eq_true, decide_eq_true_iff, decide_eq_true_iff, Kind.key, Key.mk.injEq]
  exact ⟨fun h => ⟨rfl, h.2, h.1⟩, fun h => ⟨h.2.2, h.2.1⟩⟩

theorem isSame_self : isSame k o o = true := isNamed_iff.mpr rfl

theorem find?_putIn_self (os : List k.Object) : (putIn k o os).find? (isSame k o) = some o := by
  induction os with
  | nil => rw [putIn, List.find?_cons_of_pos isSame_self]
  | cons o' rest ih =>
    unfold putIn
    split
    · rw [List.find?_cons_of_pos isSame_self]
    · rename_i hne
      rw [List.find?_cons_of_neg hne]
      exact ih

theorem find?_putIn_of_ne (hne : k.key o ≠ ⟨k, ns, name⟩) (os : List k.Object) :
    (putIn k o os).find? (isNamed k ns name) = os.find? (isNamed k ns name) := by
  have ho : ¬isNamed k ns name o = true := fun h => hne (isNamed_iff.mp h)
  induction os with
  | nil => rw [putIn, List.find?_cons_of_neg ho]
  | cons o' rest ih =>
    unfold putIn
    split
    · rename_i hsame
      have ho' : ¬isNamed k ns name o' = true := fun h =>
        hne ((isNamed_iff.mp hsame).symm.trans (isNamed_iff.mp h))
      rw [List.find?_cons_of_neg ho, List.find?_cons_of_neg ho']
    · rw [List.find?_cons, List.find?_cons, ih]

theorem find?_remaining {ns' : Option String} {name' : String}
    (hne : (⟨k, ns', name'⟩ : Key) ≠ ⟨k, ns, name⟩) (os : List k.Object) :
    (os.filter fun o => !isNamed k ns' name' o).find? (isNamed k ns name) =
      os.find? (isNamed k ns name) := by
  induction os with
  | nil => rfl
  | cons o rest ih =>
    cases ho : isNamed k ns' name' o with
    | false => rw [List.filter_cons_of_pos (by rw [ho]; rfl), List.find?_cons, List.find?_cons, ih]
    | true =>
      have ho' : ¬isNamed k ns name o = true := fun h =>
        hne ((isNamed_iff.mp ho).symm.trans (isNamed_iff.mp h))
      rw [List.filter_cons_of_neg (by rw [ho]; exact Bool.false_ne_true), ih,
        List.find?_cons_of_neg ho']

end

section
variable {s : Store}

/-- other objects of a kind do not matter if they leave the one under the key as it is -/
theorem under_withObjects {k : Kind} {os : List k.Object} {key : Key}
    (h : ∀ ns name, key = ⟨k, ns, name⟩ →
      os.find? (isNamed k ns name) = (s.objects k).find? (isNamed k ns name)) :
    (s.withObjects k os).under key = s.under key := by
  obtain ⟨k', ns, name⟩ := key
  by_cases hk : k = k'
  · subst hk
    rw [under, objects_withObjects]
    exact h ns name rfl
  · rw [under, objects_withObjects_of_ne s hk]
    rfl

variable (hstay : s.replaceTerminating = false)
include hstay

/-- an object is created if there is none under its key; otherwise nothing changes -/
theorem create_cases (k : Kind) (o : k.Object) :
    (s.under (k.key o) = none ∧ s.create k o = (.ok (), s.withObjects k (s.objects k ++ [o]))) ∨
      ∃ path, s.create k o = (.error (.alreadyExists path), s) := by
  unfold create
  split
  · rename_i hnone
    exact .inl ⟨hnone, rfl⟩
  · rw [hstay, Bool.false_and, if_neg Bool.false_ne_true]
    exact .inr ⟨_, rfl⟩

/-- a call leaves the objects under all other keys as they are -/
theorem under_answer_of_ne {c : Call} {key : Key} (h : c.key? ≠ some key) :
    (answer c s).2.under key = s.under key := by
  cases c with
  | create k o =>
    obtain ⟨_, hc⟩ | ⟨_, hc⟩ := create_cases hstay k o
    · show (s.create k o).2.under key = _
      rw [hc]
      refine under_withObjects fun ns name hkey => ?_
      have ho : ¬isNamed k ns name o = true := fun hn =>
        h (by rw [hkey, ← isNamed_iff.mp hn]; rfl)
      rw [List.find?_append, List.find?_cons_of_neg ho, List.find?_nil, Option.or_none]
    · show (s.create k o).2.under key = _
      rw [hc]
  | replace k o =>
    exact under_withObjects fun ns name hkey =>
      find?_putIn_of_ne (fun ho => h (by rw [hkey, ← ho]; rfl)) _
  | delete k ns' name' =>
    exact under_withObjects fun ns name hkey =>
      find?_remaining (fun he => h (by rw [hkey, ← he]; rfl)) _
  | list | get | latestRelease | patchStatus | setFinalizers | publishEvent | wait => rfl

theorem under_created {k : Kind} {o : k.Object} (hok : (s.create k o).1 = .ok ()) :
    s.under (k.key o) = none ∧ (s.create k o).2.under (k.key o) = some o := by
  obtain ⟨hnone, hc⟩ | ⟨_, hc⟩ := create_cases hstay k o
  · refine ⟨hnone, ?_⟩
    have hold : (s.objects k).find? (isSame k o) = none := hnone
    show ((s.create k o).2.objects k).find? (isSame k o) = some o
    rw [hc, objects_withObjects, List.find?_append, hold, List.find?_cons_of_pos isSame_self]
    rfl
  · rw [hc] at hok
    cases hok

omit hstay in
theorem under_replaced (k : Kind) (o : k.Object) : (s.put k o).under (k.key o) = some o := by
  show ((s.put k o).objects k).find? (isSame k o) = some o
  rw [put, objects_withObjects, find?_putIn_self]

end

section
variable {s : Store}

/-- what holds of the objects that are put in, and of all that were there, holds of all that are
there afterwards -/
theorem forall_objects_withObjects {P : (k : Kind) → k.Object → Prop} {k k' : Kind}
    {os : List k'.Object} (hos : ∀ o ∈ os, P k' o) (hs : ∀ o ∈ s.objects k, P k o) :
    ∀ o ∈ (s.withObjects k' os).objects k, P k o := by
  by_cases hk : k' = k
  · subst hk
    rw [objects_withObjects]
    exact hos
  · rw [objects_withObjects_of_ne s hk]
    exact hs

theorem mem_putIn {k : Kind} {o o' : k.Object} {os : List k.Object} (h : o' ∈ putIn k o os) :
    o' = o ∨ o' ∈ os := by
  induction os with
  | nil => exact .inl (List.mem_singleton.mp h)
  | cons p rest ih =>
    unfold putIn at h
    split at h
    · exact (List.mem_cons.mp h).imp_right (List.mem_cons_of_mem p)
    · obtain rfl | h := List.mem_cons.mp h
      · exact .inr List.mem_cons_self
      · exact (ih h).imp_right (List.mem_cons_of_mem p)

/-- an object that is there after a call was there before it, or the call creates it or puts it in
the place of another one -/
theorem mem_objects_answer {c : Call} {k : Kind} {o : k.Object}
    (h : o ∈ (answer c s).2.objects k) : o ∈ s.objects k ∨ c = .create k o ∨ c = .replace k o := by
  -- the call may be about another kind than that of the object
  have kept {k' : Kind} {os : List k'.Object}
      (hos : ∀ p ∈ os, p ∈ s.objects k' ∨ c = .create k' p ∨ c = .replace k' p)
      (h : o ∈ (s.withObjects k' os).objects k) :
      o ∈ s.objects k ∨ c = .create k o ∨ c = .replace k o :=
    forall_objects_withObjects (P := fun k p => p ∈ s.objects k ∨ c = .create k p ∨
      c = .replace k p) hos (fun _ hp => .inl hp) o h
  cases c with
  | create k' o' =>
    change o ∈ (s.create k' o').2.objects k at h
    unfold create at h
    split at h
    · refine kept (fun p hp => ?_) h
      obtain hp | hp := List.mem_append.mp hp
      · exact .inl hp
      · rw [List.mem_singleton.mp hp]
        exact .inr (.inl rfl)
    split at h
    · refine kept (fun p hp => ?_) h
      obtain rfl | hp := mem_putIn hp
      · exact .inr (.inl rfl)
      · exact .inl hp
    · exact .inl h
  | replace k' o' =>
    refine kept (fun p hp => ?_) h
    obtain rfl | hp := mem_putIn hp
    · exact .inr (.inr rfl)
    · exact .inl hp
  | delete k' ns name => exact kept (fun p hp => .inl (List.mem_filter.mp hp).1) h
  | list | get | latestRelease | patchStatus | setFinalizers | publishEvent | wait => exact .inl h

theorem not_isNamed_of_mem_deleted {k : Kind} {ns name : String} {o : k.Object}
    (h : o ∈ (answer (.delete k ns name) s).2.objects k) :
    ¬isNamed k (some ns) name o = true := by
  change o ∈ (s.withObjects k _).objects k at h
  rw [objects_withObjects] at h
  simpa using (List.mem_filter.mp h).2

end

end Store

end ReleaseUpgrade
