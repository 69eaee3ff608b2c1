import Mathlib.Data.List.Nodup
import ReleaseUpgrade.Admission
import ReleaseUpgrade.Proofs.Upgrade.Status

/-!
# The conditions of a status as a whole

* `Status.types`       the types of the conditions in their order; setting a condition keeps them and
                       appends at most one;
* `Status.Sound`       no type occurs twice, and every condition has the status of its reason;
* `Status.Rewritten`   nothing but the condition of one type has been set, and never to be pending;
* `Status.OneSet`      what that means for the list: all conditions keep their places, and one of them
                       has been changed or added, `Rewritten.oneSet`.
-/

namespace ReleaseUpgrade

/-- a condition that has the status of its reason is finished unless its reason locks the plan -/
theorem Condition.isFinished_eq {c : Condition} (h : c.status = c.reason.status) :
    c.isFinished = !Admission.locks c.reason := by
  rw [isFinished, h]
  cases c.reason <;> rfl

namespace Status

/-- the condition of a workload is not called as the event about the end of an upgrade is -/
theorem workloadUpgraded_ne_completed (prettyName : String) :
    workloadUpgraded prettyName ≠ "UpgradeCompleted" := by
  intro h
  have hchars : (Text.compact prettyName).toList ++ "Upgraded".toList =
      "UpgradeC".toList ++ "ompleted".toList := by
    rw [← String.toList_append]
    exact congrArg String.toList h
  obtain ⟨_, hend⟩ := List.append_inj' hchars (by decide)
  exact absurd hend (by decide)

/-- the types of the conditions -/
def types (s : Status) : List String := s.conditions.map (·.type)

section
variable (now : Instant) (type : String) (reason : Reason) (message : String)

theorem map_type_setIn (cs : List Condition) :
    (setIn now type reason message cs).map (·.type) =
      if type ∈ cs.map (·.type) then cs.map (·.type) else cs.map (·.type) ++ [type] := by
  induction cs with
  | nil => rfl
  | cons c rest ih =>
    by_cases hc : c.type = type
    · have hmem : type ∈ (c :: rest).map (·.type) := List.mem_map.mpr ⟨c, List.mem_cons_self, hc⟩
      rw [setIn, if_pos hc, if_pos hmem]
      rfl
    · have hmem : type ∈ (c :: rest).map (·.type) ↔ type ∈ rest.map (·.type) := by
        rw [List.map_cons, List.mem_cons]
        exact or_iff_right (Ne.symm hc)
      rw [setIn, if_neg hc, List.map_cons, ih]
      by_cases hrest : type ∈ rest.map (·.type)
      · rw [if_pos hrest, if_pos (hmem.mpr hrest), List.map_cons]
      · rw [if_neg hrest, if_neg fun h => hrest (hmem.mp h), List.map_cons, List.cons_append]

theorem mem_setIn {cs : List Condition} {c : Condition}
    (h : c ∈ setIn now type reason message cs) :
    c ∈ cs ∨ c.type = type ∧ c.status = reason.status ∧ c.reason = reason := by
  induction cs with
  | nil =>
    rw [List.mem_singleton.mp h]
    exact .inr ⟨rfl, rfl, rfl⟩
  | cons d rest ih =>
    by_cases hd : d.type = type
    · rw [setIn, if_pos hd] at h
      obtain rfl | h := List.mem_cons.mp h
      · exact .inr ⟨hd, rfl, rfl⟩
      · exact .inl (List.mem_cons_of_mem d h)
    · rw [setIn, if_neg hd] at h
      obtain rfl | h := List.mem_cons.mp h
      · exact .inl List.mem_cons_self
      · exact (ih h).imp_left (List.mem_cons_of_mem d)

variable (s : Status)

/-- setting a condition keeps all types and appends its own if it is new -/
theorem types_setCondition :
    (s.setCondition now type reason message).types =
      if type ∈ s.types then s.types else s.types ++ [type] :=
  map_type_setIn now type reason message s.conditions

theorem mem_types_setCondition {other : String} :
    other ∈ (s.setCondition now type reason message).types ↔ other ∈ s.types ∨ other = type := by
  rw [types_setCondition]
  by_cases h : type ∈ s.types
  · rw [if_pos h]
    refine ⟨.inl, ?_⟩
    rintro (h' | rfl)
    · exact h'
    · exact h
  · rw [if_neg h, List.mem_append, List.mem_singleton]

/-- a condition that has been set is finished if its reason says so -/
theorem isFinished_setCondition :
    (s.setCondition now type reason message).isFinished type = !Admission.locks reason := by
  obtain ⟨c, hc, hstatus, rfl, _⟩ := condition?_setCondition now type reason message s
  rw [isFinished, hc, Option.any_some, Condition.isFinished_eq hstatus]

end

section
variable {s : Status} {type : String}

theorem mem_types_iff : type ∈ s.types ↔ ∃ c ∈ s.conditions, c.type = type := List.mem_map

theorem mem_of_condition? {c : Condition} (h : s.condition? type = some c) :
    c ∈ s.conditions ∧ c.type = type :=
  ⟨List.mem_of_find?_eq_some h, by simpa using List.find?_some h⟩

theorem condition?_of_mem_types (h : type ∈ s.types) : ∃ c, s.condition? type = some c := by
  obtain ⟨c, hc, rfl⟩ := mem_types_iff.mp h
  refine Option.isSome_iff_exists.mp (List.find?_isSome.mpr ⟨c, hc, ?_⟩)
  exact decide_eq_true rfl

theorem isFinished_of_isSucceeded (h : s.isSucceeded type = true) : s.isFinished type = true := by
  unfold isSucceeded at h
  unfold isFinished
  cases hc : s.condition? type with
  | none =>
    rw [hc] at h
    cases h
  | some c =>
    rw [hc, Option.any_some] at h
    rw [Option.any_some, Condition.isFinished, h, Bool.true_or]

end

/-- no type occurs twice, and every condition has the status of its reason -/
structure Sound (s : Status) : Prop where
  nodup : s.types.Nodup
  paired : ∀ c ∈ s.conditions, c.status = c.reason.status

namespace Sound
variable {s : Status}

theorem empty : Sound {} := ⟨List.nodup_nil, fun _ h => absurd h List.not_mem_nil⟩

theorem setCondition (h : s.Sound) (now : Instant) (type : String) (reason : Reason)
    (message : String) : (s.setCondition now type reason message).Sound where
  nodup := by
    rw [types_setCondition]
    by_cases hmem : type ∈ s.types
    · rw [if_pos hmem]
      exact h.nodup
    · rw [if_neg hmem]
      rw [← List.concat_eq_append]
      exact h.nodup.concat hmem
  paired c hc := by
    obtain hc | ⟨_, hstatus, hreason⟩ := mem_setIn now type reason message hc
    · exact h.paired c hc
    · rw [hstatus, hreason]

/-- a condition of a sound status is the one that is found for its type -/
theorem condition?_eq (h : s.Sound) {c : Condition} (hc : c ∈ s.conditions) :
    s.condition? c.type = some c := by
  obtain ⟨d, hd⟩ := condition?_of_mem_types (mem_types_iff.mpr ⟨c, hc, rfl⟩)
  obtain ⟨hmem, htype⟩ := mem_of_condition? hd
  rw [hd, List.inj_on_of_nodup_map h.nodup hmem hc htype]

theorem isFinished_eq (h : s.Sound) {c : Condition} (hc : c ∈ s.conditions) :
    s.isFinished c.type = c.isFinished := by
  rw [isFinished, h.condition?_eq hc, Option.any_some]

end Sound

/-- nothing but the condition of a type has been set, and never to be pending -/
inductive Rewritten (now : Instant) (type : String) (before : Status) : Status → Prop
  | refl : Rewritten now type before before
  | set {s} (reason message) : Rewritten now type before s → reason ≠ .pending →
      Rewritten now type before (s.setCondition now type reason message)

namespace Rewritten
variable {now : Instant} {type : String} {before between after : Status}

theorem trans (h : Rewritten now type before between) (h' : Rewritten now type between after) :
    Rewritten now type before after := by
  induction h' with
  | refl => exact h
  | set reason message _ hreason ih => exact .set reason message ih hreason

theorem condition?_of_ne (h : Rewritten now type before after) {other : String}
    (hne : other ≠ type) : after.condition? other = before.condition? other := by
  induction h with
  | refl => rfl
  | set reason message _ _ ih => rw [condition?_setCondition_of_ne _ _ _ _ _ hne, ih]

theorem mem_or (h : Rewritten now type before after) {c : Condition} (hc : c ∈ after.conditions) :
    c ∈ before.conditions ∨ c.type = type := by
  induction h with
  | refl => exact .inl hc
  | set reason message _ _ ih =>
    obtain hc | ⟨htype, _⟩ := mem_setIn now type reason message hc
    · exact ih hc
    · exact .inr htype

theorem mem_types (h : Rewritten now type before after) {other : String}
    (hmem : other ∈ before.types) : other ∈ after.types := by
  induction h with
  | refl => exact hmem
  | set reason message _ _ ih => exact (mem_types_setCondition ..).mpr (.inl ih)

theorem sound (h : Rewritten now type before after) (hs : before.Sound) : after.Sound := by
  induction h with
  | refl => exact hs
  | set reason message _ _ ih => exact ih.setCondition now type reason message

theorem observedGeneration_eq (h : Rewritten now type before after) :
    after.observedGeneration = before.observedGeneration := by
  induction h with
  | refl => rfl
  | set _ _ _ _ ih => exact ih

theorem lastSuccessfulRelease_eq (h : Rewritten now type before after) :
    after.lastSuccessfulRelease = before.lastSuccessfulRelease := by
  induction h with
  | refl => rfl
  | set _ _ _ _ ih => exact ih

theorem namingSuffix_eq (h : Rewritten now type before after) :
    after.namingSuffix = before.namingSuffix := by
  induction h with
  | refl => rfl
  | set _ _ _ _ ih => exact ih

end Rewritten

/-- the first condition of a type has been changed in its place, or one has been added at the end
because there was none; it is not pending, and all other conditions are as they were -/
inductive OneSet (type : String) (before : List Condition) : List Condition → Prop
  | changed {pre c c' post} : before = pre ++ c :: post → (∀ d ∈ pre, d.type ≠ type) →
      c.type = type → c'.type = type → c'.reason ≠ .pending → OneSet type before (pre ++ c' :: post)
  | added {c'} : (∀ d ∈ before, d.type ≠ type) → c'.type = type → c'.reason ≠ .pending →
      OneSet type before (before ++ [c'])

section
variable {now : Instant} {type : String} {reason : Reason} {message : String}

theorem setIn_append {pre cs : List Condition} (hpre : ∀ d ∈ pre, d.type ≠ type) :
    setIn now type reason message (pre ++ cs) = pre ++ setIn now type reason message cs := by
  induction pre with
  | nil => rfl
  | cons d pre ih =>
    obtain ⟨hd, hpre⟩ := List.forall_mem_cons.mp hpre
    rw [List.cons_append, setIn, if_neg hd, ih hpre, List.cons_append]

theorem OneSet.setIn {before after : List Condition} (h : OneSet type before after)
    (hreason : reason ≠ .pending) : OneSet type before (setIn now type reason message after) := by
  cases h with
  | changed hsplit hpre hc hc' _ =>
    rw [setIn_append hpre, Status.setIn, if_pos hc']
    exact .changed hsplit hpre hc hc' hreason
  | added hnone hc' _ =>
    rw [setIn_append hnone, Status.setIn, if_pos hc']
    exact .added hnone hc' hreason

theorem OneSet.cons {d : Condition} {before after : List Condition} (hd : d.type ≠ type)
    (h : OneSet type before after) : OneSet type (d :: before) (d :: after) := by
  cases h with
  | changed hsplit hpre hc hc' hreason =>
    rw [hsplit, ← List.cons_append, ← List.cons_append]
    exact .changed rfl (List.forall_mem_cons.mpr ⟨hd, hpre⟩) hc hc' hreason
  | added hnone hc' hreason =>
    exact .added (List.forall_mem_cons.mpr ⟨hd, hnone⟩) hc' hreason

theorem oneSet_setIn (hreason : reason ≠ .pending) (cs : List Condition) :
    OneSet type cs (setIn now type reason message cs) := by
  induction cs with
  | nil => exact .added (List.forall_mem_nil _) rfl hreason
  | cons d rest ih =>
    by_cases hd : d.type = type
    · rw [setIn, if_pos hd]
      exact .changed (List.nil_append _).symm (List.forall_mem_nil _) hd hd hreason
    · rw [setIn, if_neg hd]
      exact ih.cons hd

/-- a condition keeps its place, unless it is the first of the type -/
theorem OneSet.getElem? {before after : List Condition} (h : OneSet type before after) {i : Nat}
    {c : Condition} (hc : before[i]? = some c) :
    after[i]? = some c ∨ before.find? (fun d => d.type = type) = some c := by
  cases h with
  | @changed pre d d' post hsplit hpre hd _ _ =>
    subst hsplit
    obtain hlt | rfl | hgt := Nat.lt_trichotomy i pre.length
    · rw [List.getElem?_append_left hlt] at hc ⊢
      exact .inl hc
    · rw [List.getElem?_append_right (Nat.le_refl _), Nat.sub_self] at hc
      obtain rfl : d = c := Option.some.inj hc
      refine .inr (List.find?_eq_some_iff_append.mpr ⟨decide_eq_true hd, pre, post, rfl, ?_⟩)
      exact fun e he => by simpa using hpre e he
    · obtain ⟨k, rfl⟩ := Nat.exists_eq_add_of_lt hgt
      have hle : pre.length ≤ pre.length + k + 1 := by omega
      have hsub : pre.length + k + 1 - pre.length = k + 1 := by omega
      rw [List.getElem?_append_right hle, hsub, List.getElem?_cons_succ] at hc ⊢
      exact .inl hc
  | added _ _ _ =>
    have hlt : i < before.length := (List.getElem?_eq_some_iff.mp hc).1
    rw [List.getElem?_append_left hlt]
    exact .inl hc

/-- if anything has been set, it is one condition -/
theorem Rewritten.oneSet {before after : Status} (h : Rewritten now type before after) :
    after.conditions = before.conditions ∨ OneSet type before.conditions after.conditions := by
  induction h with
  | refl => exact .inl rfl
  | set reason message _ hreason ih =>
    obtain ih | ih := ih
    · rw [setCondition, ih]
      exact .inr (oneSet_setIn hreason _)
    · exact .inr (ih.setIn hreason)

end

end Status

end ReleaseUpgrade
