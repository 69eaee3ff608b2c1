import ReleaseUpgrade.Proofs.Json.Document
import ReleaseUpgrade.Proofs.Time.Reader
import ReleaseUpgrade.Proofs.Upgrade.Conditions

/-!
# The document of a status

A status is written without the fields that say nothing.  A patch keeps what it does not mention, so
the status that is stored is the one that has been written only if none of these fields has had a
value before.

* `Condition.ofJson?_toJson`        a condition is read back from its document;
* `Status.Writable`                 a status that can be read back; those that are read are so;
* `Status.Outlasts`                 the status has a value wherever the one before has;
* `Status.ofJson?_mergePatch`       then the patched document is read as the status;
* `UpgradePlan.covers_statusField`  the same for the status in the document of a plan.
-/

namespace ReleaseUpgrade

theorem ConditionStatus.ofJson?_text (s : ConditionStatus) : ofJson? (.str s.text) = some s := by
  cases s <;> rfl

theorem Reason.ofJson?_text (r : Reason) : ofJson? (.str r.text) = some r := by
  cases r <;> rfl

namespace Condition
variable {c : Condition}

theorem ofJson?_toJson (h : c.lastTransition.Sound) : ofJson? c.toJson = some c := by
  have hopen : Record.open? fieldNames c.toJson =
      some ⟨[("type", .str c.type), ("status", .str c.status.text),
        ("reason", .str c.reason.text), ("message", .str c.message),
        ("lastTransitionTime", .str c.lastTransition.text)], false⟩ := rfl
  rw [ofJson?, hopen, Option.bind_eq_bind, Option.bind_some]
  generalize hr : (⟨_, false⟩ : Record) = r
  have htype : r.get? "type" = some (.str c.type) := hr ▸ rfl
  have hstatus : r.get? "status" = some (.str c.status.text) := hr ▸ rfl
  have hreason : r.get? "reason" = some (.str c.reason.text) := hr ▸ rfl
  have hmessage : r.get? "message" = some (.str c.message) := hr ▸ rfl
  have htime : r.get? "lastTransitionTime" = some (.str c.lastTransition.text) := hr ▸ rfl
  simp only [Record.required, Record.defaulted, htype, hstatus, hreason, hmessage, htime,
    ConditionStatus.ofJson?_text, Reason.ofJson?_text, Json.str?, Instant.ofCondition?_text h,
    Option.bind_eq_bind, Option.bind_some]

theorem sound_of_ofJson? {j : Json} (h : ofJson? j = some c) : c.lastTransition.Sound := by
  simp only [ofJson?, Option.bind_eq_bind, Option.bind_eq_some_iff] at h
  obtain ⟨r, _, _, _, _, _, _, _, _, _, time, htime, h⟩ := h
  cases h
  unfold Record.required at htime
  split at htime
  · obtain ⟨_, _, hread⟩ := Option.bind_eq_some_iff.mp htime
    exact Instant.sound_of_ofCondition? hread
  · cases htime

end Condition

namespace Status

/-- the status can be read back: the calendar has the times of its conditions, and its generation is
an integer of 64 bits -/
structure Writable (s : Status) : Prop where
  times : ∀ c ∈ s.conditions, c.lastTransition.Sound
  generation : Json.int64? (.int s.observedGeneration) = some s.observedGeneration

/-- the status has a value wherever the one before has -/
structure Outlasts (before s : Status) : Prop where
  conditions : s.conditions = [] → before.conditions = []
  namingSuffix : s.namingSuffix = none → before.namingSuffix = none
  lastSuccessfulRelease : s.lastSuccessfulRelease = none → before.lastSuccessfulRelease = none

theorem Outlasts.refl (s : Status) : Outlasts s s := ⟨id, id, id⟩

section
variable (now : Instant) (type : String) (reason : Reason) (message : String)

theorem setIn_ne_nil (cs : List Condition) : setIn now type reason message cs ≠ [] := by
  cases cs with
  | nil => exact List.cons_ne_nil _ _
  | cons c rest =>
    rw [setIn]
    split <;> exact List.cons_ne_nil _ _

/-- the time of a condition is an old one or the one at which a condition has been set -/
theorem lastTransition_of_mem_setIn {cs : List Condition} {c : Condition}
    (h : c ∈ setIn now type reason message cs) :
    c.lastTransition = now ∨ ∃ d ∈ cs, d.lastTransition = c.lastTransition := by
  induction cs with
  | nil =>
    rw [List.mem_singleton.mp h]
    exact .inl rfl
  | cons d rest ih =>
    by_cases hd : d.type = type
    · rw [setIn, if_pos hd] at h
      obtain rfl | h := List.mem_cons.mp h
      · by_cases hstatus : d.status = reason.status
        · exact .inr ⟨d, List.mem_cons_self, (if_pos hstatus).symm⟩
        · exact .inl (if_neg hstatus)
      · exact .inr ⟨c, List.mem_cons_of_mem d h, rfl⟩
    · rw [setIn, if_neg hd] at h
      obtain rfl | h := List.mem_cons.mp h
      · exact .inr ⟨c, List.mem_cons_self, rfl⟩
      · obtain hnow | ⟨e, he, htime⟩ := ih h
        · exact .inl hnow
        · exact .inr ⟨e, List.mem_cons_of_mem d he, htime⟩

variable {now} {before s : Status}

theorem Writable.setCondition (h : s.Writable) (hnow : now.Sound) :
    (s.setCondition now type reason message).Writable where
  times c hc := by
    obtain htime | ⟨d, hd, htime⟩ := lastTransition_of_mem_setIn now type reason message hc
    · exact htime ▸ hnow
    · exact htime ▸ h.times d hd
  generation := h.generation

theorem Outlasts.setCondition (h : Outlasts before s) :
    Outlasts before (s.setCondition now type reason message) :=
  ⟨fun hnil => (setIn_ne_nil _ _ _ _ _ hnil).elim, h.namingSuffix, h.lastSuccessfulRelease⟩

end

/-- the fields of a status as they are written -/
def written (s : Status) : List (String × Option Json) := [
  ("conditions",
    if s.conditions.isEmpty then none else some (.arr (s.conditions.map Condition.toJson))),
  ("observedGeneration", some (.int s.observedGeneration)),
  ("namingSuffix", s.namingSuffix.map Json.str),
  ("lastSuccessfulReleaseVersion", s.lastSuccessfulRelease.map Json.str)]

/-- the fields that have a value -/
def changes (s : Status) : List (String × Json) := s.written.filterMap fun f => f.2.map (f.1, ·)

theorem nodup_written (s : Status) : (s.written.map Prod.fst).Nodup := by
  show (["conditions", "observedGeneration", "namingSuffix", "lastSuccessfulReleaseVersion"] :
    List String).Nodup
  decide

theorem isPlain_of_mem_changes {s : Status} : ∀ e ∈ s.changes, e.2.isPlain = true := by
  intro e he
  obtain ⟨f, hf, he⟩ := List.mem_filterMap.mp he
  obtain ⟨j, hj, rfl⟩ := Option.map_eq_some_iff.mp he
  simp only [written, List.mem_cons, List.not_mem_nil, or_false] at hf
  obtain rfl | rfl | rfl | rfl := hf
  · dsimp only at hj
    split at hj
    · cases hj
    · cases hj
      rfl
  · cases hj
    rfl
  · obtain ⟨_, _, rfl⟩ := Option.map_eq_some_iff.mp hj
    rfl
  · obtain ⟨_, _, rfl⟩ := Option.map_eq_some_iff.mp hj
    rfl

theorem mergePatch_toJson (stored : Json) (s : Status) :
    stored.mergePatch s.toJson = .obj (Dict.insertAll stored.fieldsOr s.changes) := by
  have hjson : s.toJson = .obj s.changes := rfl
  rw [hjson, Json.mergePatch, Json.mergeFields_eq isPlain_of_mem_changes]

/-- a field of the patched document is the one that is written, or else the one that was there -/
theorem get?_insertAll_changes (k : String) (fields : Dict Json) (s : Status) :
    Dict.get? k (Dict.insertAll fields s.changes) =
      (Dict.get? k s.written).join.or (Dict.get? k fields) := by
  rw [changes, Dict.get?_insertAll (Json.nodup_filterMap s.nodup_written),
    Json.get?_filterMap s.nodup_written]

/-- what the status leaves out has no value among the fields -/
structure Covers (s : Status) (fields : Dict Json) : Prop where
  conditions : s.conditions = [] →
    Record.defaulted ⟨fields, false⟩ "conditions" [] (Json.list? Condition.ofJson?) = some []
  namingSuffix : s.namingSuffix = none →
    Record.optional ⟨fields, false⟩ "namingSuffix" Json.str? = some none
  lastSuccessfulRelease : s.lastSuccessfulRelease = none →
    Record.optional ⟨fields, false⟩ "lastSuccessfulReleaseVersion" Json.str? = some none

theorem covers_nil (s : Status) : s.Covers [] := ⟨fun _ => rfl, fun _ => rfl, fun _ => rfl⟩

theorem Outlasts.covers {before s : Status} {fields : Dict Json} (h : Outlasts before s)
    (hread : ofJson? (.obj fields) = some before) : s.Covers fields := by
  simp only [ofJson?, Option.bind_eq_bind, Option.bind_eq_some_iff] at hread
  obtain ⟨r, hopen, cs, hcs, _, _, suffix, hsuffix, release, hrelease, heq⟩ := hread
  cases heq
  cases Record.eq_of_open? hopen
  refine ⟨fun hnil => ?_, fun hnone => ?_, fun hnone => ?_⟩
  · rw [hcs]
    exact congrArg some (h.conditions hnil)
  · rw [hsuffix]
    exact congrArg some (h.namingSuffix hnone)
  · rw [hrelease]
    exact congrArg some (h.lastSuccessfulRelease hnone)

section
variable {stored : Dict Json} {s : Status}

theorem conditions_patched (hs : s.Writable) (hcovers : s.Covers stored) :
    Record.defaulted ⟨Dict.insertAll stored s.changes, false⟩ "conditions" []
      (Json.list? Condition.ofJson?) = some s.conditions := by
  have hget := get?_insertAll_changes "conditions" stored s
  have hwritten : Dict.get? "conditions" s.written = some (if s.conditions.isEmpty then none
    else some (.arr (s.conditions.map Condition.toJson))) := rfl
  rw [hwritten] at hget
  by_cases hnil : s.conditions = []
  · -- nothing is written, so what is there is read, and it is empty
    rw [if_pos (List.isEmpty_iff.mpr hnil)] at hget
    rw [hnil, ← hcovers.conditions hnil, Record.defaulted, Record.defaulted, Record.get?, hget]
    rfl
  · rw [if_neg (mt List.isEmpty_iff.mp hnil)] at hget
    rw [Record.defaulted, Record.get?, hget]
    exact Json.list?_map fun c hc => Condition.ofJson?_toJson (hs.times c hc)

/-- a text that is written if there is one, and otherwise has no value before -/
theorem text_patched {name : String} {text : Option String}
    (hwritten : Dict.get? name s.written = some (text.map Json.str))
    (hnone : text = none → Record.optional ⟨stored, false⟩ name Json.str? = some none) :
    Record.optional ⟨Dict.insertAll stored s.changes, false⟩ name Json.str? = some text := by
  have hget := get?_insertAll_changes name stored s
  rw [hwritten] at hget
  cases text with
  | none =>
    rw [← hnone rfl, Record.optional, Record.optional, Record.get?, hget]
    rfl
  | some text =>
    rw [Record.optional, Record.get?, hget]
    rfl

end

/-- a status takes the place of the one that is stored if it leaves out no field that has a value
there -/
theorem ofJson?_mergePatch {s : Status} {stored : Json} (hstored : stored.Stored)
    (hs : s.Writable) (hcovers : s.Covers stored.fieldsOr) :
    ofJson? (stored.mergePatch s.toJson) = some s := by
  have hordered := Dict.ordered_insertAll hstored.ordered_fieldsOr s.changes
  have hconditions := conditions_patched hs hcovers
  have hgeneration : Record.defaulted ⟨Dict.insertAll stored.fieldsOr s.changes, false⟩
      "observedGeneration" 0 Json.int64? = some s.observedGeneration := by
    rw [Record.defaulted, Record.get?, get?_insertAll_changes]
    exact hs.generation
  have hsuffix : Record.optional ⟨Dict.insertAll stored.fieldsOr s.changes, false⟩
      "namingSuffix" Json.str? = some s.namingSuffix :=
    text_patched rfl hcovers.namingSuffix
  have hrelease : Record.optional ⟨Dict.insertAll stored.fieldsOr s.changes, false⟩
      "lastSuccessfulReleaseVersion" Json.str? = some s.lastSuccessfulRelease :=
    text_patched rfl hcovers.lastSuccessfulRelease
  rw [mergePatch_toJson, ofJson?, Record.open?_of_ordered hordered, Option.bind_eq_bind,
    Option.bind_some, hconditions, hgeneration, hsuffix, hrelease]
  rfl

theorem writable_of_ofJson? {j : Json} {s : Status} (h : ofJson? j = some s) : s.Writable := by
  simp only [ofJson?, Option.bind_eq_bind, Option.bind_eq_some_iff] at h
  obtain ⟨r, _, cs, hcs, generation, hgeneration, _, _, _, _, heq⟩ := h
  cases heq
  constructor
  · unfold Record.defaulted at hcs
    split at hcs
    · intro c hc
      obtain ⟨_, hread⟩ := Json.exists_of_list? hcs c hc
      exact Condition.sound_of_ofJson? hread
    · cases hcs
      exact fun _ hc => absurd hc List.not_mem_nil
  · unfold Record.defaulted at hgeneration
    split at hgeneration
    · exact Json.int64?_int hgeneration
    · cases hgeneration
      rfl

theorem writable_empty : Writable {} := ⟨fun _ hc => absurd hc List.not_mem_nil, rfl⟩

end Status

namespace UpgradePlan
variable {stored : Json} {plan : UpgradePlan}

theorem generation_of_ofJson? (h : ofJson? stored = some plan) :
    Json.int64? (.int (plan.metadata.generation.getD 0)) =
      some (plan.metadata.generation.getD 0) := by
  simp only [ofJson?, Option.bind_eq_bind, Option.bind_eq_some_iff] at h
  obtain ⟨_, _, metadata, hmetadata, _, _, _, _, heq⟩ := h
  cases heq
  unfold Record.required at hmetadata
  split at hmetadata
  · simp only [Metadata.ofJson?, Option.bind_eq_bind, Option.bind_eq_some_iff] at hmetadata
    obtain ⟨_, _, _, _, _, _, _, _, _, _, _, _, generation, hgeneration, _, _, _, _, _, _, _, _, _,
      _, heq⟩ := hmetadata
    cases heq
    unfold Shape.member? at hgeneration
    split at hgeneration
    · obtain ⟨n, hn, rfl⟩ := Option.map_eq_some_iff.mp hgeneration
      exact Json.int64?_int hn
    · cases hgeneration
      rfl
  · cases hmetadata

theorem status_of_ofJson? (h : ofJson? stored = some plan) :
    ∃ r, Record.open? ["metadata", "spec", "status"] stored = some r ∧
      r.nullable "status" Status.ofJson? = some plan.status := by
  simp only [ofJson?, Option.bind_eq_bind, Option.bind_eq_some_iff] at h
  obtain ⟨r, hopen, _, _, _, _, status, hstatus, heq⟩ := h
  cases heq
  exact ⟨r, hopen, hstatus⟩

theorem writable_statusOr (h : ofJson? stored = some plan) : plan.statusOr.Writable := by
  obtain ⟨r, _, hstatus⟩ := status_of_ofJson? h
  unfold statusOr
  cases hs : plan.status with
  | none => exact Status.writable_empty
  | some s =>
    rw [hs] at hstatus
    unfold Record.nullable Record.orNull at hstatus
    split at hstatus
    · split at hstatus
      · cases hstatus
      · obtain ⟨_, hread, heq⟩ := Option.map_eq_some_iff.mp hstatus
        cases heq
        exact Status.writable_of_ofJson? hread
    · split at hstatus <;> cases hstatus

/-- the document that is stored for the status of a plan -/
def statusField (stored : Json) : Json := (Dict.get? "status" stored.fieldsOr).getD .null

theorem stored_statusField (h : stored.Stored) : (statusField stored).Stored := by
  unfold statusField
  cases hj : Dict.get? "status" stored.fieldsOr with
  | none => rfl
  | some j => exact h.field hj

/-- a status that outlasts that of a plan leaves out no field that has a value there -/
theorem covers_statusField (h : ofJson? stored = some plan) {s : Status}
    (hs : Status.Outlasts plan.statusOr s) : s.Covers (statusField stored).fieldsOr := by
  obtain ⟨r, hopen, hstatus⟩ := status_of_ofJson? h
  cases hfield : statusField stored with
  | obj fields =>
    cases stored with
    | obj all =>
      cases Record.eq_of_open? hopen
      have hget : Dict.get? "status" all = some (.obj fields) := by
        unfold statusField at hfield
        rw [Json.fieldsOr] at hfield
        cases hj : Dict.get? "status" all with
        | none =>
          rw [hj] at hfield
          cases hfield
        | some j =>
          rw [hj] at hfield
          exact congrArg some hfield
      rw [Record.nullable, Record.get?, hget] at hstatus
      obtain ⟨before, hread, hbefore⟩ := Option.map_eq_some_iff.mp hstatus
      rw [statusOr, ← hbefore] at hs
      exact hs.covers hread
    | _ => cases hfield
  | _ => exact Status.covers_nil s

end UpgradePlan

end ReleaseUpgrade
