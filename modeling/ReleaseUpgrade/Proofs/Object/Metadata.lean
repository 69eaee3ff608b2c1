import ReleaseUpgrade.Object.Metadata
import ReleaseUpgrade.Proofs.Json.RoundTrip

/-!
# Metadata by its shape

Ten members of metadata are read for what they hold, the others only pass through.  Written again
they are all members of one shape, each in its usual form.

* `Shape.get?_readMembers`     a member comes from the field with its name;
* `Metadata.members`           the members of metadata;
* `Metadata.readMembers_members`  metadata is written as its shape reads it;
* `Metadata.get?_fields`       so every member is written in its usual form.
-/

namespace ReleaseUpgrade

namespace Json

theorem eq_ofStrings_of_list? {j : Json} {ss : List String} (h : j.list? str? = some ss) :
    j = .ofStrings ss := by
  cases j with
  | arr items =>
    refine congrArg Json.arr ?_
    rw [list?] at h
    induction items generalizing ss with
    | nil =>
      cases h
      rfl
    | cons item items ih =>
      rw [List.mapM_cons] at h
      obtain ⟨s, hs, h⟩ := Option.bind_eq_some_iff.mp h
      obtain ⟨rest, hrest, h⟩ := Option.bind_eq_some_iff.mp h
      cases h
      rw [str?_eq_some_iff.mp hs, ih hrest, List.map_cons]
  | _ => cases h

theorem eq_mapValues_of_mapM {fields : List (String × Json)} {entries : List (String × String)}
    (h : fields.mapM (fun f => (str? f.2).map (f.1, ·)) = some entries) :
    fields = Dict.mapValues .str entries := by
  induction fields generalizing entries with
  | nil =>
    cases h
    rfl
  | cons f fields ih =>
    rw [List.mapM_cons] at h
    obtain ⟨e, he, h⟩ := Option.bind_eq_some_iff.mp h
    obtain ⟨rest, hrest, h⟩ := Option.bind_eq_some_iff.mp h
    cases h
    obtain ⟨s, hs, rfl⟩ := Option.map_eq_some_iff.mp he
    have hf : f = (f.1, .str s) := Prod.ext rfl (str?_eq_some_iff.mp hs)
    rw [ih hrest, hf]
    rfl

/-- an object of texts, of which the last of equal keys counts -/
theorem exists_of_stringDict? {j : Json} {d : Dict String} (h : j.dict? str? = some d) :
    ∃ entries, j = .ofStringDict entries ∧ d = Dict.ofList entries := by
  cases j with
  | obj fields =>
    obtain ⟨entries, hentries, rfl⟩ := Option.map_eq_some_iff.mp h
    exact ⟨entries, congrArg Json.obj (eq_mapValues_of_mapM hentries), rfl⟩
  | _ => cases h

theorem sorted_of_stringDict? {j : Json} {d : Dict String} (h : j.dict? str? = some d) :
    j.sorted = .ofStringDict d := by
  obtain ⟨entries, rfl, rfl⟩ := exists_of_stringDict? h
  have hstored : ∀ f ∈ Dict.mapValues Json.str entries, f.2.Stored := by
    intro f hf
    obtain ⟨e, _, rfl⟩ := List.mem_map.mp hf
    rfl
  rw [ofStringDict, sorted, sortedFields_of_stored hstored, ofStringDict, Dict.mapValues_ofList]

end Json

namespace Shape

section
variable {members : List (String × Bool × Shape)} {fields out : Dict Json} {name : String}
  {always : Bool} {s : Shape}

/-- the first member of a shape is there or not, and then come the others -/
theorem exists_of_readMembers (h : readMembers ((name, always, s) :: members) fields = some out) :
    ∃ others, readMembers members fields = some others ∧
      ((out = others ∧ (Dict.get? name fields).bind (read s) = none) ∨
        ∃ j, out = (name, j) :: others ∧
          (always = false → (Dict.get? name fields).bind (read s) = some j)) := by
  rw [readMembers] at h
  obtain ⟨others, hothers, h⟩ := Option.bind_eq_some_iff.mp h
  refine ⟨others, hothers, ?_⟩
  cases hget : Dict.get? name fields with
  | some j =>
    rw [hget] at h
    obtain ⟨v, hv, heq⟩ := Option.bind_eq_some_iff.mp h
    cases heq
    exact .inr ⟨v, rfl, fun _ => hv⟩
  | none =>
    rw [hget] at h
    cases always with
    | true =>
      cases h
      exact .inr ⟨blank s, rfl, nofun⟩
    | false =>
      cases h
      exact .inl ⟨rfl, rfl⟩

theorem mem_names_of_mem_readMembers (h : readMembers members fields = some out)
    {e : String × Json} (he : e ∈ out) : e.1 ∈ members.map Prod.fst := by
  induction members generalizing out with
  | nil =>
    rw [readMembers] at h
    cases h
    cases he
  | cons m members ih =>
    obtain ⟨others, hothers, ⟨rfl, _⟩ | ⟨j, rfl, _⟩⟩ := exists_of_readMembers h
    · exact List.mem_cons_of_mem _ (ih hothers he)
    · obtain rfl | he := List.mem_cons.mp he
      · exact List.mem_cons_self
      · exact List.mem_cons_of_mem _ (ih hothers he)

/-- a member that may be missing is there if it is given, in its usual form -/
theorem get?_readMembers (h : readMembers members fields = some out)
    (hnames : (members.map Prod.fst).Nodup) (hmem : (name, false, s) ∈ members) :
    Dict.get? name out = (Dict.get? name fields).bind (read s) := by
  induction members generalizing out with
  | nil => cases hmem
  | cons m members ih =>
    obtain ⟨hnew, hnames⟩ := List.nodup_cons.mp hnames
    obtain ⟨others, hothers, hout⟩ := exists_of_readMembers h
    obtain rfl | hmem := List.mem_cons.mp hmem
    · obtain ⟨rfl, hnone⟩ | ⟨j, rfl, hsome⟩ := hout
      · rw [hnone]
        exact Dict.get?_eq_none fun e he heq => hnew (by
          rw [← heq]
          exact mem_names_of_mem_readMembers hothers he)
      · rw [Dict.get?_cons, if_pos rfl]
        exact (hsome rfl).symm
    · have hothers := ih hothers hnames hmem
      obtain ⟨rfl, _⟩ | ⟨j, rfl, _⟩ := hout
      · exact hothers
      · have hne : m.1 ≠ name := fun heq => hnew (List.mem_map.mpr ⟨_, hmem, heq.symm⟩)
        rw [Dict.get?_cons, if_neg hne]
        exact hothers

end

/-! ## typed members -/

section
variable {α : Type} {fields : Dict Json} {name : String} {s : Shape} {read' : Json → Option α}
  {write : α → Json}

/-- a member that is read for what it holds and the members after it -/
theorem readMembers_cons_of_member? {x : Option α} (h : member? fields name read' = some x)
    (hread : ∀ j y, read' j = some y → read s j = some (write y))
    {members : List (String × Bool × Shape)} {written : List (String × Option Json)}
    {rest : List (String × Json)}
    (hothers : readMembers members fields =
      some (written.filterMap (fun f => f.2.map (f.1, ·)) ++ rest)) :
    readMembers (opt name s :: members) fields =
      some (((name, x.map write) :: written).filterMap (fun f => f.2.map (f.1, ·)) ++ rest) := by
  rw [opt, readMembers, hothers]
  unfold member? at h
  split at h
  · rename_i j _
    obtain ⟨y, hy, rfl⟩ := Option.map_eq_some_iff.mp h
    rw [Option.bind_eq_bind, Option.bind_some, hread j y hy]
    rfl
  · cases h
    rfl

end

theorem read_text {j : Json} {s : String} (h : j.str? = some s) : read .text j = some (.str s) := by
  rw [read, h]
  rfl

theorem read_int64 {j : Json} {n : Int} (h : j.int64? = some n) :
    read .int64 j = some (.int n) := by
  rw [read, h]
  rfl

theorem read_time {j : Json} {s : String} (h : (read .time j).bind Json.str? = some s) :
    read .time j = some (.str s) := by
  obtain ⟨v, hv, hs⟩ := Option.bind_eq_some_iff.mp h
  rw [hv, Json.str?_eq_some_iff.mp hs]

theorem mapM_read_text (ss : List String) :
    (ss.map Json.str).mapM (read .text) = some (ss.map .str) := by
  induction ss with
  | nil => rfl
  | cons s ss ih =>
    rw [List.map_cons, List.mapM_cons, read_text rfl, ih]
    rfl

theorem read_texts {j : Json} {ss : List String} (h : j.list? Json.str? = some ss) :
    read (.list .text) j = some (.ofStrings ss) := by
  rw [Json.eq_ofStrings_of_list? h, read]
  show ((ss.map Json.str).mapM (read .text)).map Json.arr = _
  rw [mapM_read_text]
  rfl

theorem mapM_read_entries (entries : List (String × String)) :
    (Dict.mapValues Json.str entries).mapM (fun f => (read .text f.2).map (f.1, ·)) =
      some (Dict.mapValues Json.str entries) := by
  induction entries with
  | nil => rfl
  | cons e entries ih =>
    have hcons : Dict.mapValues Json.str (e :: entries) =
        (e.1, .str e.2) :: Dict.mapValues .str entries := rfl
    rw [hcons, List.mapM_cons, ih, read_text rfl]
    rfl

theorem read_stringDict {j : Json} {d : Dict String} (h : j.dict? Json.str? = some d) :
    read (.dict .text) j = some (.ofStringDict d) := by
  obtain ⟨entries, rfl, rfl⟩ := Json.exists_of_stringDict? h
  rw [read, Json.ofStringDict, Json.dict?, mapM_read_entries, Json.ofStringDict,
    Dict.mapValues_ofList]
  rfl

end Shape

namespace Metadata
open Shape (opt)

/-- the members of metadata, in the order in which they are written -/
def members : List (String × Bool × Shape) :=
  [opt "name" .text, opt "generateName" .text, opt "namespace" .text, opt "resourceVersion" .text,
   opt "uid" .text, opt "generation" .int64, opt "labels" (.dict .text),
   opt "annotations" (.dict .text), opt "finalizers" (.list .text),
   opt "deletionTimestamp" .time] ++ passed

/-- the members that are read for what they hold, as they are written -/
def written (m : Metadata) : List (String × Option Json) := [
  ("name", m.name.map Json.str),
  ("generateName", m.generateName.map Json.str),
  ("namespace", m.ns.map Json.str),
  ("resourceVersion", m.resourceVersion.map Json.str),
  ("uid", m.uid.map Json.str),
  ("generation", m.generation.map Json.int),
  ("labels", m.labels.map Json.ofStringDict),
  ("annotations", m.annotations.map Json.ofStringDict),
  ("finalizers", m.finalizers.map Json.ofStrings),
  ("deletionTimestamp", m.deletionTimestamp.map Json.str)]

theorem nodup_written (m : Metadata) : (m.written.map Prod.fst).Nodup := by
  show List.Nodup ["name", "generateName", "namespace", "resourceVersion", "uid", "generation",
    "labels", "annotations", "finalizers", "deletionTimestamp"]
  decide

/-- the fields as they are written -/
def fields (m : Metadata) : Dict Json :=
  m.written.filterMap (fun f => f.2.map (f.1, ·)) ++ m.rest

/-- metadata is written as its shape reads it -/
theorem readMembers_members {j : Json} {m : Metadata} (h : ofJson? j = some m) :
    ∃ given, Shape.open? j = some given ∧ Shape.readMembers members given = some m.fields := by
  simp only [ofJson?, Option.bind_eq_bind, Option.bind_eq_some_iff] at h
  obtain ⟨given, hopen, _, hname, _, hgenerate, _, hns, _, hversion, _, huid, _, hgeneration, _,
    hlabels, _, hannotations, _, hfinalizers, _, hdeletion, rest, hrest, heq⟩ := h
  cases heq
  refine ⟨given, hopen, ?_⟩
  refine Shape.readMembers_cons_of_member? hname (fun _ _ => Shape.read_text) ?_
  refine Shape.readMembers_cons_of_member? hgenerate (fun _ _ => Shape.read_text) ?_
  refine Shape.readMembers_cons_of_member? hns (fun _ _ => Shape.read_text) ?_
  refine Shape.readMembers_cons_of_member? hversion (fun _ _ => Shape.read_text) ?_
  refine Shape.readMembers_cons_of_member? huid (fun _ _ => Shape.read_text) ?_
  refine Shape.readMembers_cons_of_member? hgeneration (fun _ _ => Shape.read_int64) ?_
  refine Shape.readMembers_cons_of_member? hlabels (fun _ _ => Shape.read_stringDict) ?_
  refine Shape.readMembers_cons_of_member? hannotations (fun _ _ => Shape.read_stringDict) ?_
  refine Shape.readMembers_cons_of_member? hfinalizers (fun _ _ => Shape.read_texts) ?_
  refine Shape.readMembers_cons_of_member? hdeletion (fun _ _ => Shape.read_time) ?_
  exact hrest

section
variable {j : Json} {m : Metadata} {given : Dict Json} (h : ofJson? j = some m)
  (hopen : Shape.open? j = some given)
include h hopen

/-- every member is written in its usual form -/
theorem get?_fields {name : String} {s : Shape} (hmem : (name, false, s) ∈ members) :
    Dict.get? name m.fields = (Dict.get? name given).bind (Shape.read s) := by
  obtain ⟨given', hopen', hread⟩ := readMembers_members h
  cases hopen.symm.trans hopen'
  exact Shape.get?_readMembers hread (by decide) hmem

theorem get?_notes (k : String) :
    ((Dict.get? "annotations" given).bind fun notes => notes.sorted.field? k) =
      (Dict.get? k (m.annotations.getD [])).map Json.str := by
  simp only [ofJson?, Option.bind_eq_bind, Option.bind_eq_some_iff] at h
  obtain ⟨given', hopen', _, _, _, _, _, _, _, _, _, _, _, _, _, _, annotations, hannotations, _, _,
    _, _, _, _, heq⟩ := h
  cases heq
  cases hopen.symm.trans hopen'
  unfold Shape.member? at hannotations
  split at hannotations
  · rename_i notes hnotes
    obtain ⟨d, hd, rfl⟩ := Option.map_eq_some_iff.mp hannotations
    rw [hnotes, Option.bind_some, Json.sorted_of_stringDict? hd]
    exact Dict.get?_mapValues Json.str k d
  · rename_i hnone
    cases hannotations
    rw [hnone]
    rfl

end

/-- the members before the annotations, and those after them -/
theorem exists_written (m : Metadata) : ∃ before after, (∀ e ∈ before, e.1 ≠ "annotations") ∧
    ∀ a, { m with annotations := a }.written =
      before ++ ("annotations", a.map Json.ofStringDict) :: after := by
  refine ⟨m.written.take 7, m.written.drop 8, fun e he heq => ?_, fun _ => rfl⟩
  have hmem : e.1 ∈ ["name", "generateName", "namespace", "resourceVersion", "uid", "generation",
    "labels"] := List.mem_map_of_mem he
  rw [heq] at hmem
  exact absurd hmem (by decide)

/-- other annotations change no other field -/
theorem get?_fields_annotated (m : Metadata) (d : Dict String) (k : String) :
    Dict.get? k { m with annotations := some d }.fields =
      if k = "annotations" then some (.ofStringDict d) else Dict.get? k m.fields := by
  obtain ⟨before, after, hbefore, hwritten⟩ := exists_written m
  have hsame : m.written = _ := hwritten m.annotations
  rw [fields, fields, Dict.get?_append, Dict.get?_append, Json.get?_filterMap (nodup_written _),
    Json.get?_filterMap (nodup_written _), hwritten, hsame, Dict.get?_append, Dict.get?_append,
    Dict.get?_cons, Dict.get?_cons]
  by_cases hk : k = "annotations"
  · subst hk
    rw [if_pos rfl, if_pos rfl, Dict.get?_eq_none hbefore]
    rfl
  · rw [if_neg hk, if_neg (Ne.symm hk), if_neg (Ne.symm hk)]

end Metadata

end ReleaseUpgrade
