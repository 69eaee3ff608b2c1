import ReleaseUpgrade.Proofs.Cluster.Store

/-!
# A cluster in which things happen

While a program runs, its calls are answered from a store, or they are lost; a call that has failed
may have taken effect all the same.  Between two calls others change the cluster.

* `World.effect`     what a call changes if it takes effect;
* `Serves`           an exchange in a world;
* `Drift`            what others do: anything, except that they delete no object that the operator
                     has created, and that a deletion of the plan is never taken back;
* `Unfolds K`        the calls of a trace, with drift in between that leaves the objects under the
                     keys in `K` alone;
* `Tidy`             every object that has been created is there, and no key has been used twice.
-/

namespace ReleaseUpgrade

/-- a cluster and the plan that is worked on; and an account of what the operator has done: the keys
of the objects that it has created, and how many creations and replacements have taken effect -/
structure World where
  store : Store
  plan : UpgradePlan
  created : List Key := []
  writes : Nat := 0

namespace World

/-- the plan after a call -/
def planAfter (plan : UpgradePlan) : Call → UpgradePlan
  | .patchStatus _ status => { plan with status := some status }
  | .setFinalizers _ finalizers =>
    { plan with metadata := { plan.metadata with finalizers := some finalizers } }
  | _ => plan

/-- a call takes effect -/
def effect (w : World) (c : Call) : World where
  store := (Store.answer c w.store).2
  plan := planAfter w.plan c
  created := match c with
    | .create k o => if (w.store.create k o).1.isOk then w.created ++ [k.key o] else w.created
    | _ => w.created
  writes := if c.puts && (Store.answer c w.store).1.isOk then w.writes + 1 else w.writes

end World

/-- a call is answered, or it is lost before or after it has taken effect -/
inductive Serves (w : World) : Exchange → World → Prop
  | answered (c) : Serves w ⟨c, (Store.answer c w.store).1⟩ (w.effect c)
  | lost (c failure) : Serves w ⟨c, .error (.cluster failure)⟩ w
  | unacknowledged (c failure) : Serves w ⟨c, .error (.cluster failure)⟩ (w.effect c)

/-- what others may do -/
structure Drift (w w' : World) : Prop where
  created : w'.created = w.created
  writes : w'.writes = w.writes
  stays : w'.store.replaceTerminating = w.store.replaceTerminating
  kept : ∀ key ∈ w.created, w.store.under key ≠ none → w'.store.under key ≠ none
  terminating : w.plan.metadata.isTerminating = true → w'.plan.metadata.isTerminating = true

/-- the calls of a trace are served in turn; what others do meanwhile leaves some objects alone -/
inductive Unfolds (K : Key → Prop) : World → Trace → World → Prop
  | nil (w) : Unfolds K w [] w
  | drift {w w' w'' t} : Drift w w' → (∀ key, K key → w'.store.under key = w.store.under key) →
      Unfolds K w' t w'' → Unfolds K w t w''
  | cons {w x w' t w''} : Serves w x w' → Unfolds K w' t w'' → Unfolds K w (x :: t) w''

section
variable {K : Key → Prop} {w w' : World} {x : Exchange} {t : Trace}

/-- what holds of the worlds before a call and is preserved by all that happens holds at the end -/
theorem Unfolds.invariant {P : World → Prop} (h : Unfolds K w t w') (hw : P w)
    (hdrift : ∀ {u v}, P u → Drift u v → (∀ key, K key → v.store.under key = u.store.under key) →
      P v)
    (hserve : ∀ {u y v}, y ∈ t → P u → Serves u y v → P v) : P w' := by
  induction h with
  | nil => exact hw
  | drift hd hK _ ih => exact ih (hdrift hw hd hK) hserve
  | cons hs _ ih =>
    exact ih (hserve List.mem_cons_self hw hs) fun hy => hserve (List.mem_cons_of_mem _ hy)

/-- a call is served in some world on the way -/
theorem Unfolds.cut {past rest : Trace} (h : Unfolds K w (past ++ x :: rest) w') :
    ∃ u v, Unfolds K w past u ∧ Serves u x v ∧ Unfolds K v rest w' := by
  generalize ht : past ++ x :: rest = t at h
  induction h generalizing past with
  | nil => cases past <;> cases ht
  | drift hd hK _ ih =>
    obtain ⟨u, v, hu, hx, hv⟩ := ih ht
    exact ⟨u, v, .drift hd hK hu, hx, hv⟩
  | cons hs hrest ih =>
    cases past with
    | nil =>
      cases ht
      exact ⟨_, _, .nil _, hs, hrest⟩
    | cons y past =>
      cases ht
      obtain ⟨u, v, hu, hx, hv⟩ := ih rfl
      exact ⟨u, v, .cons hs hu, hx, hv⟩

theorem Serves.answered_of_ok (h : Serves w x w') (hok : x.answer.isOk = true) :
    x.answer = (Store.answer x.call w.store).1 := by
  cases h with
  | answered => rfl
  | lost | unacknowledged => cases hok

theorem Serves.got {k : Kind} {ns name : String} {object : Option k.Object}
    (h : Serves w (.got k ns name object) w') :
    w.store.under ⟨k, some ns, name⟩ = object :=
  (Except.ok.inj (h.answered_of_ok rfl)).symm

theorem Serves.listed {k : Kind} {objects : List k.Object}
    (h : Serves w (.listed k none objects) w') : w.store.objects k = objects :=
  (Except.ok.inj (h.answered_of_ok rfl)).symm

theorem Serves.eq_or (h : Serves w x w') : w' = w ∨ w' = w.effect x.call := by
  cases h with
  | answered | unacknowledged => exact .inr rfl
  | lost => exact .inl rfl

theorem Serves.terminating (h : Serves w x w') :
    w'.plan.metadata.isTerminating = w.plan.metadata.isTerminating := by
  obtain rfl | rfl := h.eq_or
  · rfl
  · cases x.call <;> rfl

theorem Store.answer_stays (c : Call) (s : Store) (hstay : s.replaceTerminating = false) :
    (Store.answer c s).2.replaceTerminating = false := by
  have with_objects (k : Kind) (os : List k.Object) :
      (s.withObjects k os).replaceTerminating = false := by cases k <;> exact hstay
  cases c with
  | create k o =>
    show (s.create k o).2.replaceTerminating = false
    obtain ⟨_, hc⟩ | ⟨_, hc⟩ := Store.create_cases hstay k o
    · rw [hc]
      exact with_objects k _
    · rw [hc]
      exact hstay
  | replace k o | delete k ns name => exact with_objects k _
  | list | get | latestRelease | patchStatus | setFinalizers | publishEvent | wait => exact hstay

theorem Serves.stays (h : Serves w x w') (hstay : w.store.replaceTerminating = false) :
    w'.store.replaceTerminating = false := by
  obtain rfl | rfl := h.eq_or
  · exact hstay
  · exact Store.answer_stays x.call w.store hstay

theorem Serves.created_eq (h : Serves w x w') (hx : x.call.puts = false) :
    w'.created = w.created := by
  obtain rfl | rfl := h.eq_or
  · rfl
  · cases hc : x.call <;> rw [hc] at hx <;> first | rfl | cases hx

/-- the store does not find out that there are several chart resources -/
theorem Store.answer_ne_multiple (c : Call) (s : Store) (release : String) :
    (Store.answer c s).1 ≠ .error (.multipleHelmCharts release) := by
  cases c with
  | create k o =>
    show (s.create k o).1 ≠ _
    unfold Store.create
    split
    · exact nofun
    · split <;> exact nofun
  | latestRelease name =>
    show s.latestRelease name ≠ _
    unfold Store.latestRelease
    split
    · exact nofun
    · unfold HelmRelease.latest
      split
      · exact nofun
      · unfold HelmRelease.ofSecret
        dsimp only
        split <;> exact nofun
  | list | get | replace | delete | patchStatus | setFinalizers | publishEvent | wait => exact nofun

theorem Unfolds.genuine (h : Unfolds K w t w') : t.Genuine := by
  induction h with
  | nil => exact fun _ hy => absurd hy List.not_mem_nil
  | drift _ _ _ ih => exact ih
  | cons hs _ ih =>
    intro y hy
    obtain rfl | hy := List.mem_cons.mp hy
    · cases hs with
      | answered => exact Store.answer_ne_multiple _ _
      | lost | unacknowledged => exact fun _ he => nomatch he
    · exact ih y hy

/-- every object that has been created is there, and no key has been used twice -/
structure Tidy (w : World) : Prop where
  stays : w.store.replaceTerminating = false
  nodup : w.created.Nodup
  present : ∀ key ∈ w.created, w.store.under key ≠ none

theorem Tidy.drift (h : Tidy w) (hd : Drift w w') : Tidy w' := by
  refine ⟨hd.stays.trans h.stays, ?_, fun key hmem => ?_⟩
  · rw [hd.created]
    exact h.nodup
  · rw [hd.created] at hmem
    exact hd.kept key hmem (h.present key hmem)

/-- creating an object changes nothing, or there was none under its key -/
theorem effect_create (hstay : w.store.replaceTerminating = false) (k : Kind) (o : k.Object) :
    w.effect (.create k o) = w ∨
      w.store.under (k.key o) = none ∧ (w.effect (.create k o)).store.under (k.key o) = some o ∧
        (w.effect (.create k o)).created = w.created ++ [k.key o] ∧
        (w.effect (.create k o)).writes = w.writes + 1 := by
  have hcreated : (w.effect (.create k o)).created =
      if (w.store.create k o).1.isOk then w.created ++ [k.key o] else w.created := rfl
  have hwrites : (w.effect (.create k o)).writes =
      if true && (w.store.create k o).1.isOk then w.writes + 1 else w.writes := rfl
  obtain ⟨hnone, hok⟩ | ⟨path, he⟩ := Store.create_cases hstay k o
  · have hone : (w.store.create k o).1 = .ok () := by rw [hok]
    rw [hone] at hcreated hwrites
    exact .inr ⟨hnone, (Store.under_created hstay hone).2, hcreated, hwrites⟩
  · refine .inl ?_
    rw [World.effect]
    simp only [Store.answer, he, World.planAfter]
    rfl

/-- a call that deletes nothing leaves under each key what was there, or something else -/
theorem under_effect_ne_none (hstay : w.store.replaceTerminating = false) {c : Call}
    (hc : c.deletes = false) {key : Key} (hkey : w.store.under key ≠ none) :
    (w.effect c).store.under key ≠ none := by
  by_cases hown : c.key? = some key
  · cases c with
    | create k o =>
      cases hown
      obtain ⟨hnone, _⟩ | ⟨_, he⟩ := Store.create_cases hstay k o
      · exact absurd hnone hkey
      · show (w.store.create k o).2.under _ ≠ none
        rw [he]
        exact hkey
    | replace k o =>
      cases hown
      show (w.store.put k o).under _ ≠ none
      rw [Store.under_replaced]
      exact Option.some_ne_none o
    | delete => cases hc
    | list | get | latestRelease | patchStatus | setFinalizers | publishEvent | wait => cases hown
  · show (Store.answer c w.store).2.under key ≠ none
    rw [Store.under_answer_of_ne hstay hown]
    exact hkey

/-- a call that deletes nothing creates an object only if there is none under its key -/
theorem Tidy.effect (h : Tidy w) {c : Call} (hc : c.deletes = false) : Tidy (w.effect c) := by
  have kept (key : Key) (hmem : key ∈ w.created) : (w.effect c).store.under key ≠ none :=
    under_effect_ne_none h.stays hc (h.present key hmem)
  have same (hcreated : (w.effect c).created = w.created) : Tidy (w.effect c) :=
    ⟨Store.answer_stays c w.store h.stays, hcreated ▸ h.nodup, hcreated ▸ kept⟩
  cases c with
  | create k o =>
    obtain heq | ⟨hnone, hsome, hcreated, _⟩ := effect_create h.stays k o
    · rw [heq]
      exact h
    refine ⟨Store.answer_stays _ w.store h.stays, ?_, fun key hmem => ?_⟩
    · rw [hcreated, List.nodup_append]
      refine ⟨h.nodup, List.pairwise_singleton _ _, fun key hmem key' hmem' heq => ?_⟩
      rw [List.mem_singleton.mp hmem'] at heq
      exact h.present key hmem (heq ▸ hnone)
    · rw [hcreated, List.mem_append, List.mem_singleton] at hmem
      obtain hmem | rfl := hmem
      · exact kept key hmem
      · rw [hsome]
        exact Option.some_ne_none o
  | replace | list | get | delete | latestRelease | patchStatus | setFinalizers | publishEvent
    | wait => exact same rfl

theorem Tidy.serves (h : Tidy w) (hs : Serves w x w') (hx : x.call.deletes = false) : Tidy w' := by
  obtain rfl | rfl := hs.eq_or
  · exact h
  · exact h.effect hx

/-- what was under a key when the calls began is there still, as long as nothing is done about it -/
theorem Unfolds.under_eq (h : Unfolds K w t w') (hstay : w.store.replaceTerminating = false)
    {key : Key} (hK : K key) (hother : ∀ y ∈ t, y.call.key? ≠ some key) :
    w'.store.under key = w.store.under key := by
  refine (h.invariant (P := fun u => u.store.replaceTerminating = false ∧
    u.store.under key = w.store.under key) ⟨hstay, rfl⟩ ?_ ?_).2
  · rintro u v ⟨hu, hsame⟩ hd hKv
    exact ⟨hd.stays.trans hu, (hKv key hK).trans hsame⟩
  · rintro u y v hy ⟨hu, hsame⟩ hs
    obtain rfl | rfl := hs.eq_or
    · exact ⟨hu, hsame⟩
    · exact ⟨Store.answer_stays _ _ hu, (Store.under_answer_of_ne hu (hother y hy)).trans hsame⟩

/-- each answer comes from a world that has the same objects under the keys -/
def Reflects (K : Key → Prop) (w : World) (past : Trace) : Prop :=
  ∀ y ∈ past, ∃ u v, Serves u y v ∧ ∀ key, K key → u.store.under key = w.store.under key

/-- what is read before anything is written says how things were when the calls began -/
theorem Unfolds.reflects {past rest : Trace} (h : Unfolds K w (past ++ x :: rest) w')
    (hstay : w.store.replaceTerminating = false) (hquiet : past.Quiet) : Reflects K w past := by
  intro y hy
  obtain ⟨p, q, rfl⟩ := List.append_of_mem hy
  rw [List.append_assoc, List.cons_append] at h
  obtain ⟨u, v, hp, hs, _⟩ := h.cut
  refine ⟨u, v, hs, fun key hK => hp.under_eq hstay hK fun z hz => ?_⟩
  have hz := hquiet z (List.mem_append_left _ hz)
  rw [Call.key?_eq_none hz]
  exact (Option.some_ne_none key).symm

theorem Reflects.under_eq_none {k : Kind} {ns name : String} (h : Reflects K w t)
    (hgot : .got k ns name none ∈ t) (hK : K ⟨k, some ns, name⟩) :
    w.store.under ⟨k, some ns, name⟩ = none := by
  obtain ⟨u, v, hs, hsame⟩ := h _ hgot
  rw [← hsame _ hK]
  exact hs.got

/-- whatever has been created was created before, or one of the calls created it -/
theorem Unfolds.created {key : Key} (h : Unfolds K w t w') (hmem : key ∈ w'.created) :
    key ∈ w.created ∨
      ∃ y ∈ t, ∃ (k : Kind) (o : k.Object), y.call = .create k o ∧ key = k.key o := by
  refine h.invariant (P := fun u => ∀ key ∈ u.created, key ∈ w.created ∨
    ∃ y ∈ t, ∃ (k : Kind) (o : k.Object), y.call = .create k o ∧ key = k.key o)
    (fun _ => .inl) ?_ ?_ key hmem
  · intro u v hu hd _ key hmem
    rw [hd.created] at hmem
    exact hu key hmem
  · intro u y v hy hu hs key hmem
    obtain rfl | rfl := hs.eq_or
    · exact hu key hmem
    cases hc : y.call with
    | create k o =>
      rw [hc] at hmem
      change key ∈ (if (u.store.create k o).1.isOk then u.created ++ [k.key o] else u.created)
        at hmem
      split at hmem
      · obtain hmem | hmem := List.mem_append.mp hmem
        · exact hu key hmem
        · exact .inr ⟨y, hy, k, o, hc, List.mem_singleton.mp hmem⟩
      · exact hu key hmem
    | replace | list | get | delete | latestRelease | patchStatus | setFinalizers | publishEvent
      | wait =>
      rw [hc] at hmem
      exact hu key hmem

/-- a call counts once at most, and not at all if it creates and replaces nothing -/
theorem Serves.writes_le (h : Serves w x w') :
    w'.writes ≤ w.writes + if x.call.puts then 1 else 0 := by
  obtain rfl | rfl := h.eq_or
  · exact Nat.le_add_right _ _
  · show (if x.call.puts && (Store.answer x.call w.store).1.isOk then w.writes + 1
      else w.writes) ≤ _
    cases x.call.puts <;> cases (Store.answer x.call w.store).1.isOk <;> simp

theorem Unfolds.writes_le (h : Unfolds K w t w') :
    w'.writes ≤ w.writes + t.countP (·.call.puts) := by
  induction h with
  | nil => exact Nat.le_add_right _ _
  | drift hd _ _ ih => rwa [hd.writes] at ih
  | cons hs _ ih =>
    have hfirst := hs.writes_le
    rw [List.countP_cons]
    omega

/-- however often an object is created, it counts once -/
theorem Unfolds.writes_le_one (h : Unfolds K w t w') (hstay : w.store.replaceTerminating = false)
    {k : Kind} {o : k.Object} (hK : K (k.key o))
    (hall : ∀ y ∈ t, y.call.writes = true → y.call = .create k o) : w'.writes ≤ w.writes + 1 := by
  -- the count goes up only while there is no such object, and then there is one
  have hinv := h.invariant (P := fun u => u.store.replaceTerminating = false ∧
    (u.writes ≤ w.writes ∨ u.writes ≤ w.writes + 1 ∧ u.store.under (k.key o) ≠ none))
    ⟨hstay, .inl (Nat.le_refl _)⟩ ?_ ?_
  · omega
  · rintro u v ⟨hu, hcase⟩ hd hKv
    rw [hd.writes, hKv _ hK]
    exact ⟨hd.stays.trans hu, hcase⟩
  · rintro u y v hy ⟨hu, hcase⟩ hs
    obtain rfl | rfl := hs.eq_or
    · exact ⟨hu, hcase⟩
    refine ⟨Store.answer_stays _ _ hu, ?_⟩
    cases hw : y.call.writes with
    | true =>
      rw [hall y hy hw]
      obtain heq | ⟨hnone, hsome, _, hwrites⟩ := effect_create hu k o
      · rw [heq]
        exact hcase
      · refine .inr ⟨?_, by rw [hsome]; exact Option.some_ne_none o⟩
        rw [hwrites]
        exact Nat.succ_le_succ (hcase.resolve_right fun h => h.2 hnone)
    | false =>
      have hwrites := hs.writes_le
      rw [Call.puts_eq_false hw, if_neg Bool.false_ne_true] at hwrites
      refine hcase.imp (Nat.le_trans hwrites) fun ⟨hle, hsome⟩ => ⟨Nat.le_trans hwrites hle, ?_⟩
      exact under_effect_ne_none hu (Call.deletes_eq_false hw) hsome

end

end ReleaseUpgrade
