import Mathlib.Data.List.Find
import ReleaseUpgrade.Text.Substring

/-!
# Several parts of a text replaced

A rule is a part and the value that takes its place.  Several rules can be applied one after the
other, each to the text that the one before has left, or all of them in one pass over the text.  It
is not the same in general: a value may have the part of a later rule in it, or make one up with the
characters beside it.  It is the same if no value has a part in it and every part in the text stands
between two marks, characters that no part has in it.

* `replaceEach`                  all rules in one pass;
* `Independent`                  rules of which none leaves a part for another one;
* `LaidOut`                      a text whose parts stand between marks;
* `replaceEachChars_append_cons` the pass on both sides of a mark;
* `LaidOut.foldl_eq`             one after the other, in any order, is the same as in one pass;
* `LaidOut.free`                 and no part is left.
-/

namespace ReleaseUpgrade.Text

/-! ## what begins a text and what stands in it -/

section
variable {part front rest cs a b : List Char} {c : Char}

theorem stripChars?_eq_some_iff : stripChars? front cs = some rest ↔ cs = front ++ rest := by
  constructor
  · intro h
    induction front generalizing cs with
    | nil => simpa using h
    | cons f front ih =>
      cases cs with
      | nil => cases h
      | cons c cs =>
        rw [stripChars?] at h
        split at h
        · rename_i hf
          rw [hf, List.cons_append, ← ih h]
        · cases h
  · rintro rfl
    exact stripChars?_append front rest

theorem isSome_stripChars?_iff : (stripChars? part cs).isSome = true ↔ part <+: cs := by
  rw [Option.isSome_iff_exists]
  exact exists_congr fun rest => stripChars?_eq_some_iff.trans eq_comm

theorem occursChars_iff : occursChars part cs = true ↔ part <:+: cs := by
  induction cs with
  | nil => rw [occursChars, List.isEmpty_iff, List.infix_nil]
  | cons c cs ih =>
    rw [occursChars, Bool.or_eq_true, isSome_stripChars?_iff, ih, List.infix_cons_iff]

theorem occursChars_eq_false_iff : occursChars part cs = false ↔ ¬part <:+: cs := by
  rw [← occursChars_iff, Bool.not_eq_true]

/-- a part does not go on beyond a character that it has not in it -/
theorem prefix_append_cons_iff (hc : c ∉ part) : part <+: a ++ c :: b ↔ part <+: a := by
  constructor
  · intro h
    obtain hpart | ⟨rest, hrest⟩ :=
      List.prefix_or_prefix_of_prefix h (List.prefix_append a (c :: b))
    · exact hpart
    · rw [← hrest, List.prefix_append_right_inj] at h
      cases rest with
      | nil =>
        rw [List.append_nil] at hrest
        exact hrest ▸ List.prefix_refl a
      | cons x rest =>
        obtain ⟨rfl, -⟩ := List.cons_prefix_cons.mp h
        exact absurd (hrest ▸ List.mem_append_right a List.mem_cons_self) hc
  · intro h
    exact h.trans (List.prefix_append a (c :: b))

theorem infix_append_cons_iff (hc : c ∉ part) :
    part <:+: a ++ c :: b ↔ part <:+: a ∨ part <:+: b := by
  -- nothing of the part begins at the mark, be it the whole part or the end of it
  have hcons : ∀ {front}, c ∉ front → front <+: c :: b → front = [] := fun hfront h =>
    List.prefix_nil.mp ((prefix_append_cons_iff (a := []) hfront).mp h)
  constructor
  · intro h
    obtain h | h | ⟨l₁, l₂, rfl, hl₁, hl₂⟩ := List.infix_append_iff.mp h
    · exact .inl h
    · obtain h | h := List.infix_cons_iff.mp h
      · exact .inl (hcons hc h ▸ List.nil_infix)
      · exact .inr h
    · rw [hcons (mt (List.mem_append_right l₁) hc) hl₂, List.append_nil]
      exact .inl hl₁.isInfix
  · rintro (h | h)
    · exact h.trans (List.prefix_append a (c :: b)).isInfix
    · exact h.trans ⟨a ++ [c], [], by simp⟩

end

/-! ## rules -/

/-- the first rule whose part begins the characters -/
def ruleAt? (rules : List (String × String)) (cs : List Char) : Option (String × String) :=
  rules.find? fun r => (stripChars? r.1.toList cs).isSome

/-- `skip` characters dropped, then every occurrence of a part replaced by the value of its rule;
the values are not looked at again -/
def replaceEachChars (rules : List (String × String)) : Nat → List Char → List Char
  | _, [] => []
  | skip + 1, _ :: cs => replaceEachChars rules skip cs
  | 0, c :: cs =>
    match ruleAt? rules (c :: cs) with
    | some r => r.2.toList ++ replaceEachChars rules (r.1.toList.length - 1) cs
    | none => c :: replaceEachChars rules 0 cs

/-- the text with all rules applied in one pass, from the left -/
def replaceEach (rules : List (String × String)) (s : String) : String :=
  String.ofList (replaceEachChars rules 0 s.toList)

/-- no part stands in the characters -/
def Free (rules : List (String × String)) (cs : List Char) : Prop :=
  ∀ r ∈ rules, occursChars r.1.toList cs = false

/-- no part has the character in it -/
def IsMark (rules : List (String × String)) (c : Char) : Prop := ∀ r ∈ rules, c ∉ r.1.toList

/-- the parts are not empty and do not stand in one another, nor in a value -/
structure Independent (rules : List (String × String)) : Prop where
  ne_nil : ∀ r ∈ rules, r.1.toList ≠ []
  apart : ∀ r ∈ rules, ∀ s ∈ rules, occursChars r.1.toList s.1.toList = true → r = s
  free : ∀ r ∈ rules, Free rules r.2.toList

/-- marks cut the characters into parts and pieces without any -/
inductive LaidOut (rules : List (String × String)) : List Char → Prop
  | piece {cs : List Char} (h : Free rules cs) : LaidOut rules cs
  | part {r : String × String} (h : r ∈ rules) : LaidOut rules r.1.toList
  | mark {a b : List Char} {c : Char} (hc : IsMark rules c) (ha : LaidOut rules a)
      (hb : LaidOut rules b) : LaidOut rules (a ++ c :: b)

section
variable {rules order : List (String × String)} {r : String × String} {cs a b : List Char}
  {c : Char}

theorem mem_of_ruleAt? (h : ruleAt? rules cs = some r) : r ∈ rules ∧ r.1.toList <+: cs := by
  rw [ruleAt?] at h
  exact ⟨List.mem_of_find?_eq_some h, isSome_stripChars?_iff.mp (List.find?_some h :)⟩

theorem ruleAt?_eq_none_iff : ruleAt? rules cs = none ↔ ∀ r ∈ rules, ¬r.1.toList <+: cs := by
  rw [ruleAt?, List.find?_eq_none]
  exact forall₂_congr fun r _ => not_congr isSome_stripChars?_iff

theorem ruleAt?_append_cons (hc : IsMark rules c) :
    ruleAt? rules (a ++ c :: b) = ruleAt? rules a := by
  refine List.find?_congr fun r hr => Bool.eq_iff_iff.mpr ?_
  rw [isSome_stripChars?_iff, isSome_stripChars?_iff, prefix_append_cons_iff (hc r hr)]

theorem free_append_cons_iff (hc : IsMark rules c) :
    Free rules (a ++ c :: b) ↔ Free rules a ∧ Free rules b := by
  simp only [Free, occursChars_eq_false_iff]
  rw [← forall₂_and]
  refine forall₂_congr fun r hr => ?_
  rw [infix_append_cons_iff (hc r hr), not_or]

/-! ## one pass -/

theorem replaceChars_eq (r : String × String) (skip : Nat) (cs : List Char) :
    replaceChars r.1.toList r.2.toList skip cs = replaceEachChars [r] skip cs := by
  induction cs generalizing skip with
  | nil => cases skip <;> rfl
  | cons c cs ih =>
    cases skip with
    | succ skip => exact ih skip
    | zero =>
      rw [replaceChars, replaceEachChars, ruleAt?, List.find?_singleton, ih, ih]
      split <;> rfl

theorem replaceEachChars_cons_of_none (h : ruleAt? rules (c :: cs) = none) :
    replaceEachChars rules 0 (c :: cs) = c :: replaceEachChars rules 0 cs := by
  rw [replaceEachChars, h]

theorem replaceEachChars_cons_of_some (h : ruleAt? rules (c :: cs) = some r) :
    replaceEachChars rules 0 (c :: cs) =
      r.2.toList ++ replaceEachChars rules (r.1.toList.length - 1) cs := by
  rw [replaceEachChars, h]

theorem replaceEachChars_of_free (h : Free rules cs) : replaceEachChars rules 0 cs = cs := by
  induction cs with
  | nil => rfl
  | cons c cs ih =>
    have hnone : ruleAt? rules (c :: cs) = none := ruleAt?_eq_none_iff.mpr fun r hr hbegins =>
      occursChars_eq_false_iff.mp (h r hr) hbegins.isInfix
    have hcs : Free rules cs := fun r hr => occursChars_eq_false_iff.mpr fun hin =>
      occursChars_eq_false_iff.mp (h r hr) (List.infix_cons hin)
    rw [replaceEachChars_cons_of_none hnone, ih hcs]

theorem replaceEachChars_length (rules : List (String × String)) (cs : List Char) :
    replaceEachChars rules cs.length cs = [] := by
  induction cs with
  | nil => rfl
  | cons c cs ih => exact ih

theorem Independent.replaceEachChars_part (h : Independent rules) (hr : r ∈ rules) :
    replaceEachChars rules 0 r.1.toList = r.2.toList := by
  obtain ⟨c, cs, hpart⟩ := List.exists_cons_of_ne_nil (h.ne_nil r hr)
  have hat : ruleAt? rules r.1.toList = some r := by
    cases hat : ruleAt? rules r.1.toList with
    | none => exact absurd (List.prefix_refl _) (ruleAt?_eq_none_iff.mp hat r hr)
    | some s =>
      obtain ⟨hs, hbegins⟩ := mem_of_ruleAt? hat
      rw [h.apart s hs r hr (occursChars_iff.mpr hbegins.isInfix)]
  rw [hpart] at hat ⊢
  rw [replaceEachChars_cons_of_some hat, hpart, List.length_cons, Nat.add_sub_cancel,
    replaceEachChars_length, List.append_nil]

/-- at a mark the pass begins anew, since no part goes on beyond it -/
theorem replaceEachChars_append_cons (hne : ∀ r ∈ rules, r.1.toList ≠ []) (hc : IsMark rules c)
    {skip : Nat} (hskip : skip ≤ a.length) :
    replaceEachChars rules skip (a ++ c :: b) =
      replaceEachChars rules skip a ++ c :: replaceEachChars rules 0 b := by
  induction a generalizing skip with
  | nil =>
    have hnone : ruleAt? rules (c :: b) = none :=
      (ruleAt?_append_cons (a := []) hc).trans (ruleAt?_eq_none_iff.mpr fun r hr hbegins =>
        hne r hr (List.prefix_nil.mp hbegins))
    rw [Nat.le_zero.mp hskip]
    exact replaceEachChars_cons_of_none hnone
  | cons x a ih =>
    cases skip with
    | succ skip => exact ih (Nat.le_of_succ_le_succ hskip)
    | zero =>
      have hat : ruleAt? rules (x :: (a ++ c :: b)) = ruleAt? rules (x :: a) :=
        ruleAt?_append_cons (a := x :: a) hc
      rw [List.cons_append]
      cases hrule : ruleAt? rules (x :: a) with
      | none =>
        rw [replaceEachChars_cons_of_none (hat.trans hrule), replaceEachChars_cons_of_none hrule,
          ih (Nat.zero_le _), List.cons_append]
      | some r =>
        have hlength : r.1.toList.length ≤ a.length + 1 := (mem_of_ruleAt? hrule).2.length_le
        rw [replaceEachChars_cons_of_some (hat.trans hrule), replaceEachChars_cons_of_some hrule,
          ih (Nat.sub_le_of_le_add hlength), List.append_assoc]

/-! ## one after the other -/

/-- the rules applied one after the other -/
def replaceInTurn (order : List (String × String)) (cs : List Char) : List Char :=
  order.foldl (fun cs r => replaceChars r.1.toList r.2.toList 0 cs) cs

theorem replaceInTurn_cons (r : String × String) (order : List (String × String))
    (cs : List Char) :
    replaceInTurn (r :: order) cs = replaceInTurn order (replaceEachChars [r] 0 cs) :=
  congrArg (replaceInTurn order) (replaceChars_eq r 0 cs)

theorem toList_foldl_replaceAll (order : List (String × String)) (s : String) :
    (order.foldl (fun s r => replaceAll r.1 r.2 s) s).toList = replaceInTurn order s.toList := by
  induction order generalizing s with
  | nil => rfl
  | cons r order ih =>
    rw [List.foldl_cons, ih, replaceAll, String.toList_ofList]
    rfl

theorem replaceInTurn_of_free (h : Free order cs) : replaceInTurn order cs = cs := by
  induction order with
  | nil => rfl
  | cons r order ih =>
    obtain ⟨hr, horder⟩ := List.forall_mem_cons.mp h
    rw [replaceInTurn_cons, replaceEachChars_of_free (List.forall_mem_singleton.mpr hr), ih horder]

theorem Independent.subset (h : Independent rules) (hsub : order ⊆ rules) : Independent order where
  ne_nil r hr := h.ne_nil r (hsub hr)
  apart r hr s hs := h.apart r (hsub hr) s (hsub hs)
  free r hr s hs := h.free r (hsub hr) s (hsub hs)

/-- the rules before the one for a part do not change the part, and those after it do not change
its value -/
theorem Independent.replaceInTurn_part (h : Independent rules) (hsub : order ⊆ rules)
    (hr : r ∈ order) : replaceInTurn order r.1.toList = r.2.toList := by
  induction order with
  | nil => cases hr
  | cons s order ih =>
    obtain ⟨hs, horder⟩ := List.cons_subset.mp hsub
    rw [replaceInTurn_cons]
    obtain rfl | hne := eq_or_ne s r
    · have hself : Independent [s] := h.subset (List.cons_subset.mpr ⟨hs, List.nil_subset _⟩)
      rw [hself.replaceEachChars_part List.mem_cons_self]
      exact replaceInTurn_of_free fun t ht => h.free s hs t (horder ht)
    · have hrest : r ∈ order := (List.mem_cons.mp hr).resolve_left hne.symm
      have hfree : occursChars s.1.toList r.1.toList = false := by
        rw [← Bool.not_eq_true]
        exact mt (h.apart s hs r (horder hrest)) hne
      rw [replaceEachChars_of_free (List.forall_mem_singleton.mpr hfree)]
      exact ih horder hrest

theorem replaceInTurn_append_cons (hne : ∀ r ∈ order, r.1.toList ≠ []) (hc : IsMark order c) :
    replaceInTurn order (a ++ c :: b) = replaceInTurn order a ++ c :: replaceInTurn order b := by
  induction order generalizing a b with
  | nil => rfl
  | cons r order ih =>
    obtain ⟨hnr, hne⟩ := List.forall_mem_cons.mp hne
    obtain ⟨hcr, hc⟩ := List.forall_mem_cons.mp hc
    rw [replaceInTurn_cons, replaceInTurn_cons, replaceInTurn_cons,
      replaceEachChars_append_cons (List.forall_mem_singleton.mpr hnr)
        (List.forall_mem_singleton.mpr hcr) (Nat.zero_le _), ih hne hc]

/-! ## texts whose parts stand between marks -/

/-- texts with a mark between them -/
theorem LaidOut.intercalate (hne : ∀ r ∈ rules, r.1.toList ≠ []) (hc : IsMark rules c)
    {texts : List (List Char)} (h : ∀ text ∈ texts, LaidOut rules text) :
    LaidOut rules ([c].intercalate texts) := by
  induction texts with
  | nil =>
    exact .piece fun r hr => occursChars_eq_false_iff.mpr fun hin =>
      hne r hr (List.infix_nil.mp hin)
  | cons first texts ih =>
    obtain ⟨hfirst, htexts⟩ := List.forall_mem_cons.mp h
    cases texts with
    | nil =>
      rw [List.intercalate_singleton]
      exact hfirst
    | cons second texts =>
      rw [List.intercalate_cons_cons, List.append_assoc]
      exact .mark hc hfirst (ih htexts)

theorem LaidOut.replaceInTurn_eq (hind : Independent rules) (horder : order.Perm rules)
    (h : LaidOut rules cs) : replaceInTurn order cs = replaceEachChars rules 0 cs := by
  have hmem : ∀ {r}, r ∈ order ↔ r ∈ rules := horder.mem_iff
  induction h with
  | piece hfree =>
    rw [replaceEachChars_of_free hfree]
    exact replaceInTurn_of_free fun r hr => hfree r (hmem.mp hr)
  | part hr =>
    rw [hind.replaceEachChars_part hr]
    exact hind.replaceInTurn_part horder.subset (hmem.mpr hr)
  | mark hc _ _ iha ihb =>
    rw [replaceEachChars_append_cons hind.ne_nil hc (Nat.zero_le _),
      replaceInTurn_append_cons (fun r hr => hind.ne_nil r (hmem.mp hr))
        (fun r hr => hc r (hmem.mp hr)), iha, ihb]

theorem LaidOut.free_replaceEachChars (hind : Independent rules) (h : LaidOut rules cs) :
    Free rules (replaceEachChars rules 0 cs) := by
  induction h with
  | piece hfree =>
    rw [replaceEachChars_of_free hfree]
    exact hfree
  | part hr =>
    rw [hind.replaceEachChars_part hr]
    exact hind.free _ hr
  | mark hc _ _ iha ihb =>
    rw [replaceEachChars_append_cons hind.ne_nil hc (Nat.zero_le _), free_append_cons_iff hc]
    exact ⟨iha, ihb⟩

end

section
variable {rules order : List (String × String)} {s : String}

/-- rules that are applied one after the other, in whatever order, do the same as in one pass -/
theorem LaidOut.foldl_eq (hind : Independent rules) (horder : order.Perm rules)
    (h : LaidOut rules s.toList) :
    order.foldl (fun s r => replaceAll r.1 r.2 s) s = replaceEach rules s := by
  rw [← String.toList_inj, toList_foldl_replaceAll, h.replaceInTurn_eq hind horder, replaceEach,
    String.toList_ofList]

/-- without a mark, a value can make up a part with what follows it -/
example :
    replaceEach [("<a>", "<b"), ("<b>", "c")] "<a>>" = "<b>" ∧
      [("<a>", "<b"), ("<b>", "c")].foldl (fun s r => replaceAll r.1 r.2 s) "<a>>" = "c" := by
  decide

/-- what has been put in the places of the parts does not bring one back -/
theorem LaidOut.free (hind : Independent rules) (h : LaidOut rules s.toList) :
    ∀ r ∈ rules, occursIn r.1 (replaceEach rules s) = false := by
  intro r hr
  rw [occursIn, replaceEach, String.toList_ofList]
  exact h.free_replaceEachChars hind r hr

end

end ReleaseUpgrade.Text
