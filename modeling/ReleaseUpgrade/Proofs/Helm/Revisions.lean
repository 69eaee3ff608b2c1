import Mathlib.Data.List.Nodup
import ReleaseUpgrade.Proofs.Helm.Storage

/-!
# The latest revision

Each secret of a release has the number of its revision in a label.  The latest revision is that of
the secret with the highest number, wherever it stands in the list; the other secrets are not read.

* `Text.Numeral`          decimal digits and their number, `Text.number?_eq_some_iff`;
* `Denotes`               a text is an integer of 64 bits, `revisionOf?_eq_some_iff`;
* `Numbered`              the number in the labels of a secret, `labelled_eq_iff`;
* `Newest`                the last one of the secrets with the highest number;
* `latest_by_number`      what that means for the latest revision.
-/

namespace ReleaseUpgrade

namespace Text

/-- decimal digits, at least one of them, and the number that they stand for -/
def Numeral (cs : List Char) (n : Nat) : Prop :=
  cs ≠ [] ∧ (∀ c ∈ cs, c.isDigit = true) ∧ Nat.ofDigitChars 10 cs 0 = n

theorem digit?_ten (c : Char) :
    digit? 10 c = if c.isDigit = true then some (c.toNat - 48) else none := by
  unfold digit?
  by_cases hc : c.isDigit = true
  · have hle : c.toNat ≤ 57 := (Char.isDigit_iff_toNat.mp hc).2
    have hlt : c.toNat - 48 < 10 := by omega
    simp only [if_pos hc, if_pos hlt]
  · -- the value of a letter is ten or more, and that of any other character is the base
    have hlower : 'a' ≤ c → ¬c.toNat - 87 < 10 := by
      intro h
      have h : 97 ≤ c.toNat := h
      omega
    have hupper : 'A' ≤ c → ¬c.toNat - 55 < 10 := by
      intro h
      have h : 65 ≤ c.toNat := h
      omega
    simp only [if_neg hc, Bool.and_eq_true, decide_eq_true_eq]
    split
    · rename_i h
      exact if_neg (hlower h.1)
    · split
      · rename_i h
        exact if_neg (hupper h.1)
      · exact if_neg (Nat.lt_irrefl 10)

theorem foldlM_digit?_eq_some_iff {cs : List Char} {a n : Nat} :
    cs.foldlM (fun n c => (digit? 10 c).map fun d => n * 10 + d) a = some n ↔
      (∀ c ∈ cs, c.isDigit = true) ∧ Nat.ofDigitChars 10 cs a = n := by
  induction cs generalizing a with
  | nil => simp [Nat.ofDigitChars_eq_foldl]
  | cons c cs ih =>
    rw [List.foldlM_cons, digit?_ten, List.forall_mem_cons, Nat.ofDigitChars_cons, Nat.mul_comm]
    by_cases hc : c.isDigit = true
    · rw [if_pos hc, Option.map_some, and_iff_right hc]
      exact ih
    · rw [if_neg hc]
      exact ⟨fun h => (nomatch h), fun h => absurd h.1.1 hc⟩

/-- a number is read from digits alone -/
theorem number?_eq_some_iff {cs : List Char} {n : Nat} : number? 10 cs = some n ↔ Numeral cs n := by
  unfold number? Numeral
  cases cs with
  | nil => exact ⟨fun h => (nomatch h), fun h => absurd rfl h.1⟩
  | cons c cs =>
    rw [if_neg (by simp), foldlM_digit?_eq_some_iff]
    exact (and_iff_right (List.cons_ne_nil c cs)).symm

end Text

namespace HelmRelease

/-- digits, perhaps with a sign in front, and the integer that they stand for -/
inductive Signed : List Char → Int → Prop
  | bare {ds n} : Text.Numeral ds n → Signed ds n
  | plus {ds n} : Text.Numeral ds n → Signed ('+' :: ds) n
  | minus {ds n} : Text.Numeral ds n → Signed ('-' :: ds) (-n)

/-- the text is an integer, and 64 bits can hold it -/
def Denotes (text : String) (n : Int) : Prop := Signed text.toList n ∧ Json.IsInt64 n

/-- the text of the label is this number; it is zero if there is no label or no number in it -/
def Numbered (s : Secret) (n : Int) : Prop :=
  (∃ text, s.metadata.label? "version" = some text ∧ Denotes text n) ∨
    n = 0 ∧ ∀ text, s.metadata.label? "version" = some text → ∀ m, ¬Denotes text m

theorem not_numeral_of_head {c : Char} {ds : List Char} {n : Nat} (hc : c.isDigit = false) :
    ¬Text.Numeral (c :: ds) n := by
  intro h
  have hdigit := h.2.1 c List.mem_cons_self
  rw [hc] at hdigit
  cases hdigit

section
variable {ds : List Char} {n : Int}

theorem signed_plus : Signed ('+' :: ds) n ↔ ∃ m : Nat, Text.Numeral ds m ∧ 1 * (m : Int) = n := by
  constructor
  · intro h
    cases h with
    | bare h => exact absurd h (not_numeral_of_head rfl)
    | plus h => exact ⟨_, h, Int.one_mul _⟩
  · rintro ⟨m, h, rfl⟩
    rw [Int.one_mul]
    exact .plus h

theorem signed_minus :
    Signed ('-' :: ds) n ↔ ∃ m : Nat, Text.Numeral ds m ∧ -1 * (m : Int) = n := by
  constructor
  · intro h
    cases h with
    | bare h => exact absurd h (not_numeral_of_head rfl)
    | minus h => exact ⟨_, h, Int.neg_one_mul _⟩
  · rintro ⟨m, h, rfl⟩
    rw [Int.neg_one_mul]
    exact .minus h

theorem signed_bare (hplus : ∀ cs, ds ≠ '+' :: cs) (hminus : ∀ cs, ds ≠ '-' :: cs) :
    Signed ds n ↔ ∃ m : Nat, Text.Numeral ds m ∧ 1 * (m : Int) = n := by
  constructor
  · intro h
    cases h with
    | bare h => exact ⟨_, h, Int.one_mul _⟩
    | plus _ => exact absurd rfl (hplus _)
    | minus _ => exact absurd rfl (hminus _)
  · rintro ⟨m, h, rfl⟩
    rw [Int.one_mul]
    exact .bare h

end

theorem revisionOf?_eq_some_iff {text : String} {n : Int} :
    revisionOf? text = some n ↔ Denotes text n := by
  have hrange : (-(Nat.pow 2 63 : Int) ≤ n && n < (Nat.pow 2 63 : Int)) = true ↔
      Json.IsInt64 n := by
    rw [Bool.and_eq_true, decide_eq_true_iff, decide_eq_true_iff]
    rfl
  rw [Denotes]
  unfold revisionOf?
  dsimp only
  split
  · rename_i ds hds
    rw [hds, signed_plus, Option.filter_eq_some_iff, hrange]
    simp [Option.bind_eq_some_iff, Text.number?_eq_some_iff]
  · rename_i ds hds
    rw [hds, signed_minus, Option.filter_eq_some_iff, hrange]
    simp [Option.bind_eq_some_iff, Text.number?_eq_some_iff]
  · rename_i hplus hminus
    rw [signed_bare hplus hminus, Option.filter_eq_some_iff, hrange]
    simp [Option.bind_eq_some_iff, Text.number?_eq_some_iff]

theorem labelled_eq_iff {s : Secret} {n : Int} : labelled s = n ↔ Numbered s n := by
  unfold labelled Numbered
  cases hlabel : s.metadata.label? "version" with
  | none => simp [eq_comm]
  | some text =>
    rw [Option.bind_some]
    cases hread : revisionOf? text with
    | none =>
      have hnone (m : Int) : ¬Denotes text m := by
        rw [← revisionOf?_eq_some_iff, hread]
        exact nofun
      simp [hnone, eq_comm]
    | some m =>
      have hm : Denotes text m := revisionOf?_eq_some_iff.mp hread
      have huniq : Denotes text n ↔ m = n := by
        rw [← revisionOf?_eq_some_iff, hread, Option.some.injEq]
      rw [Option.getD_some, ← huniq]
      constructor
      · intro h
        exact .inl ⟨text, rfl, h⟩
      · rintro (⟨_, heq, h⟩ | ⟨_, hnone⟩)
        · rwa [Option.some.inj heq]
        · exact absurd hm (hnone text rfl m)

/-- the last one of the secrets with the highest number -/
def Newest (secrets : List Secret) (s : Secret) : Prop :=
  ∃ pre post, secrets = pre ++ s :: post ∧ (∀ o ∈ pre, labelled o ≤ labelled s) ∧
    ∀ o ∈ post, labelled o < labelled s

section
variable {release : String} {secrets secrets' : List Secret} {s s' : Secret}

theorem Newest.mem (h : Newest secrets s) : s ∈ secrets := by
  obtain ⟨pre, post, rfl, _⟩ := h
  exact List.mem_append_right pre List.mem_cons_self

theorem Newest.le (h : Newest secrets s) : ∀ o ∈ secrets, labelled o ≤ labelled s := by
  obtain ⟨pre, post, rfl, hpre, hpost⟩ := h
  intro o ho
  obtain ho | ho := List.mem_append.mp ho
  · exact hpre o ho
  obtain rfl | ho := List.mem_cons.mp ho
  · exact Int.le_refl _
  · exact Int.le_of_lt (hpost o ho)

theorem exists_newest (h : secrets ≠ []) : ∃ s, Newest secrets s := by
  induction secrets with
  | nil => exact absurd rfl h
  | cons o rest ih =>
    by_cases hrest : rest = []
    · subst hrest
      exact ⟨o, [], [], rfl, List.forall_mem_nil _, List.forall_mem_nil _⟩
    obtain ⟨s, hs⟩ := ih hrest
    by_cases hlt : labelled s < labelled o
    · refine ⟨o, [], rest, rfl, List.forall_mem_nil _, fun p hp => ?_⟩
      have hle := hs.le p hp
      omega
    · obtain ⟨pre, post, rfl, hpre, hpost⟩ := hs
      have ho : labelled o ≤ labelled s := by omega
      exact ⟨s, o :: pre, post, rfl, List.forall_mem_cons.mpr ⟨ho, hpre⟩, hpost⟩

theorem mem_of_newest? (h : newest? secrets = some s) : s ∈ secrets := by
  induction secrets generalizing s with
  | nil => cases h
  | cons o rest ih =>
    unfold newest? at h
    split at h
    · obtain rfl := Option.some.inj h
      exact List.mem_cons_self
    · rename_i t ht
      split at h
      · obtain rfl := Option.some.inj h
        exact List.mem_cons_self
      · obtain rfl := Option.some.inj h
        exact List.mem_cons_of_mem o (ih ht)

theorem newest?_of_newest (h : Newest secrets s) : newest? secrets = some s := by
  obtain ⟨pre, post, rfl, hpre, hpost⟩ := h
  induction pre with
  | nil =>
    show newest? (s :: post) = some s
    unfold newest?
    cases ht : newest? post with
    | none => rfl
    | some t =>
      have hlt := hpost t (mem_of_newest? ht)
      simp only [if_pos hlt]
  | cons o pre ih =>
    obtain ⟨ho, hpre⟩ := List.forall_mem_cons.mp hpre
    show newest? (o :: (pre ++ s :: post)) = some s
    unfold newest?
    rw [ih hpre]
    have hge : ¬labelled s < labelled o := by omega
    simp only [if_neg hge]

/-- the latest revision is read from the newest secret alone -/
theorem latest_of_newest (h : Newest secrets s) :
    latest release secrets = (ofSecret release s).map some := by
  unfold latest
  rw [newest?_of_newest h]

theorem newest_of_highest (hdistinct : (secrets.map labelled).Nodup) (hs : s ∈ secrets)
    (hmax : ∀ o ∈ secrets, labelled o ≤ labelled s) : Newest secrets s := by
  obtain ⟨t, ht⟩ := exists_newest (List.ne_nil_of_mem hs)
  have heq : labelled s = labelled t := Int.le_antisymm (ht.le s hs) (hmax t ht.mem)
  rw [List.inj_on_of_nodup_map hdistinct hs ht.mem heq]
  exact ht

theorem Newest.perm (h : Newest secrets s) (hperm : secrets.Perm secrets')
    (hdistinct : (secrets.map labelled).Nodup) : Newest secrets' s := by
  have hdistinct' : (secrets'.map labelled).Nodup := (hperm.map labelled).nodup_iff.mp hdistinct
  refine newest_of_highest hdistinct' (hperm.mem_iff.mp h.mem) fun o ho => ?_
  exact h.le o (hperm.mem_iff.mpr ho)

theorem latest_perm (hperm : secrets.Perm secrets') (hdistinct : (secrets.map labelled).Nodup) :
    latest release secrets' = latest release secrets := by
  by_cases hnil : secrets = []
  · subst hnil
    rw [hperm.nil_eq]
  · obtain ⟨s, hs⟩ := exists_newest hnil
    rw [latest_of_newest hs, latest_of_newest (hs.perm hperm hdistinct)]

/-- other data in all secrets but one leaves the newest one as it is -/
theorem Newest.mapOthers {pre post : List Secret} {f : Secret → Secret}
    (h : Newest (pre ++ s :: post) s) (hf : ∀ o, (f o).metadata = o.metadata)
    (hpost : ∀ o ∈ post, labelled o < labelled s) :
    Newest (pre.map f ++ s :: post.map f) s := by
  have hlabel (o : Secret) : labelled (f o) = labelled o := by
    unfold labelled
    rw [hf]
  refine ⟨pre.map f, post.map f, rfl, ?_, ?_⟩
  · intro o ho
    obtain ⟨p, hp, rfl⟩ := List.mem_map.mp ho
    rw [hlabel]
    exact h.le p (List.mem_append_left _ hp)
  · intro o ho
    obtain ⟨p, hp, rfl⟩ := List.mem_map.mp ho
    rw [hlabel]
    exact hpost p hp

end

/-- the latest revision is what the newest secret holds; no other secret is read, and if no number
occurs twice then the order of the secrets does not matter -/
theorem latest_by_number (release : String) :
    (∀ s n, labelled s = n ↔ Numbered s n) ∧
    latest release [] = .ok none ∧
    (∀ secrets, secrets ≠ [] → ∃ s, Newest secrets s) ∧
    (∀ secrets s, Newest secrets s → latest release secrets = (ofSecret release s).map some) ∧
    (∀ pre s post (f : Secret → Secret), (∀ o ∈ pre, labelled o ≤ labelled s) →
      (∀ o ∈ post, labelled o < labelled s) → (∀ o, (f o).metadata = o.metadata) →
      latest release (pre.map f ++ s :: post.map f) = latest release (pre ++ s :: post)) ∧
    ∀ secrets secrets', secrets.Perm secrets' → (secrets.map labelled).Nodup →
      latest release secrets' = latest release secrets ∧
        ∀ s ∈ secrets, (∀ o ∈ secrets, labelled o ≤ labelled s) →
          latest release secrets' = (ofSecret release s).map some := by
  refine ⟨fun s n => labelled_eq_iff, rfl, fun _ => exists_newest, fun _ _ => latest_of_newest,
    ?_, ?_⟩
  · intro pre s post f hpre hpost hf
    have hs : Newest (pre ++ s :: post) s := ⟨pre, post, rfl, hpre, hpost⟩
    rw [latest_of_newest hs, latest_of_newest (hs.mapOthers hf hpost)]
  · intro secrets secrets' hperm hdistinct
    refine ⟨latest_perm hperm hdistinct, fun s hs hmax => ?_⟩
    exact latest_of_newest ((newest_of_highest hdistinct hs hmax).perm hperm hdistinct)

namespace Metal

/-- a secret with a number in its label -/
def numbered (number : String) (data : Option (Dict (List UInt8))) : Secret where
  metadata := { labels := some [("version", number)] }
  data

/-- the first of the secrets is too old to matter, and the number of the last one is too large -/
def secrets : List Secret :=
  [numbered "9" none, numbered "+10" (some [("release", plain)]),
    numbered "9223372036854775808" none]

end Metal

open Metal in
theorem latest_by_number_metal :
    latest "metal3" secrets.reverse = latest "metal3" secrets ∧
      latest "metal3" secrets.reverse =
        (ofSecret "metal3" (numbered "+10" (some [("release", plain)]))).map some := by
  have hlabels : secrets.map labelled = [9, 10, 0] := by decide +kernel
  have hdistinct : (secrets.map labelled).Nodup := by
    rw [hlabels]
    decide
  have hunordered := (latest_by_number "metal3").2.2.2.2.2 secrets secrets.reverse
    (List.reverse_perm secrets).symm hdistinct
  refine ⟨hunordered.1, hunordered.2 _ (List.mem_cons_of_mem _ List.mem_cons_self) ?_⟩
  decide +kernel

end HelmRelease

end ReleaseUpgrade
