import ReleaseUpgrade.SemVer

/-!
# The text of a version

A version is read from one text only, since its numbers have no leading zeros.  So the text can be
written again, and with another character in the place of the dots it still shows where the numbers
end and where the prerelease and the build begin.

* `Text.marked`              a part with a mark in front, as a text is cut at the mark;
* `toDigits_numberOf`        digits without a leading zero are those of their number;
* `write`, `write_of_ofChars?`   a version that has been read is written as the same text;
* `Alike`, `write_eq_iff`    what two versions have in common if hyphens are written for the dots;
* `Alike.eq`                 they are the same unless there are hyphens in them.
-/

namespace ReleaseUpgrade

namespace Text
variable {c : Char} {cs front : List Char} {back : Option (List Char)}

theorem splitChars_eq (c : Char) (cs : List Char) : splitChars c cs = cs.splitOn c := by
  induction cs with
  | nil => rfl
  | cons x xs ih =>
    have hne : splitChars c xs ≠ [] := ih ▸ List.splitOn_ne_nil c xs
    rw [splitChars, List.splitOn_cons_eq_if_modifyHead, ← ih]
    simp only [beq_iff_eq]
    split
    · rfl
    · obtain ⟨part, parts, hparts⟩ := List.exists_cons_of_ne_nil hne
      rw [hparts]
      rfl

theorem map_intercalate (f : Char → Char) (separator : List Char) (parts : List (List Char)) :
    (separator.intercalate parts).map f =
      (separator.map f).intercalate (parts.map (List.map f)) := by
  induction parts with
  | nil => rfl
  | cons part parts ih =>
    cases parts with
    | nil => simp
    | cons => rw [List.intercalate_cons_cons, List.map_append, List.map_append, ih]; simp

theorem forall_mem_intercalate {P : Char → Prop} (hc : P c) {parts : List (List Char)} :
    (∀ x ∈ [c].intercalate parts, P x) ↔ ∀ part ∈ parts, ∀ x ∈ part, P x := by
  induction parts with
  | nil => exact iff_of_true nofun nofun
  | cons part parts ih =>
    cases parts with
    | nil => simp
    | cons =>
      rw [List.intercalate_cons_cons, List.forall_mem_append, List.forall_mem_append,
        List.forall_mem_singleton, and_iff_left hc, ih]
      exact (List.forall_mem_cons (p := fun part => ∀ x ∈ part, P x)).symm

/-- a part that may be missing, with a mark in front -/
def marked (mark : Char) : Option (List Char) → List Char
  | none => []
  | some cs => mark :: cs

theorem append_cutChars (c : Char) (cs : List Char) :
    (cutChars c cs).1 ++ marked c (cutChars c cs).2 = cs := by
  induction cs with
  | nil => rfl
  | cons x xs ih =>
    unfold cutChars
    split
    · rename_i hx
      rw [hx]
      rfl
    · exact congrArg (x :: ·) ih

theorem cutChars_append (hfront : c ∉ front) :
    cutChars c (front ++ marked c back) = (front, back) := by
  induction front with
  | nil =>
    cases back with
    | none => rfl
    | some cs => exact if_pos rfl
  | cons x xs ih =>
    rw [List.cons_append, cutChars, if_neg (Ne.symm (List.ne_of_not_mem_cons hfront)),
      ih (List.not_mem_of_not_mem_cons hfront)]

theorem append_marked_inj {front' : List Char} {back' : Option (List Char)} (h : c ∉ front)
    (h' : c ∉ front') :
    front ++ marked c back = front' ++ marked c back' ↔ front = front' ∧ back = back' := by
  constructor
  · intro heq
    have hcut := congrArg (cutChars c) heq
    rw [cutChars_append h, cutChars_append h'] at hcut
    exact Prod.mk.inj hcut
  · rintro ⟨rfl, rfl⟩
    rfl

end Text

namespace SemVer
open Text (marked)

theorem digitChar_of_isDigit {c : Char} (h : c.isDigit = true) :
    c.toNat - 48 < 10 ∧ (c.toNat - 48).digitChar = c := by
  obtain ⟨hlow, hhigh⟩ : 48 ≤ c.toNat ∧ c.toNat ≤ 57 := Char.isDigit_iff_toNat.mp h
  have hlt : c.toNat - 48 < 10 := by omega
  refine ⟨hlt, Char.toNat_inj.mp ((Nat.toNat_digitChar_of_lt_ten hlt).trans ?_)⟩
  omega

/-- digits that follow the digits of a number -/
theorem toDigits_append {cs : List Char} (hcs : ∀ c ∈ cs, c.isDigit = true) {n : Nat} (hn : 0 < n) :
    Nat.toDigits 10 n ++ cs = Nat.toDigits 10 (Nat.ofDigitChars 10 cs n) := by
  induction cs generalizing n with
  | nil => rw [List.append_nil, Nat.ofDigitChars_nil]
  | cons c cs ih =>
    obtain ⟨hc, hrest⟩ := List.forall_mem_cons.mp hcs
    obtain ⟨hlt, hdigit⟩ := digitChar_of_isDigit hc
    calc Nat.toDigits 10 n ++ c :: cs
        = Nat.toDigits 10 n ++ Nat.toDigits 10 (c.toNat - 48) ++ cs := by
          rw [Nat.toDigits_of_lt_base hlt, hdigit, List.append_assoc, List.singleton_append]
      _ = Nat.toDigits 10 (10 * n + (c.toNat - 48)) ++ cs := by
          rw [Nat.toDigits_append_toDigits (by decide) hn hlt]
      _ = Nat.toDigits 10 (Nat.ofDigitChars 10 (c :: cs) n) := by
          rw [ih hrest (by omega), Nat.ofDigitChars_cons]
          rfl

/-- digits without a leading zero are those of the number that they stand for -/
theorem toDigits_numberOf {cs : List Char} (h : isPlainNumber cs = true) :
    Nat.toDigits 10 (numberOf cs) = cs := by
  obtain ⟨⟨hdigits, hne⟩, hplain⟩ : ((∀ c ∈ cs, c.isDigit = true) ∧ cs ≠ []) ∧
      (cs.length = 1 ∨ cs.head? ≠ some '0') := by
    simpa [isPlainNumber, isNumeric] using h
  cases cs with
  | nil => exact absurd rfl hne
  | cons c cs =>
    obtain ⟨hc, hrest⟩ := List.forall_mem_cons.mp hdigits
    obtain ⟨hlt, hdigit⟩ := digitChar_of_isDigit hc
    have hvalue : numberOf (c :: cs) = Nat.ofDigitChars 10 cs (c.toNat - 48) := by
      rw [numberOf, Nat.ofDigitChars_cons]
      exact congrArg _ (Nat.zero_add _)
    rw [hvalue]
    obtain hzero | hpos := Nat.eq_zero_or_pos (c.toNat - 48)
    · -- a zero in front is the only digit
      rw [hzero] at hdigit ⊢
      subst hdigit
      obtain hlength | hhead := hplain
      · rw [List.length_eq_zero_iff.mp (Nat.succ.inj hlength)]
        rfl
      · exact absurd rfl hhead
    · rw [← toDigits_append hrest hpos, Nat.toDigits_of_lt_base hlt, hdigit]
      rfl

/-- identifiers with a character between them, if there are any -/
def joined? (dot : Char) : List String → Option (List Char)
  | [] => none
  | id :: ids => some ([dot].intercalate ((id :: ids).map String.toList))

theorem joined?_of_ne_nil {dot : Char} {ids : List String} (h : ids ≠ []) :
    joined? dot ids = some ([dot].intercalate (ids.map String.toList)) := by
  cases ids with
  | nil => exact absurd rfl h
  | cons => rfl

/-- the numbers of a version, with a character between them -/
def writeNumbers (dot : Char) (v : SemVer) : List Char :=
  Nat.toDigits 10 v.major ++ dot :: (Nat.toDigits 10 v.minor ++ dot :: Nat.toDigits 10 v.patch)

/-- the text of a version, with a character between its parts -/
def write (dot : Char) (v : SemVer) : List Char :=
  v.writeNumbers dot ++ marked '-' (joined? dot v.pre) ++ marked '+' (joined? dot v.build)

/-- all identifiers of the version are of the right form -/
def IsSpelt (v : SemVer) : Prop := ∀ id ∈ v.pre ++ v.build, isIdentifier id.toList = true

section
variable {parts : List (List Char)} {ids : List String} {v w : SemVer} {cs : List Char}

/-- parts that are read one by one, all of the right form -/
theorem of_mapM_identifier {p : List Char → Bool}
    (h : parts.mapM (fun part => if p part then some (String.ofList part) else none) = some ids) :
    ids.map String.toList = parts ∧ ∀ id ∈ ids, p id.toList = true := by
  induction parts generalizing ids with
  | nil =>
    cases h
    exact ⟨rfl, nofun⟩
  | cons part parts ih =>
    rw [List.mapM_cons] at h
    obtain ⟨id, hid, h⟩ := Option.bind_eq_some_iff.mp h
    obtain ⟨rest, hrest, h⟩ := Option.bind_eq_some_iff.mp h
    cases h
    obtain ⟨hp, rfl⟩ : p part = true ∧ String.ofList part = id := by
      simpa using hid
    obtain ⟨rfl, hall⟩ := ih hrest
    refine ⟨by rw [List.map_cons, String.toList_ofList], List.forall_mem_cons.mpr ⟨?_, hall⟩⟩
    rw [String.toList_ofList]
    exact hp

/-- the identifiers of a part, put together again -/
theorem joined?_of_split {p : List Char → Bool}
    (h : (Text.splitChars '.' cs).mapM (fun part =>
      if p part then some (String.ofList part) else none) = some ids) :
    joined? '.' ids = some cs ∧ ∀ id ∈ ids, p id.toList = true := by
  obtain ⟨hparts, hall⟩ := of_mapM_identifier h
  rw [Text.splitChars_eq] at hparts
  refine ⟨?_, hall⟩
  cases ids with
  | nil => exact absurd hparts.symm (List.splitOn_ne_nil '.' cs)
  | cons id ids => rw [joined?, hparts, List.intercalate_splitOn]

theorem joined?_of_part? {read : List Char → Option (List String)} {back : Option (List Char)}
    (hread : ∀ cs, read cs = some ids →
      joined? '.' ids = some cs ∧ ∀ id ∈ ids, isIdentifier id.toList = true)
    (h : part? read back = some ids) :
    joined? '.' ids = back ∧ ∀ id ∈ ids, isIdentifier id.toList = true := by
  cases back with
  | none =>
    cases h
    exact ⟨rfl, nofun⟩
  | some cs => exact hread cs h

theorem toDigits_of_number? {n : Nat} (h : number? cs = some n) : Nat.toDigits 10 n = cs := by
  unfold number? at h
  split at h
  · rename_i hplain
    cases h
    exact toDigits_numberOf (Bool.and_eq_true_iff.mp hplain).1
  · cases h

/-- the numbers, put together again -/
theorem append_of_split {major minor patch : List Char}
    (h : Text.splitChars '.' cs = [major, minor, patch]) :
    major ++ '.' :: (minor ++ '.' :: patch) = cs := by
  rw [Text.splitChars_eq] at h
  have hjoined : ['.'].intercalate (cs.splitOn '.') = cs := List.intercalate_splitOn '.'
  rw [h] at hjoined
  simpa using hjoined

/-- a version that has been read is written as the text that it has been read from -/
theorem write_of_ofChars? (h : ofChars? cs = some v) : v.write '.' = cs ∧ v.IsSpelt := by
  unfold ofChars? at h
  dsimp only at h
  split at h
  case h_2 => cases h
  rename_i major minor patch hnumbers
  obtain ⟨M, hM, h⟩ := Option.bind_eq_some_iff.mp h
  obtain ⟨m, hm, h⟩ := Option.bind_eq_some_iff.mp h
  obtain ⟨p, hp, h⟩ := Option.bind_eq_some_iff.mp h
  obtain ⟨pre, hpre, h⟩ := Option.bind_eq_some_iff.mp h
  obtain ⟨build, hbuild, h⟩ := Option.bind_eq_some_iff.mp h
  cases h
  obtain ⟨hpre, hpres⟩ := joined?_of_part? (fun cs hcs => (joined?_of_split hcs).imp_right
    fun hall id hid => (Bool.and_eq_true_iff.mp (hall id hid)).1) hpre
  obtain ⟨hbuild, hbuilds⟩ := joined?_of_part? (fun cs hcs => joined?_of_split hcs) hbuild
  have hwritten : writeNumbers '.' ⟨M, m, p, pre, build⟩ =
      (Text.cutChars '-' (Text.cutChars '+' cs).1).1 := by
    rw [writeNumbers, toDigits_of_number? hM, toDigits_of_number? hm, toDigits_of_number? hp]
    exact append_of_split hnumbers
  refine ⟨?_, List.forall_mem_append.mpr ⟨hpres, hbuilds⟩⟩
  rw [write, hwritten, hpre, hbuild, Text.append_cutChars, Text.append_cutChars]

theorem isAlphanum_or_of_isIdentifier {c : Char} (h : isIdentifier cs = true) (hc : c ∈ cs) :
    c.isAlphanum = true ∨ c = '-' := by
  have hall := (Bool.and_eq_true_iff.mp h).2
  simpa using List.all_eq_true.mp hall c hc

end

section
variable {v w : SemVer} {ids ids' : List String} {c dot : Char}

theorem map_of_not_mem {cs : List Char} (h : '.' ∉ cs) :
    cs.map (fun c => if c = '.' then dot else c) = cs := by
  refine (List.map_congr_left fun c hc => if_neg ?_).trans (List.map_id cs)
  rintro rfl
  exact h hc

theorem not_mem_toDigits {n : Nat} (hc : c.isDigit = false) : c ∉ Nat.toDigits 10 n := by
  intro h
  rw [Nat.isDigit_of_mem_toDigits (by decide) (by decide) h] at hc
  cases hc

theorem not_mem_of_isIdentifier {cs : List Char} (h : isIdentifier cs = true)
    (hc : c.isAlphanum = false) (hne : c ≠ '-') : c ∉ cs := by
  intro hmem
  obtain halnum | hhyphen := isAlphanum_or_of_isIdentifier h hmem
  · rw [hc] at halnum
    cases halnum
  · exact hne hhyphen

theorem map_joined? (h : ∀ id ∈ ids, isIdentifier id.toList = true) :
    (joined? '.' ids).map (List.map fun c => if c = '.' then dot else c) = joined? dot ids := by
  cases ids with
  | nil => rfl
  | cons id ids =>
    have hids : ((id :: ids).map String.toList).map
        (List.map fun c => if c = '.' then dot else c) = (id :: ids).map String.toList := by
      rw [List.map_map]
      exact List.map_congr_left fun id hid =>
        map_of_not_mem (not_mem_of_isIdentifier (h id hid) rfl (by decide))
    rw [joined?, Option.map_some, Text.map_intercalate, hids]
    rfl

theorem map_marked {mark : Char} (hmark : mark ≠ '.') (back : Option (List Char)) :
    (marked mark back).map (fun c => if c = '.' then dot else c) =
      marked mark (back.map (List.map fun c => if c = '.' then dot else c)) := by
  cases back with
  | none => rfl
  | some cs => exact congrArg (· :: _) (if_neg hmark)

/-- the dots in the text of a version are those between its parts -/
theorem map_write (h : v.IsSpelt) :
    (v.write '.').map (fun c => if c = '.' then dot else c) = v.write dot := by
  obtain ⟨hpre, hbuild⟩ := List.forall_mem_append.mp h
  have hnumber (n : Nat) : (Nat.toDigits 10 n).map (fun c => if c = '.' then dot else c) =
      Nat.toDigits 10 n := map_of_not_mem (not_mem_toDigits rfl)
  have hnumbers : (v.writeNumbers '.').map (fun c => if c = '.' then dot else c) =
      v.writeNumbers dot := by
    simp only [writeNumbers, List.map_append, List.map_cons, hnumber, if_pos]
  rw [write, List.map_append, List.map_append, hnumbers, map_marked (by decide),
    map_marked (by decide), map_joined? hpre, map_joined? hbuild]
  rfl

end

/-- the numbers are the same, and so are prerelease and build but for dots and hyphens -/
structure Alike (v w : SemVer) : Prop where
  major : v.major = w.major
  minor : v.minor = w.minor
  patch : v.patch = w.patch
  pre : Text.joinWith "-" v.pre = Text.joinWith "-" w.pre
  build : Text.joinWith "-" v.build = Text.joinWith "-" w.build

section
variable {v w : SemVer} {ids ids' : List String}

theorem toDigits_inj {m n : Nat} (h : Nat.toDigits 10 m = Nat.toDigits 10 n) : m = n := by
  rw [← Nat.ofDigitChars_ten_toDigits (n := m), h, Nat.ofDigitChars_ten_toDigits]

theorem joinWith_ne_empty {id : String} (hid : isIdentifier id.toList = true) :
    Text.joinWith "-" (id :: ids) ≠ "" := by
  have hne : id.toList ≠ [] := by simpa using (Bool.and_eq_true_iff.mp hid).1
  intro h
  have hlist := congrArg String.toList h
  rw [Text.joinWith, String.toList_intercalate, List.map_cons] at hlist
  cases hids : ids.map String.toList with
  | nil =>
    rw [hids, List.intercalate_singleton] at hlist
    exact hne hlist
  | cons =>
    rw [hids, List.intercalate_cons_cons, List.append_assoc] at hlist
    exact hne (List.append_eq_nil_iff.mp hlist).1

theorem joined?_eq_iff (h : ∀ id ∈ ids, isIdentifier id.toList = true)
    (h' : ∀ id ∈ ids', isIdentifier id.toList = true) :
    joined? '-' ids = joined? '-' ids' ↔ Text.joinWith "-" ids = Text.joinWith "-" ids' := by
  cases ids with
  | nil =>
    cases ids' with
    | nil => exact iff_of_true rfl rfl
    | cons id' ids' =>
      exact iff_of_false nofun fun heq => joinWith_ne_empty (h' id' List.mem_cons_self) heq.symm
  | cons id ids =>
    cases ids' with
    | nil => exact iff_of_false nofun (joinWith_ne_empty (h id List.mem_cons_self))
    | cons id' ids' =>
      rw [joined?, joined?, Option.some_inj, Text.joinWith, Text.joinWith, ← String.toList_inj,
        String.toList_intercalate, String.toList_intercalate]
      rfl

/-- what holds of hyphens holds of all of a part if it holds of its identifiers -/
theorem forall_mem_marked {P : Char → Prop} (hhyphen : P '-') :
    (∀ c ∈ marked '-' (joined? '-' ids), P c) ↔ ∀ id ∈ ids, ∀ c ∈ id.toList, P c := by
  cases ids with
  | nil => exact iff_of_true nofun nofun
  | cons id ids =>
    rw [joined?, marked, List.forall_mem_cons, and_iff_right hhyphen,
      Text.forall_mem_intercalate hhyphen, List.forall_mem_map]

theorem forall_mem_writeNumbers {P : Char → Prop} (hhyphen : P '-')
    (hdigit : ∀ c : Char, c.isDigit = true → P c) : ∀ c ∈ v.writeNumbers '-', P c := by
  have hnumber (n : Nat) : ∀ c ∈ Nat.toDigits 10 n, P c := fun c hc =>
    hdigit c (Nat.isDigit_of_mem_toDigits (by decide) (by decide) hc)
  unfold writeNumbers
  refine List.forall_mem_append.mpr ⟨hnumber _, List.forall_mem_cons.mpr ⟨hhyphen, ?_⟩⟩
  exact List.forall_mem_append.mpr ⟨hnumber _, List.forall_mem_cons.mpr ⟨hhyphen, hnumber _⟩⟩

/-- only the build has a plus in front -/
theorem plus_not_mem (h : v.IsSpelt) :
    '+' ∉ v.writeNumbers '-' ++ marked '-' (joined? '-' v.pre) := by
  have hall : ∀ c ∈ v.writeNumbers '-' ++ marked '-' (joined? '-' v.pre), c ≠ '+' := by
    refine List.forall_mem_append.mpr ⟨forall_mem_writeNumbers (by decide) ?_,
      (forall_mem_marked (by decide)).mpr fun id hid c hc => ?_⟩
    · rintro c hc rfl
      cases hc
    · rintro rfl
      have hid := h id (List.mem_append_left _ hid)
      exact not_mem_of_isIdentifier hid rfl (by decide) hc
  exact fun hmem => hall '+' hmem rfl

/-- versions are written alike with hyphens in the place of the dots exactly if they are alike -/
theorem write_eq_iff (h : v.IsSpelt) (h' : w.IsSpelt) : v.write '-' = w.write '-' ↔ v.Alike w := by
  obtain ⟨hpre, hbuild⟩ := List.forall_mem_append.mp h
  obtain ⟨hpre', hbuild'⟩ := List.forall_mem_append.mp h'
  have hnumbers (v : SemVer) : v.writeNumbers '-' ++ marked '-' (joined? '-' v.pre) =
      Nat.toDigits 10 v.major ++ marked '-' (some (Nat.toDigits 10 v.minor ++ marked '-'
        (some (Nat.toDigits 10 v.patch ++ marked '-' (joined? '-' v.pre))))) := by
    simp [writeNumbers, marked]
  have hhyphen {n : Nat} : '-' ∉ Nat.toDigits 10 n := not_mem_toDigits rfl
  rw [write, write, Text.append_marked_inj (plus_not_mem h) (plus_not_mem h'), hnumbers, hnumbers,
    Text.append_marked_inj hhyphen hhyphen, Option.some_inj,
    Text.append_marked_inj hhyphen hhyphen, Option.some_inj,
    Text.append_marked_inj hhyphen hhyphen, joined?_eq_iff hpre hpre',
    joined?_eq_iff hbuild hbuild']
  constructor
  · rintro ⟨⟨hmajor, hminor, hpatch, hpre⟩, hbuild⟩
    exact ⟨toDigits_inj hmajor, toDigits_inj hminor, toDigits_inj hpatch, hpre, hbuild⟩
  · rintro ⟨hmajor, hminor, hpatch, hpre, hbuild⟩
    rw [hmajor, hminor, hpatch]
    exact ⟨⟨rfl, rfl, rfl, hpre⟩, hbuild⟩

theorem eq_of_joined? (h : ∀ id ∈ ids, '-' ∉ id.toList) (h' : ∀ id ∈ ids', '-' ∉ id.toList)
    (heq : joined? '-' ids = joined? '-' ids') : ids = ids' := by
  cases ids with
  | nil =>
    cases ids' with
    | nil => rfl
    | cons => cases heq
  | cons id ids =>
    cases ids' with
    | nil => cases heq
    | cons id' ids' =>
      have hparts := congrArg (List.splitOn '-') (Option.some.inj heq)
      rw [List.splitOn_intercalate '-' (List.forall_mem_map.mpr h) (List.cons_ne_nil _ _),
        List.splitOn_intercalate '-' (List.forall_mem_map.mpr h') (List.cons_ne_nil _ _)] at hparts
      exact (List.map_inj_right fun _ _ => String.toList_inj.mp).mp hparts

/-- versions without hyphens in their identifiers are alike only if they are the same -/
theorem Alike.eq (halike : v.Alike w) (h : v.IsSpelt) (h' : w.IsSpelt)
    (hv : ∀ id ∈ v.pre ++ v.build, '-' ∉ id.toList)
    (hw : ∀ id ∈ w.pre ++ w.build, '-' ∉ id.toList) : v = w := by
  obtain ⟨hpre, hbuild⟩ := List.forall_mem_append.mp h
  obtain ⟨hpre', hbuild'⟩ := List.forall_mem_append.mp h'
  obtain ⟨hv, hvbuild⟩ := List.forall_mem_append.mp hv
  obtain ⟨hw, hwbuild⟩ := List.forall_mem_append.mp hw
  obtain ⟨hmajor, hminor, hpatch, hpres, hbuilds⟩ := halike
  have hpres := eq_of_joined? hv hw ((joined?_eq_iff hpre hpre').mpr hpres)
  have hbuilds := eq_of_joined? hvbuild hwbuild ((joined?_eq_iff hbuild hbuild').mpr hbuilds)
  cases v
  cases w
  cases hmajor
  cases hminor
  cases hpatch
  cases hpres
  cases hbuilds
  rfl

end

end SemVer

end ReleaseUpgrade
