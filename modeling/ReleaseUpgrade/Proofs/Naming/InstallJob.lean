import ReleaseUpgrade.Naming
import ReleaseUpgrade.Proofs.Admission
import ReleaseUpgrade.Proofs.SemVer.Text

/-!
# The names of the jobs that publish manifests

The name of such a job is the version of the release with hyphens in the place of the dots.  Nothing
else is changed: what a cluster does not take in a name stays in it, and where a dot or a hyphen has
been cannot be told from the name.

* `isLegal`                    the names that a cluster takes;
* `SemVer.IsPlain`             a version whose text has nothing in it that a cluster does not take;
* `toList_installJob`          the name of the job, from the version that is asked for;
* `isLegal_installJob_iff`     it is legal if the version is plain;
* `installJob_eq_iff`          two versions share a name if they are alike.
-/

namespace ReleaseUpgrade

theorem Text.getLast?_intercalate {c : Char} {parts : List (List Char)} {part : List Char}
    (h : parts.getLast? = some part) (hne : part ≠ []) :
    ([c].intercalate parts).getLast? = part.getLast? := by
  induction parts with
  | nil => cases h
  | cons first rest ih =>
    cases rest with
    | nil =>
      have hfirst : first = part := Option.some.inj h
      rw [List.intercalate_singleton, hfirst]
    | cons second rest =>
      obtain ⟨x, hx⟩ := Option.ne_none_iff_exists'.mp (mt List.getLast?_eq_none_iff.mp hne)
      rw [List.getLast?_cons_cons] at h
      rw [List.intercalate_cons_cons, List.getLast?_append, ih h, hx, Option.some_or]

namespace SemVer

/-- no build, no upper case and no hyphen at the end -/
structure IsPlain (v : SemVer) : Prop where
  build : v.build = []
  lower : ∀ id ∈ v.pre, ∀ c ∈ id.toList, c.isUpper = false
  ends : ∀ id, v.pre.getLast? = some id → id.toList.getLast? ≠ some '-'

/-- the text of a version that is no more than numbers ends with a digit -/
theorem getLast?_write_of_nil {v : SemVer} (hpre : v.pre = []) (hbuild : v.build = []) :
    ∃ c, (v.write '-').getLast? = some c ∧ c.isDigit = true := by
  obtain ⟨c, hc⟩ := Option.ne_none_iff_exists'.mp
    (mt List.getLast?_eq_none_iff.mp (Nat.toDigits_ne_nil (n := v.patch) (b := 10)))
  have hdigit := Nat.isDigit_of_mem_toDigits (by decide) (by decide) (List.mem_of_getLast? hc)
  refine ⟨c, ?_, hdigit⟩
  rw [write, hpre, hbuild, joined?, Text.marked, Text.marked, List.append_nil, List.append_nil,
    writeNumbers, List.getLast?_append, List.getLast?_cons, List.getLast?_append,
    List.getLast?_cons, hc]
  rfl

/-- the text of a prerelease ends as its last identifier does -/
theorem getLast?_write {v : SemVer} (h : v.IsSpelt) (hbuild : v.build = []) {id : String}
    (hid : v.pre.getLast? = some id) :
    ∃ c ∈ id.toList, id.toList.getLast? = some c ∧ (v.write '-').getLast? = some c := by
  have hmem : id ∈ v.pre := List.mem_of_getLast? hid
  have hne : id.toList ≠ [] := by
    simpa using (Bool.and_eq_true_iff.mp (h id (List.mem_append_left _ hmem))).1
  obtain ⟨c, hc⟩ := Option.ne_none_iff_exists'.mp (mt List.getLast?_eq_none_iff.mp hne)
  have hlast : (v.pre.map String.toList).getLast? = some id.toList := by
    rw [List.getLast?_map, hid, Option.map_some]
  refine ⟨c, List.mem_of_getLast? hc, hc, ?_⟩
  rw [write, hbuild, joined?, Text.marked, List.append_nil,
    joined?_of_ne_nil (List.ne_nil_of_mem hmem), Text.marked, List.getLast?_append,
    List.getLast?_cons, Text.getLast?_intercalate hlast hne, hc]
  rfl

end SemVer

namespace Naming

/-- a lower-case letter or a digit -/
def isWordChar (c : Char) : Bool := c.isLower || c.isDigit

def isNameChar (c : Char) : Bool := isWordChar c || c = '-' || c = '.'

/-- a name that a cluster takes: lower-case letters, digits, hyphens and dots, with a letter or a
digit at both ends -/
def isLegal (name : String) : Bool :=
  name.toList.all isNameChar && name.toList.head?.any isWordChar &&
    name.toList.getLast?.any isWordChar

section
variable {text text' : String} {v w : SemVer}

theorem ofText?_of_releaseVersion (h : Admission.releaseVersion text = .ok v) :
    SemVer.ofText? (withoutV text) = some v := by
  unfold Admission.releaseVersion at h
  cases hv : SemVer.ofText? ((Text.stripFront? "v" text).getD text) with
  | none =>
    rw [hv] at h
    split at h <;> cases h
  | some w =>
    rw [hv] at h
    split at h
    · cases h
    · rw [← Except.ok.inj h]
      exact hv

/-- the name of the job has all of the version in it -/
theorem toList_installJob (h : Admission.releaseVersion text = .ok v) :
    (installJob text).toList = "apply-release-manifest-".toList ++ v.write '-' ∧ v.IsSpelt := by
  obtain ⟨hwrite, hspelt⟩ := SemVer.write_of_ofChars? (ofText?_of_releaseVersion h)
  refine ⟨?_, hspelt⟩
  unfold installJob Text.replaceChar
  rw [← hwrite, SemVer.map_write hspelt, String.toList_append]
  exact congrArg _ String.toList_ofList

/-- two versions share the name of their job exactly if they are alike -/
theorem installJob_eq_iff (h : Admission.releaseVersion text = .ok v)
    (h' : Admission.releaseVersion text' = .ok w) :
    installJob text = installJob text' ↔ v.Alike w := by
  obtain ⟨hname, hspelt⟩ := toList_installJob h
  obtain ⟨hname', hspelt'⟩ := toList_installJob h'
  rw [← SemVer.write_eq_iff hspelt hspelt', ← String.toList_inj, hname, hname',
    List.append_cancel_left_eq]

theorem isUpper_eq_false {c : Char} (hc : isWordChar c = true) : c.isUpper = false := by
  unfold isWordChar Char.isLower Char.isDigit at hc
  unfold Char.isUpper
  simp only [Bool.or_eq_true, Bool.and_eq_true, decide_eq_true_eq, decide_eq_false_iff_not,
    ge_iff_le, UInt32.le_iff_toNat_le] at hc ⊢
  have hZ : 'Z'.val.toNat = 90 := rfl
  have ha : 'a'.val.toNat = 97 := rfl
  have hA : 'A'.val.toNat = 65 := rfl
  have h9 : '9'.val.toNat = 57 := rfl
  omega

/-- of the characters of identifiers, no name begins or ends with upper case or a hyphen -/
theorem isWordChar_iff {c : Char} (hc : c.isAlphanum = true ∨ c = '-') :
    isWordChar c = true ↔ c.isUpper = false ∧ c ≠ '-' := by
  constructor
  · intro h
    refine ⟨isUpper_eq_false h, ?_⟩
    rintro rfl
    cases h
  · rintro ⟨hupper, hne⟩
    have halnum := hc.resolve_right hne
    unfold Char.isAlphanum Char.isAlpha at halnum
    rw [hupper, Bool.false_or] at halnum
    exact halnum

/-- and it is upper case alone that no name has at all -/
theorem isNameChar_iff {c : Char} (hc : c.isAlphanum = true ∨ c = '-') :
    isNameChar c = true ↔ c.isUpper = false := by
  unfold isNameChar
  constructor
  · intro h
    simp only [Bool.or_eq_true, decide_eq_true_eq] at h
    obtain (h | rfl) | rfl := h
    · exact isUpper_eq_false h
    · rfl
    · rfl
  · intro hupper
    by_cases hne : c = '-'
    · rw [hne]
      rfl
    · rw [(isWordChar_iff hc).mpr ⟨hupper, hne⟩]
      rfl

theorem forall_isNameChar_iff (h : v.IsSpelt) :
    (∀ c ∈ v.write '-', isNameChar c = true) ↔
      v.build = [] ∧ ∀ id ∈ v.pre, ∀ c ∈ id.toList, c.isUpper = false := by
  have hnumbers : ∀ c ∈ v.writeNumbers '-', isNameChar c = true :=
    SemVer.forall_mem_writeNumbers rfl fun c hc => by
      rw [isNameChar, isWordChar, hc, Bool.or_true]
      rfl
  have hpre : (∀ id ∈ v.pre, ∀ c ∈ id.toList, isNameChar c = true) ↔
      ∀ id ∈ v.pre, ∀ c ∈ id.toList, c.isUpper = false :=
    forall₄_congr fun id hid c hc => isNameChar_iff
      (SemVer.isAlphanum_or_of_isIdentifier (h id (List.mem_append_left _ hid)) hc)
  rw [SemVer.write, List.forall_mem_append, List.forall_mem_append, and_iff_right hnumbers,
    SemVer.forall_mem_marked (P := fun c => isNameChar c = true) rfl, hpre, and_comm]
  refine and_congr_left fun _ => ?_
  cases v.build with
  | nil => exact iff_of_true (List.forall_mem_nil _) rfl
  | cons =>
    have hplus : isNameChar '+' ≠ true := by decide
    exact iff_of_false (fun hall => hplus (hall '+' List.mem_cons_self)) (List.cons_ne_nil _ _)

/-- the name of the job of a version is legal exactly if the version is plain -/
theorem isLegal_installJob_iff (h : Admission.releaseVersion text = .ok v) :
    isLegal (installJob text) = true ↔ v.IsPlain := by
  obtain ⟨hname, hspelt⟩ := toList_installJob h
  have hfront : ("apply-release-manifest-".toList ++ v.write '-').head? = some 'a' := rfl
  have hletters : ∀ c ∈ "apply-release-manifest-".toList, isNameChar c = true :=
    List.all_eq_true.mp rfl
  rw [isLegal, hname, hfront, List.getLast?_append, Bool.and_eq_true, Bool.and_eq_true,
    List.all_eq_true, List.forall_mem_append, and_iff_right hletters,
    forall_isNameChar_iff hspelt]
  constructor
  · rintro ⟨⟨⟨hbuild, hlower⟩, _⟩, hlast⟩
    refine ⟨hbuild, hlower, fun id hid hends => ?_⟩
    obtain ⟨c, _, hc, hwrite⟩ := SemVer.getLast?_write hspelt hbuild hid
    rw [hends] at hc
    cases hc
    rw [hwrite] at hlast
    cases hlast
  · rintro ⟨hbuild, hlower, hends⟩
    refine ⟨⟨⟨hbuild, hlower⟩, rfl⟩, ?_⟩
    cases hid : v.pre.getLast? with
    | none =>
      have hpre : v.pre = [] := List.getLast?_eq_none_iff.mp hid
      obtain ⟨c, hwrite, hdigit⟩ := SemVer.getLast?_write_of_nil hpre hbuild
      rw [hwrite, Option.some_or, Option.any_some, isWordChar, hdigit, Bool.or_true]
    | some id =>
      obtain ⟨c, hmem, hc, hwrite⟩ := SemVer.getLast?_write hspelt hbuild hid
      have hpre : id ∈ v.pre := List.mem_of_getLast? hid
      have hspelt := hspelt id (List.mem_append_left _ hpre)
      rw [hwrite, Option.some_or, Option.any_some,
        isWordChar_iff (SemVer.isAlphanum_or_of_isIdentifier hspelt hmem)]
      refine ⟨hlower id hpre c hmem, ?_⟩
      rintro rfl
      exact hends id hid hc

end

end Naming

end ReleaseUpgrade
