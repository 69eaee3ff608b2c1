import Mathlib.Data.List.Nodup
import ReleaseUpgrade.Script
import ReleaseUpgrade.Proofs.SemVer.Text
import ReleaseUpgrade.Proofs.Text.Replacement

/-!
# The fields in the upgrade script

The placeholders of the template stand between quotation marks, and no placeholder has one in it.
So a field cannot make up a placeholder with the text around it, and it does not matter that the
placeholders are replaced one after the other.

* `placeholders`        what is replaced, whatever the operating system;
* `IsCut`               a text that quotation marks cut into placeholders and other pieces;
* `laidOut_template`    the lines of the template are such texts;
* `IsPlain`             an operating system without placeholders in its fields;
* `independent`         the replacement of one placeholder leaves its fields as they are;
* `render_at_once`      the script is the template with all placeholders replaced in one pass.
-/

namespace ReleaseUpgrade.Script

/-! ## the placeholders -/

def placeholders : List String :=
  ["{{CPE_SCHEME}}", "{{VERSION}}", "{{ZYPPER_ID}}", "{{REPO_GPG_PATH}}", "{{SUPPORTED_ARCHS}}"]

theorem nodup_placeholders : placeholders.Nodup := by decide

theorem eq_of_occursIn :
    ∀ p ∈ placeholders, ∀ q ∈ placeholders, Text.occursIn p q = true → p = q := by decide

theorem begins_with_braces : ∀ p ∈ placeholders, ['{', '{'] <+: p.toList := by decide

theorem quote_not_mem : ∀ p ∈ placeholders, '"' ∉ p.toList := by decide

theorem newline_not_mem : ∀ p ∈ placeholders, '\n' ∉ p.toList := by decide

section
variable {os : OperatingSystem} {r : String × String} {cs : List Char}

theorem mem_placeholders (hr : r ∈ substitutions os) : r.1 ∈ placeholders :=
  List.mem_map_of_mem (f := Prod.fst) hr

theorem exists_substitution (os : OperatingSystem) {p : String} (hp : p ∈ placeholders) :
    ∃ r ∈ substitutions os, r.1 = p :=
  (List.mem_map (l := substitutions os) (f := Prod.fst)).mp hp

theorem part_ne_nil (hr : r ∈ substitutions os) : r.1.toList ≠ [] := fun hnil =>
  absurd (hnil ▸ begins_with_braces r.1 (mem_placeholders hr)) (by decide)

theorem isMark_of_forall {c : Char} (h : ∀ p ∈ placeholders, c ∉ p.toList) :
    Text.IsMark (substitutions os) c :=
  fun r hr => h r.1 (mem_placeholders hr)

theorem free_of_forall (h : ∀ p ∈ placeholders, Text.occursChars p.toList cs = false) :
    Text.Free (substitutions os) cs :=
  fun r hr => h r.1 (mem_placeholders hr)

theorem free_of_braces (h : Text.occursChars ['{', '{'] cs = false) :
    Text.Free (substitutions os) cs :=
  free_of_forall fun p hp => Text.occursChars_eq_false_iff.mpr fun hin =>
    Text.occursChars_eq_false_iff.mp h ((begins_with_braces p hp).isInfix.trans hin)

/-! ## the template -/

/-- the pieces between the quotation marks are placeholders or have no two braces in them -/
def IsCut (cs : List Char) : Prop :=
  ∀ piece ∈ Text.splitChars '"' cs,
    Text.occursChars ['{', '{'] piece = false ∨ String.ofList piece ∈ placeholders

instance : DecidablePred IsCut := fun cs =>
  inferInstanceAs (Decidable (∀ piece ∈ Text.splitChars '"' cs, _))

theorem IsCut.laidOut (h : IsCut cs) : Text.LaidOut (substitutions os) cs := by
  have hjoined : ['"'].intercalate (cs.splitOn '"') = cs := List.intercalate_splitOn '"'
  rw [← hjoined, ← Text.splitChars_eq]
  refine .intercalate (fun _ => part_ne_nil) (isMark_of_forall quote_not_mem) fun piece hpiece => ?_
  obtain hfree | hp := h piece hpiece
  · exact .piece (free_of_braces hfree)
  · obtain ⟨r, hr, hpart⟩ := exists_substitution os hp
    rw [← String.toList_ofList (l := piece), ← hpart]
    exact .part hr

/-- a line that is written out is the text of its characters -/
theorem forall_isCut_cons {lines : List String} (h : IsCut cs)
    (hlines : ∀ line ∈ lines, IsCut line.toList) :
    ∀ line ∈ String.ofList cs :: lines, IsCut line.toList :=
  List.forall_mem_cons.mpr ⟨(String.toList_ofList (l := cs)).symm ▸ h, hlines⟩

theorem isCut_templateLines : ∀ line ∈ templateLines, IsCut line.toList := by
  unfold templateLines
  -- line by line, since a decision about a literal would first decode it
  repeat' refine forall_isCut_cons (by decide) ?_
  exact List.forall_mem_nil _

theorem laidOut_template : Text.LaidOut (substitutions os) template.toList := by
  rw [template, Text.joinWith, String.toList_intercalate]
  refine .intercalate (c := '\n') (fun _ => part_ne_nil) (isMark_of_forall newline_not_mem) ?_
  exact List.forall_mem_map.mpr fun line hline => (isCut_templateLines line hline).laidOut

/-! ## the fields -/

theorem brace_not_mem_long (arch : Arch) : '{' ∉ arch.long.toList := by
  cases arch <;> decide

theorem free_archs (archs : List Arch) :
    Text.Free (substitutions os) (Text.joinWith " " (archs.map Arch.long)).toList := by
  have hnames : ∀ name ∈ (archs.map Arch.long).map String.toList, ∀ c ∈ name, c ≠ '{' := by
    rw [List.map_map]
    refine List.forall_mem_map.mpr fun arch _ c hc => ?_
    exact ne_of_mem_of_not_mem hc (brace_not_mem_long arch)
  have hbrace : '{' ∉ (Text.joinWith " " (archs.map Arch.long)).toList := by
    rw [Text.joinWith, String.toList_intercalate]
    exact fun hmem => (Text.forall_mem_intercalate (c := ' ') (by decide)).mpr hnames _ hmem rfl
  exact free_of_braces (Text.occursChars_eq_false_iff.mpr fun hin =>
    hbrace (hin.subset List.mem_cons_self))

/-- no placeholder in a field that goes into the script; the names of architectures have none -/
def IsPlain (os : OperatingSystem) : Prop :=
  ∀ field ∈ [os.cpeScheme, os.version, os.zypperId, os.repoGpgPath],
    ∀ p ∈ placeholders, Text.occursIn p field = false

instance : DecidablePred IsPlain := fun os =>
  inferInstanceAs (Decidable (∀ field ∈ [os.cpeScheme, os.version, os.zypperId, os.repoGpgPath], _))

theorem independent (h : IsPlain os) : Text.Independent (substitutions os) where
  ne_nil _ := part_ne_nil
  apart r hr s hs hoccurs :=
    List.inj_on_of_nodup_map (l := substitutions os) (f := Prod.fst) nodup_placeholders hr hs
      (eq_of_occursIn r.1 (mem_placeholders hr) s.1 (mem_placeholders hs) hoccurs)
  free := by
    simp only [IsPlain, List.forall_mem_cons] at h
    obtain ⟨hcpe, hversion, hzypper, hgpg, -⟩ := h
    rw [substitutions]
    simp only [List.forall_mem_cons]
    exact ⟨free_of_forall hcpe, free_of_forall hversion, free_of_forall hzypper,
      free_of_forall hgpg, free_archs os.supportedArchs, nofun⟩

end

/-- the script of a plain operating system is the template with every placeholder replaced by its
field in one pass, it has no placeholder left, and any order of the replacements gives the same -/
theorem render_at_once (os : OperatingSystem) (h : IsPlain os) :
    render os = Text.replaceEach
        [("{{CPE_SCHEME}}", os.cpeScheme),
          ("{{VERSION}}", os.version),
          ("{{ZYPPER_ID}}", os.zypperId),
          ("{{REPO_GPG_PATH}}", os.repoGpgPath),
          ("{{SUPPORTED_ARCHS}}", " ".intercalate (os.supportedArchs.map Arch.long))]
        template ∧
      (∀ p ∈ placeholders, Text.occursIn p (render os) = false) ∧
      ∀ order : List (String × String), order.Perm (substitutions os) →
        order.foldl (fun script s => Text.replaceAll s.1 s.2 script) template = render os := by
  have hind := independent h
  have hrender : render os = Text.replaceEach (substitutions os) template :=
    laidOut_template.foldl_eq hind (.refl _)
  refine ⟨hrender, fun p hp => ?_, fun order horder => ?_⟩
  · obtain ⟨r, hr, rfl⟩ := exists_substitution os hp
    rw [hrender]
    exact laidOut_template.free hind r hr
  · rw [hrender]
    exact laidOut_template.foldl_eq hind horder

/-- an operating system as its vendor describes it -/
def slMicro : OperatingSystem where
  version := "6.0"
  zypperId := "SL-Micro"
  cpeScheme := "cpe:/o:suse:sl-micro:6.0"
  repoGpgPath := "/usr/lib/rpm/gnupg/keys/gpg-pubkey.asc"
  supportedArchs := [.x86, .arm]
  prettyName := "SUSE Linux Micro 6.0"

theorem render_at_once_slMicro :
    IsPlain slMicro ∧
      (∀ p ∈ placeholders, Text.occursIn p (render slMicro) = false) ∧
      (substitutions slMicro).reverse.foldl (fun script s => Text.replaceAll s.1 s.2 script)
        template = render slMicro := by
  have hplain : IsPlain slMicro := by decide
  obtain ⟨_, hfree, horder⟩ := render_at_once slMicro hplain
  exact ⟨hplain, hfree, horder _ (List.reverse_perm _)⟩

end ReleaseUpgrade.Script
