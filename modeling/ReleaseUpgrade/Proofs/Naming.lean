import ReleaseUpgrade.Naming

/-!
# Names tell the roles and the attempts apart

The name of every object of an attempt ends with the suffix of the attempt, and all suffixes have
the same length; the name of a node plan begins with its role.

* `PlanOf`, `OfAttempt`   the names of an attempt: the node plans of a role, and the secret;
* `Generated`             the suffixes that random bytes give, `Generated.length_eq`;
* `apart_of_ne`           attempts with different suffixes have no name in common;
* `PlanOf.ne_worker`      nor have the control plane and the other nodes, whatever the attempts.
-/

namespace ReleaseUpgrade

/-- two digits are enough for a byte, and there are no fewer -/
theorem Text.length_hex_byte (b : UInt8) : (Text.hex 2 b.toNat).length = 2 := by
  have hle : (Nat.toDigits 16 b.toNat).length ≤ 2 :=
    (Nat.length_toDigits_le_iff (by decide) (by decide)).mpr b.toNat_lt
  rw [Text.hex, List.length_append, List.length_replicate]
  omega

namespace Naming

theorem osPlan_role {role role' : NodeRole} {zypperId version suffix : String}
    (h : osPlan role zypperId version suffix = osPlan role' zypperId version suffix) :
    role = role' := by
  cases role <;> cases role' <;> simp [osPlan, NodeRole.text] at h ⊢

theorem kubernetesPlan_role {role role' : NodeRole} {version suffix : String}
    (h : kubernetesPlan role version suffix = kubernetesPlan role' version suffix) :
    role = role' := by
  cases role <;> cases role' <;> simp [kubernetesPlan, NodeRole.text] at h ⊢

/-- the names of the node plans of a role, for any target -/
inductive PlanOf (role : NodeRole) (suffix : String) : String → Prop
  | system (zypperId version) : PlanOf role suffix (osPlan role zypperId version suffix)
  | distribution (version) : PlanOf role suffix (kubernetesPlan role version suffix)

/-- the names of the objects of an attempt -/
inductive OfAttempt (suffix : String) : String → Prop
  | plan (role) {name} : PlanOf role suffix name → OfAttempt suffix name
  | secret : OfAttempt suffix (osSecret suffix)

/-- a text that random bytes can give as a suffix -/
def Generated (s : String) : Prop :=
  ∃ bytes : List UInt8, bytes.length = suffixBytes ∧ s = suffix bytes

/-- two attempts have no name in common -/
def Apart (old new : String) : Prop := ∀ name, OfAttempt old name → ¬OfAttempt new name

section
variable {role : NodeRole} {s old new name : String}

theorem PlanOf.begins (h : PlanOf role s name) : ∃ rest, name = role.text ++ rest := by
  cases h with
  | system zypperId version =>
    refine ⟨"-" ++ (Text.lowercase zypperId ++ ("-" ++ (Text.replaceChar '.' '-' version ++
      ("-" ++ s)))), ?_⟩
    simp only [osPlan, String.append_assoc]
  | distribution version =>
    refine ⟨"-" ++ (Text.replaceChar '+' '-' version ++ ("-" ++ s)), ?_⟩
    simp only [kubernetesPlan, String.append_assoc]

theorem PlanOf.ne_worker {s' name' : String} (h : PlanOf .controlPlane s name)
    (h' : PlanOf .worker s' name') : name ≠ name' := by
  obtain ⟨rest, rfl⟩ := h.begins
  obtain ⟨rest', rfl⟩ := h'.begins
  intro he
  have hletters : 'c' :: ("ontrol-plane".toList ++ rest.toList) =
      'w' :: ("orkers".toList ++ rest'.toList) := by
    have hlist := congrArg String.toList he
    rwa [String.toList_append, String.toList_append] at hlist
  exact absurd (List.cons.inj hletters).1 (by decide)

theorem OfAttempt.ends (h : OfAttempt s name) : ∃ front, name = front ++ s := by
  cases h with
  | plan role hplan => cases hplan <;> exact ⟨_, rfl⟩
  | secret => exact ⟨_, rfl⟩

theorem Generated.length_eq (h : Generated s) : s.toList.length = 2 * suffixBytes := by
  obtain ⟨bytes, hbytes, rfl⟩ := h
  rw [← hbytes, suffix, String.toList_ofList]
  clear hbytes
  induction bytes with
  | nil => rfl
  | cons b bytes ih =>
    rw [List.flatMap_cons, List.length_append, Text.length_hex_byte, ih, List.length_cons]
    omega

/-- no name of one attempt is one of another attempt -/
theorem apart_of_ne (hold : Generated old) (hnew : Generated new) (hne : old ≠ new) :
    Apart old new := by
  intro name h h'
  obtain ⟨front, rfl⟩ := h.ends
  obtain ⟨front', he⟩ := h'.ends
  have hlist : front.toList ++ old.toList = front'.toList ++ new.toList := by
    rw [← String.toList_append, he, String.toList_append]
  have hlength : old.toList.length = new.toList.length :=
    hold.length_eq.trans hnew.length_eq.symm
  exact hne (String.toList_inj.mp (List.append_inj_right' hlist hlength))

end

end Naming

end ReleaseUpgrade
