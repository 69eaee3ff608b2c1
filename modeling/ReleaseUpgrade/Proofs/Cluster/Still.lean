import ReleaseUpgrade.Cluster.Store
import ReleaseUpgrade.Proofs.Cluster.Writes

/-!
# Clusters that do not change

As long as nothing happens to it, a cluster answers a call always in the same way.

* `Answers`, `Program.on`   such a cluster, and what a program does on it;
* `Program.on_eq_iff`       this is the one trace of the program with the answers of the cluster;
* `Trace.Idle`              nothing has been created or replaced;
* `Store.run_eq_on`         a cluster in memory is such a cluster, as long as nothing is put into it or
                            taken out of it.
-/

namespace ReleaseUpgrade

/-- how a cluster that does not change answers calls -/
abbrev Answers := (c : Call) → Except UpgradeError c.Answer

namespace Program
variable {α : Type}

/-- what a program does on a cluster that does not change, and what it ends with -/
def on (answers : Answers) : Program α → Trace × α
  | .done a => ([], a)
  | .call c next =>
    let (t, a) := on answers (next (answers c))
    (⟨c, answers c⟩ :: t, a)

theorem on_eq_iff {answers : Answers} {p : Program α} {t : Trace} {a : α} :
    p.on answers = (t, a) ↔ p.Yields t a ∧ ∀ x ∈ t, x.answer = answers x.call := by
  induction p generalizing t with
  | done b =>
    rw [on, Prod.mk.injEq]
    constructor
    · rintro ⟨rfl, rfl⟩
      exact ⟨⟨rfl, rfl⟩, List.forall_mem_nil _⟩
    · rintro ⟨⟨rfl, rfl⟩, _⟩
      exact ⟨rfl, rfl⟩
  | call c next ih =>
    rw [on, Prod.mk.injEq]
    constructor
    · rintro ⟨rfl, ha⟩
      obtain ⟨hnext, hfrom⟩ := (ih (answers c)).mp (Prod.ext rfl ha)
      exact ⟨⟨answers c, _, rfl, hnext⟩, List.forall_mem_cons.mpr ⟨rfl, hfrom⟩⟩
    · rintro ⟨⟨answer, u, rfl, hnext⟩, hfrom⟩
      obtain ⟨hc, hu⟩ := List.forall_mem_cons.mp hfrom
      obtain rfl : answer = answers c := hc
      rw [(ih (answers c)).mpr ⟨hnext, hu⟩]
      exact ⟨rfl, rfl⟩

end Program

/-- an object has been created or replaced -/
def Exchange.hasPut (x : Exchange) : Bool := x.call.puts && x.answer.isOk

/-- nothing has been created or replaced -/
def Trace.Idle (t : Trace) : Prop := ∀ x ∈ t, x.hasPut = false

instance (t : Trace) : Decidable t.Idle :=
  inferInstanceAs (Decidable (∀ x ∈ t, x.hasPut = false))

namespace Store

/-- the answers of a cluster in memory -/
def answers (s : Store) : Answers := fun c => (answer c s).1

theorem create_snd_eq {s : Store} {k : Kind} {o : k.Object} (h : (s.create k o).1.isOk = false) :
    (s.create k o).2 = s := by
  unfold create at h ⊢
  split
  · rename_i hnone
    rw [hnone] at h
    cases h
  · rename_i present hpresent
    rw [hpresent] at h
    dsimp only at h
    split
    · rename_i hgoes
      rw [if_pos hgoes] at h
      cases h
    · rfl

/-- a call that puts nothing into the cluster and takes nothing out of it leaves it as it is -/
theorem answer_snd_eq {c : Call} {s : Store} (hput : (⟨c, s.answers c⟩ : Exchange).hasPut = false)
    (hdelete : c.deletes = false) (hspares : c.sparesPlan = true) : (answer c s).2 = s := by
  cases c with
  | list | get | latestRelease | publishEvent | wait => rfl
  | create k o => exact create_snd_eq hput
  | replace => cases hput
  | delete => cases hdelete
  | patchStatus | setFinalizers => cases hspares

/-- a program that puts nothing into the cluster and takes nothing out of it finds it as it was all
the time -/
theorem run_eq_on {α : Type} {p : Program α} {s : Store} (hidle : (p.on s.answers).1.Idle)
    (hdelete : ∀ x ∈ (p.on s.answers).1, x.call.deletes = false)
    (hspares : (p.on s.answers).1.All Call.sparesPlan) :
    p.run answer s = ((p.on s.answers).2, s) := by
  induction p with
  | done a => rfl
  | call c next ih =>
    obtain ⟨hput, hidle⟩ := List.forall_mem_cons.mp hidle
    obtain ⟨hc, hdelete⟩ := List.forall_mem_cons.mp hdelete
    obtain ⟨hplan, hspares⟩ := List.forall_mem_cons.mp hspares
    rw [Program.run_call, answer_snd_eq hput hc hplan]
    exact ih _ hidle hdelete hspares

end Store

end ReleaseUpgrade
