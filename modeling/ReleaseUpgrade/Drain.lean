import ReleaseUpgrade.Naming
import ReleaseUpgrade.Nodes

/-!
# Drain policy

Whether the nodes of a role are drained before they are upgraded: by default only if there is more
than one of them, and never if the plan says so.
-/

namespace ReleaseUpgrade

/-- whether the nodes of each role are drained -/
structure DrainPolicy where
  controlPlane : Bool
  worker : Bool
  deriving DecidableEq, Repr

namespace DrainPolicy

/-- the default for numbers of control-plane nodes and of workers -/
def ofCounts (controlPlane workers : Nat) : DrainPolicy :=
  if 1 < controlPlane ∧ workers ≤ 1 then ⟨true, false⟩
  else if controlPlane ≤ 1 ∧ 1 < workers then ⟨false, true⟩
  else if controlPlane ≤ 1 ∧ workers ≤ 1 then ⟨false, false⟩
  else ⟨true, true⟩

/-- the policy with draining switched off where the plan says so -/
def override (p : DrainPolicy) (overrides : Option DisableDrain) : DrainPolicy :=
  match overrides with
  | none => p
  | some o =>
    ⟨p.controlPlane && o.controlPlane != some true, p.worker && o.worker != some true⟩

/-- the policy for some nodes -/
def resolve (nodes : List Node) (label : String) (overrides : Option DisableDrain) : DrainPolicy :=
  let counts := Nodes.roleCounts nodes label
  (ofCounts counts.1 counts.2).override overrides

/-- the nodes of a role are drained -/
def forRole (p : DrainPolicy) : NodeRole → Bool
  | .controlPlane => p.controlPlane
  | .worker => p.worker

end DrainPolicy

end ReleaseUpgrade
