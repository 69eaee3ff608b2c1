/-!
# Readiness

The operator is ready once it watches the cluster.  Everything that asks for `Readiness.isReady`
sees what was set last.
-/

namespace ReleaseUpgrade

/-- whether the operator is ready -/
structure Readiness where
  isReady : Bool := false
  deriving DecidableEq, Repr

namespace Readiness

def set (ready : Bool) (_ : Readiness) : Readiness := ⟨ready⟩

end Readiness

end ReleaseUpgrade
