import ReleaseUpgrade.Phases.Context

/-!
# Deleting a plan

Before a plan goes, the node plans and secrets that were created for it go, but not while a node is
being upgraded.
-/

namespace ReleaseUpgrade.Cleanup

/-- what became of the objects of a plan -/
inductive Outcome where
  /-- a node is being upgraded -/
  | deferred
  /-- all of them are gone -/
  | completed
  deriving DecidableEq, Repr

def Outcome.text : Outcome → String
  | .deferred => "Deferred"
  | .completed => "Completed"

/-- the objects that were created for the plan -/
def owned (ctx : Context) (k : Kind) (objects : List k.Object) : List k.Object :=
  objects.filter fun o => Naming.isOwnedBy ctx.settings.keys (k.metadata o) ctx.plan

/-- objects are deleted in turn -/
def deleteAll (ns : String) (k : Kind) : List k.Object → Action Unit
  | [] => return ()
  | o :: rest => do
    Action.delete k ns (k.metadata o).nameAny
    deleteAll ns k rest

/-- the objects that were created for the plan are deleted -/
def clean (ctx : Context) : Action Outcome := do
  let ns := ctx.settings.upgradeNamespace
  let plans := owned ctx .nodePlan (← Action.list .nodePlan (some ns))
  if List.any plans NodePlan.isApplying then return .deferred
  deleteAll ns .nodePlan plans
  let secrets := owned ctx .secret (← Action.list .secret (some ns))
  deleteAll ns .secret secrets
  return .completed

end ReleaseUpgrade.Cleanup
