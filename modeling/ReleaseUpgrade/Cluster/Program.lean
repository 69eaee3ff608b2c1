import ReleaseUpgrade.Cluster.Kind
import ReleaseUpgrade.Error
import ReleaseUpgrade.Helm.Release

/-!
# Programs that work on a cluster

A `Program` is a tree of calls to the cluster: what is done next depends on the answers.  It says
nothing about how a call is answered, so the same program runs against a live cluster and against
one in memory.

* `Call`, `Call.Answer`   an operation of the cluster, and what it answers;
* `Program.run`           a program with something that answers its calls;
* `Action`                a program that can fail with an error.
-/

namespace ReleaseUpgrade

/-- how serious an event is -/
inductive EventKind where
  | normal
  | warning
  deriving DecidableEq, Repr

def EventKind.text : EventKind → String
  | .normal => "Normal"
  | .warning => "Warning"

/-- a message about an upgrade plan that users of the cluster see -/
structure Event where
  kind : EventKind
  reason : String
  message : String
  deriving DecidableEq, Repr

/-- an operation of the cluster -/
inductive Call where
  /-- the objects of a kind in a namespace, or in all of them -/
  | list (k : Kind) (ns : Option String)
  | get (k : Kind) (ns name : String)
  | create (k : Kind) (object : k.Object)
  | replace (k : Kind) (object : k.Object)
  /-- what is not there counts as deleted -/
  | delete (k : Kind) (ns name : String)
  | latestRelease (name : String)
  | patchStatus (plan : UpgradePlan) (status : Status)
  | setFinalizers (plan : UpgradePlan) (finalizers : List String)
  | publishEvent (plan : UpgradePlan) (event : Event)
  /-- let some milliseconds pass -/
  | wait (milliseconds : Nat)

namespace Call

/-- what the cluster answers -/
def Answer : Call → Type
  | .list k _ => List k.Object
  | .get k _ _ => Option k.Object
  | .latestRelease _ => Option HelmRelease
  | .create .. | .replace .. | .delete .. => Unit
  | .patchStatus .. | .setFinalizers .. | .publishEvent .. | .wait _ => Unit

/-- the name of the operation -/
def name : Call → String
  | .list k _ => "list_" ++ k.word ++ "s"
  | .get k _ _ => "get_" ++ k.word
  | .create k _ => "create_" ++ k.word
  | .replace k _ => "replace_" ++ k.word
  | .delete k _ _ => "delete_" ++ k.word
  | .latestRelease _ => "latest_helm_release"
  | .patchStatus .. => "patch_status"
  | .setFinalizers .. => "set_finalizers"
  | .publishEvent .. => "publish_event"
  | .wait _ => "wait"

end Call

/-- calls to a cluster, each chosen by the answers to those before it -/
inductive Program (α : Type) where
  | done (value : α)
  | call (c : Call) (next : Except UpgradeError c.Answer → Program α)

namespace Program
variable {α β : Type}

/-- a program and then another one -/
def bind : Program α → (α → Program β) → Program β
  | .done a, f => f a
  | .call c next, f => .call c fun answer => bind (next answer) f

instance : Monad Program where
  pure := .done
  bind := bind

@[simp] theorem call_bind (c : Call) (next : Except UpgradeError c.Answer → Program α)
    (f : α → Program β) : (.call c next >>= f) = .call c fun answer => next answer >>= f := rfl

/-- something that answers calls and remembers what it needs in `σ` -/
abbrev Handler (σ : Type) := (c : Call) → σ → Except UpgradeError c.Answer × σ

/-- the outcome of a program whose calls are answered by `handler` -/
def run {σ : Type} (handler : Handler σ) : Program α → σ → α × σ
  | .done a, s => (a, s)
  | .call c next, s =>
    let (answer, s) := handler c s
    run handler (next answer) s

@[simp] theorem run_call {σ : Type} (handler : Handler σ) (c : Call)
    (next : Except UpgradeError c.Answer → Program α) (s : σ) :
    run handler (.call c next) s = run handler (next (handler c s).1) (handler c s).2 := rfl

theorem run_bind {σ : Type} (handler : Handler σ) (p : Program α) (f : α → Program β) (s : σ) :
    run handler (p >>= f) s = run handler (f (run handler p s).1) (run handler p s).2 := by
  induction p generalizing s with
  | done a => rfl
  | call c next ih => simp only [call_bind, run_call, ih]

end Program

/-- a program that can fail -/
abbrev Action := ExceptT UpgradeError Program

namespace Action
variable {α : Type}

/-- one call; its failure is the failure of the action -/
def perform (c : Call) : Action c.Answer := ExceptT.mk (.call c .done)

/-- a value or an error -/
def ofExcept (e : Except UpgradeError α) : Action α := ExceptT.mk (.done e)

def list (k : Kind) (ns : Option String) : Action (List k.Object) := perform (.list k ns)

def get (k : Kind) (ns name : String) : Action (Option k.Object) := perform (.get k ns name)

def create (k : Kind) (object : k.Object) : Action Unit := perform (.create k object)

def replace (k : Kind) (object : k.Object) : Action Unit := perform (.replace k object)

def delete (k : Kind) (ns name : String) : Action Unit := perform (.delete k ns name)

def latestRelease (name : String) : Action (Option HelmRelease) := perform (.latestRelease name)

def patchStatus (plan : UpgradePlan) (status : Status) : Action Unit :=
  perform (.patchStatus plan status)

def setFinalizers (plan : UpgradePlan) (finalizers : List String) : Action Unit :=
  perform (.setFinalizers plan finalizers)

/-- an event; that it cannot be published is no failure -/
def publish (plan : UpgradePlan) (event : Event) : Action Unit :=
  ExceptT.mk (.call (.publishEvent plan event) fun _ => .done (.ok ()))

def wait (milliseconds : Nat) : Action Unit :=
  ExceptT.mk (.call (.wait milliseconds) fun _ => .done (.ok ()))

/-- the action, or what its error leads to -/
def recover (a : Action α) (f : UpgradeError → Action α) : Action α :=
  ExceptT.mk do
    match ← a.run with
    | .ok a => pure (.ok a)
    | .error e => (f e).run

end Action

end ReleaseUpgrade
