import ReleaseUpgrade.Cluster.Program

/-!
# A cluster in memory

`Store` holds the objects of a cluster in the order in which they came; `Store.answer` answers calls
from it.

* A `get` finds an object by name and namespace; a `list` keeps the order.
* A `create` fails if an object of this name is there, unless the store lets objects that are being
  deleted make room.
* The latest release is the one with the highest revision among the releases that the store is told
  of, or else the one that its secrets hold.
-/

namespace ReleaseUpgrade

/-- the objects of a cluster -/
structure Store where
  manifests : List ReleaseManifest := []
  nodes : List Node := []
  secrets : List Secret := []
  nodePlans : List NodePlan := []
  helmCharts : List HelmChart := []
  jobs : List Job := []
  deployments : List Deployment := []
  /-- installed releases that are known without their secrets -/
  releases : List HelmRelease := []
  /-- an object that is being deleted makes room for a new one of its name -/
  replaceTerminating : Bool := false
  /-- the status that was written last -/
  status : Option Status := none
  /-- the finalizers that were written last -/
  finalizers : Option (List String) := none

namespace Store

/-- the objects of a kind -/
def objects (s : Store) : (k : Kind) → List k.Object
  | .releaseManifest => s.manifests
  | .node => s.nodes
  | .secret => s.secrets
  | .nodePlan => s.nodePlans
  | .helmChart => s.helmCharts
  | .job => s.jobs
  | .deployment => s.deployments

/-- the store with other objects of a kind -/
def withObjects (s : Store) : (k : Kind) → List k.Object → Store
  | .releaseManifest, os => { s with manifests := os }
  | .node, os => { s with nodes := os }
  | .secret, os => { s with secrets := os }
  | .nodePlan, os => { s with nodePlans := os }
  | .helmChart, os => { s with helmCharts := os }
  | .job, os => { s with jobs := os }
  | .deployment, os => { s with deployments := os }

@[simp] theorem objects_withObjects (s : Store) (k : Kind) (os : List k.Object) :
    (s.withObjects k os).objects k = os := by
  cases k <;> rfl

theorem objects_withObjects_of_ne (s : Store) {k k' : Kind} (h : k ≠ k') (os : List k.Object) :
    (s.withObjects k os).objects k' = s.objects k' := by
  cases k <;> cases k' <;> first | rfl | exact absurd rfl h

/-- the object has this name in this namespace -/
def isNamed (k : Kind) (ns : Option String) (name : String) (o : k.Object) : Bool :=
  (k.metadata o).nameAny = name && (k.metadata o).ns = ns

/-- both objects have one name in one namespace -/
def isSame (k : Kind) (o o' : k.Object) : Bool :=
  isNamed k (k.metadata o).ns (k.metadata o).nameAny o'

/-- the objects with `o` in the place of the one of its name, or at the end -/
def putIn (k : Kind) (o : k.Object) : List k.Object → List k.Object
  | [] => [o]
  | o' :: rest => if isSame k o o' then o :: rest else o' :: putIn k o rest

/-- the store with an object, in the place of the one of its name -/
def put (s : Store) (k : Kind) (o : k.Object) : Store := s.withObjects k (putIn k o (s.objects k))

/-- the store without the objects of a name -/
def remove (s : Store) (k : Kind) (ns : Option String) (name : String) : Store :=
  s.withObjects k ((s.objects k).filter fun o => !isNamed k ns name o)

/-- the store with an installed release, in the place of those of its name -/
def putRelease (s : Store) (r : HelmRelease) : Store :=
  { s with releases := s.releases.filter (fun r' => r'.name != r.name) ++ [r] }

/-- the objects of a kind in a namespace, or all of them -/
def list (s : Store) (k : Kind) (ns : Option String) : List k.Object :=
  match ns with
  | none => s.objects k
  | some ns => (s.objects k).filter fun o => (k.metadata o).ns = some ns

def get? (s : Store) (k : Kind) (ns name : String) : Option k.Object :=
  (s.objects k).find? (isNamed k (some ns) name)

/-- kind, namespace and name of an object in one text -/
def path (k : Kind) (o : k.Object) : String :=
  k.text ++ "/" ++ (k.metadata o).nsOr ++ "/" ++ (k.metadata o).nameAny

/-- the store with a new object -/
def create (s : Store) (k : Kind) (o : k.Object) : Except UpgradeError Unit × Store :=
  match (s.objects k).find? (isSame k o) with
  | none => (.ok (), s.withObjects k (s.objects k ++ [o]))
  | some present =>
    if s.replaceTerminating && (k.metadata present).isTerminating then (.ok (), s.put k o)
    else (.error (.alreadyExists (path k o)), s)

/-- the last one of the releases with the highest revision -/
def newest? : List HelmRelease → Option HelmRelease
  | [] => none
  | r :: rest =>
    match newest? rest with
    | none => some r
    | some r' => some (if r'.revision < r.revision then r else r')

/-- the labels of the secrets that hold a release -/
def holdsRelease (name : String) (s : Secret) : Bool :=
  s.metadata.label? "owner" = some "helm" && s.metadata.label? "name" = some name

def latestRelease (s : Store) (name : String) : Except UpgradeError (Option HelmRelease) :=
  match newest? (s.releases.filter fun r => r.name = name) with
  | some r => .ok (some r)
  | none => HelmRelease.latest name (s.secrets.filter (holdsRelease name))

/-- the answer to a call, and the store after it -/
def answer : (c : Call) → Store → Except UpgradeError c.Answer × Store
  | .list k ns, s => (.ok (s.list k ns), s)
  | .get k ns name, s => (.ok (s.get? k ns name), s)
  | .create k o, s => s.create k o
  | .replace k o, s => (.ok (), s.put k o)
  | .delete k ns name, s => (.ok (), s.remove k (some ns) name)
  | .latestRelease name, s => (s.latestRelease name, s)
  | .patchStatus _ status, s => (.ok (), { s with status := some status })
  | .setFinalizers _ finalizers, s => (.ok (), { s with finalizers := some finalizers })
  | .publishEvent .., s => (.ok (), s)
  | .wait _, s => (.ok (), s)

end Store

end ReleaseUpgrade
