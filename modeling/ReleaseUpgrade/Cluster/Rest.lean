import ReleaseUpgrade.Cluster.Program
import ReleaseUpgrade.Http.Message
import ReleaseUpgrade.Json.Reader

/-!
# Clusters behind an API server

Each call to a cluster is one request to its API server.

* `Rest.request`   the request of a call, or why there is none;
* `Rest.answerOf`  what the response to it says;
* `Rest.answer`    calls answered over a connection.

An object that is read is `none` if the server says that it is not found; deleting it is done then.
Changes to a plan name the version of the plan that they are about, so that of two writers the
second fails.
-/

namespace ReleaseUpgrade

/-- where the API has the objects of a type -/
structure Endpoint where
  apiVersion : String
  plural : String

namespace Endpoint

def ofKind : Kind → Endpoint
  | .releaseManifest => ⟨ReleaseUpgrade.apiVersion, "releasemanifests"⟩
  | .node => ⟨"v1", "nodes"⟩
  | .secret => ⟨"v1", "secrets"⟩
  | .nodePlan => ⟨"upgrade.cattle.io/v1", "plans"⟩
  | .helmChart => ⟨"helm.cattle.io/v1", "helmcharts"⟩
  | .job => ⟨"batch/v1", "jobs"⟩
  | .deployment => ⟨"apps/v1", "deployments"⟩

def upgradePlans : Endpoint := ⟨ReleaseUpgrade.apiVersion, "upgradeplans"⟩

def events : Endpoint := ⟨"events.k8s.io/v1", "events"⟩

/-- the path of all objects, or of those in a namespace -/
def path (e : Endpoint) (ns : Option String) : String :=
  (if e.apiVersion.contains '/' then "/apis/" else "/api/") ++ e.apiVersion ++ "/" ++
    (ns.elim "" fun ns => "namespaces/" ++ ns ++ "/") ++ e.plural

end Endpoint

namespace Rest

/-- the manager that changes to a plan are made by -/
def fieldManager : String := "ruo"

/-- a request, unless its target cannot be sent -/
def build (method : RequestMethod) (path : String) (parameters : List (String × String))
    (content : Option Content) : Except UpgradeError Request :=
  match Target.ofParts? path parameters with
  | some target => .ok { method, target, content }
  | none => .error (.cluster .request)

/-- the path of an object, which must have a name -/
def objectPath (e : Endpoint) (ns name : String) : Except UpgradeError String :=
  if name = "" then .error (.cluster .request) else .ok (e.path (some ns) ++ "/" ++ name)

/-- the namespace of an object that is to be written -/
def namespaceOf (m : Metadata) : Except UpgradeError String :=
  match m.ns with
  | some ns => .ok ns
  | none => .error (.missingField "metadata.namespace")

/-- the version of a plan that a change is about -/
def versionOf (plan : UpgradePlan) : String × Json :=
  ("resourceVersion", plan.metadata.resourceVersion.elim .null .str)

/-- the change that sets the status of a plan -/
def statusPatch (plan : UpgradePlan) (status : Status) : Json :=
  .obj [("metadata", .obj [versionOf plan]), ("status", status.toJson)]

/-- the change that sets the finalizers of a plan -/
def finalizersPatch (plan : UpgradePlan) (finalizers : List String) : Json :=
  .obj [("metadata", .obj [versionOf plan, ("finalizers", .ofStrings finalizers)])]

/-- a change to a plan, or to a part of it -/
def patch (plan : UpgradePlan) (part : String) (change : Json) : Except UpgradeError Request := do
  let ns ← namespaceOf plan.metadata
  let path ← objectPath .upgradePlans ns plan.metadata.nameAny
  build .patch (path ++ part) [("fieldManager", fieldManager)] (some (.mergePatch change))

/-- the plan as an event refers to it -/
def reference (plan : UpgradePlan) : Json :=
  .ofFields [
    ("apiVersion", some (.str ReleaseUpgrade.apiVersion)),
    ("kind", some (.str "UpgradePlan")),
    ("name", plan.metadata.name.map Json.str),
    ("namespace", plan.metadata.ns.map Json.str),
    ("uid", plan.metadata.uid.map Json.str)]

/-- the nanoseconds of an instant in hexadecimal digits, which make the name of an event its own -/
def eventMark (now : Instant) : String :=
  String.ofList (Nat.toDigits 16 (now.seconds * Nat.pow 10 9 + now.nanos).toNat)

/-- an event as an object of the cluster -/
def eventObject (now : Instant) (plan : UpgradePlan) (event : Event) : Json :=
  .obj [
    ("apiVersion", .str Endpoint.events.apiVersion),
    ("kind", .str "Event"),
    ("metadata", .ofFields [
      ("name", some (.str (plan.metadata.name.getD fieldManager ++ "." ++ eventMark now))),
      ("namespace", plan.metadata.ns.map Json.str)]),
    ("eventTime", .str (Shape.microText now)),
    ("action", .str event.reason),
    ("reason", .str event.reason),
    ("note", .str event.message),
    ("type", .str event.kind.text),
    ("regarding", reference plan),
    ("reportingController", .str fieldManager),
    ("reportingInstance", .str fieldManager)]

/-- the request of a call -/
def request (now : Instant) : Call → Except UpgradeError Request
  | .list k ns => build .get ((Endpoint.ofKind k).path ns) [] none
  | .get k ns name => do build .get (← objectPath (.ofKind k) ns name) [] none
  | .create k o => do
    let ns ← namespaceOf (k.metadata o)
    build .post ((Endpoint.ofKind k).path (some ns)) [] (some (.json (k.toJson o)))
  | .replace k o => do
    let ns ← namespaceOf (k.metadata o)
    let path ← objectPath (.ofKind k) ns (k.metadata o).nameAny
    build .put path [] (some (.json (k.toJson o)))
  | .delete k ns name => do
    build .delete (← objectPath (.ofKind k) ns name) [] (some (.json (.obj [])))
  | .latestRelease name =>
    build .get ((Endpoint.ofKind .secret).path none)
      [("labelSelector", HelmRelease.storageSelector name)] none
  | .patchStatus plan status => patch plan "/status" (statusPatch plan status)
  | .setFinalizers plan finalizers => patch plan "" (finalizersPatch plan finalizers)
  | .publishEvent plan event =>
    build .post (Endpoint.events.path (some (plan.metadata.ns.getD "default"))) []
      (some (.json (eventObject now plan event)))
  | .wait _ => .error (.cluster .other)

/-- the metadata of a list -/
def listMetadata : Shape :=
  .object (Shape.texts ["continue", "resourceVersion", "selfLink"] ++
    [Shape.opt "remainingItemCount" .int64])

/-- an integer without a sign that fits the bits -/
def unsigned? (bits : Nat) (j : Json) : Option Int :=
  j.int?.filter fun n => 0 ≤ n && n < (Nat.pow 2 bits : Int)

/-- the cause of an error -/
def readCause? (j : Json) : Option Unit := do
  let r ← Record.open? ["reason", "message", "field"] j
  for name in ["reason", "message", "field"] do
    let _ ← r.defaulted name "" Json.str?

/-- the details of an error -/
def readDetails? (j : Json) : Option Unit := do
  let r ← Record.open? ["name", "group", "kind", "uid", "causes", "retryAfterSeconds"] j
  for name in ["name", "group", "kind", "uid"] do
    let _ ← r.defaulted name "" Json.str?
  let _ ← r.defaulted "causes" [] (Json.list? readCause?)
  let _ ← r.defaulted "retryAfterSeconds" 0 (unsigned? 32)

/-- the failure that a status document describes -/
def status? (j : Json) : Option ClusterFailure := do
  let r ← Record.open? ["metadata", "status", "code", "message", "reason", "details"] j
  let _ ← r.optional "metadata" listMetadata.read
  let _ ← r.optional "status" (Json.choice? [("Success", ()), ("Failure", ())])
  let code ← r.defaulted "code" 0 (unsigned? 16)
  let message ← r.defaulted "message" "" Json.str?
  let reason ← r.defaulted "reason" "" Json.str?
  let _ ← r.optional "details" readDetails?
  some (.answered code reason message)

/-- what an error response says -/
def failure (r : Response) : ClusterFailure :=
  ((Json.ofText? r.body).bind status?).getD
    (.answered r.status "Failed to parse error data" r.body)

/-- the document of a response that is no error -/
def document (r : Response) : Except ClusterFailure Json :=
  if r.isError then .error (failure r)
  else
    match Json.ofText? r.body with
    | some j => .ok j
    | none => .error .malformed

variable {α : Type}

/-- what a response holds, read from its document -/
def content (read : Json → Option α) (r : Response) : Except ClusterFailure α :=
  match document r with
  | .error e => .error e
  | .ok j =>
    match read j with
    | some a => .ok a
    | none => .error .malformed

/-- a response that holds an object which does not matter -/
def acknowledged (read : Json → Option α) (r : Response) : Except ClusterFailure Unit :=
  (content read r).map fun _ => ()

/-- the objects of a list -/
def items? (k : Kind) (j : Json) : Option (List k.Object) := do
  let r ← Record.openObject? ["metadata", "items"] j
  let _ ← r.required "metadata" listMetadata.read
  r.required "items" fun j => if j.isNull then some [] else Json.list? k.ofJson? j

/-- an object, or that it is not found -/
def found (k : Kind) (r : Response) : Except ClusterFailure (Option k.Object) :=
  match content k.ofJson? r with
  | .ok o => .ok (some o)
  | .error (.answered code reason message) =>
    if reason = "NotFound" then .ok none else .error (.answered code reason message)
  | .error e => .error e

/-- the answer to a deletion: a status, or the object as it was -/
def deletion? (k : Kind) (j : Json) : Option Unit := do
  if ((← j.value?).field? "kind").bind Json.str? = some "Status" then
    let _ ← status? j
  else
    let _ ← k.ofJson? j

/-- that an object is deleted, or is not there -/
def deleted (k : Kind) (r : Response) : Except ClusterFailure Unit :=
  match content (deletion? k) r with
  | .error (.answered code reason message) =>
    if code = 404 then .ok () else .error (.answered code reason message)
  | outcome => outcome

/-- an outcome with its failure as an error of an upgrade -/
def lift (outcome : Except ClusterFailure α) : Except UpgradeError α :=
  outcome.mapError UpgradeError.cluster

/-- what a response says -/
def answerOf : (c : Call) → Response → Except UpgradeError c.Answer
  | .list k _, r => lift (content (items? k) r)
  | .get k _ _, r => lift (found k r)
  | .create k _, r | .replace k _, r => lift (acknowledged k.ofJson? r)
  | .delete k _ _, r => lift (deleted k r)
  | .latestRelease name, r =>
    (lift (content (items? .secret) r)).bind fun secrets => HelmRelease.latest name secrets
  | .patchStatus .., r | .setFinalizers .., r => lift (acknowledged UpgradePlan.ofJson? r)
  | .publishEvent .., r => lift (acknowledged Json.value? r)
  | .wait _, _ => .ok ()

/-- the answer to a call over a connection -/
def answer (now : Instant) : Program.Handler Connection
  | .wait _, connection => (.ok (), connection)
  | c, connection =>
    match request now c with
    | .error e => (.error e, connection)
    | .ok request =>
      let (response, connection) := connection.exchange request
      match response with
      | none => (.error (.cluster .connection), connection)
      | some r => (answerOf c r, connection)

end Rest

end ReleaseUpgrade
