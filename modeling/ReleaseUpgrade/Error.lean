/-!
# Errors

`UpgradeError` is everything that can end a pass over an upgrade plan early.

* `UpgradeError.message`      the text of an error;
* `UpgradeError.isTransient`  the pass may succeed if it is simply repeated;
* `UpgradeError.isConflict`   the object that was to be created is there already;
* `UpgradeError.join`         the outcome of a pass together with that of writing its status.
-/

namespace ReleaseUpgrade

/-- how a request to the cluster can fail -/
inductive ClusterFailure where
  /-- the cluster answered with an error of its own -/
  | answered (code : Int) (reason message : String)
  /-- the answer is not of the expected form -/
  | malformed
  /-- no request could be made, as for an object without a name -/
  | request
  /-- the connection failed -/
  | connection
  | other
  deriving DecidableEq, Repr

/-- why the stored data of a release cannot be read -/
inductive StorageFault where
  /-- the secret holds no release -/
  | missing
  | base64 (detail : String)
  | gzip (detail : String)
  | json (detail : String)
  | other (text : String)
  deriving DecidableEq, Repr

/-- what can end a pass early -/
inductive UpgradeError where
  | cluster (failure : ClusterFailure)
  /-- an object that cannot be written as JSON -/
  | serialization
  /-- values that are no YAML -/
  | yaml
  | invalidSelector (detail : String)
  | noMatchingNodes (selector : String)
  | unsupportedDistribution (detail : String)
  | helmRelease (release : String) (fault : StorageFault)
  | chartValues (detail : String)
  | multipleHelmCharts (release : String)
  | alreadyExists (object : String)
  | missingField (field : String)
  /-- both the pass and the writing of its status failed -/
  | joined (reconcile status : UpgradeError)
  deriving DecidableEq, Repr

namespace StorageFault

def text : StorageFault → String
  | .missing => "storage secret has no 'release' key"
  | .base64 detail => "base64: " ++ detail
  | .gzip detail => "gzip: " ++ detail
  | .json detail => "json: " ++ detail
  | .other text => text

end StorageFault

namespace UpgradeError

/-- the text of an error -/
def message : UpgradeError → String
  | .cluster (.answered _ reason message) => "Kubernetes API error: " ++ message ++ ": " ++ reason
  | .cluster .malformed => "Kubernetes API error: the answer has not the expected form"
  | .cluster .request => "Kubernetes API error: the request could not be built"
  | .cluster .connection => "Kubernetes API error: the connection failed"
  | .cluster .other => "Kubernetes API error: the request failed"
  | .serialization => "Serialization error: the object cannot be written"
  | .yaml => "Values error: the values are not valid YAML"
  | .invalidSelector s => "Invalid node selector: " ++ s
  | .noMatchingNodes s => "None of the nodes match label selector: " ++ s
  | .unsupportedDistribution s =>
    "Unable to determine current Kubernetes distribution: " ++ s
  | .helmRelease release fault =>
    "Helm release '" ++ release ++ "' could not be decoded: " ++ fault.text
  | .chartValues s => "Invalid chart values: " ++ s
  | .multipleHelmCharts s =>
    "Unable to upgrade Helm release '" ++ s ++ "' backed by multiple HelmChart resources"
  | .alreadyExists s => s ++ " already exists"
  | .missingField s => "Resource is missing " ++ s
  | .joined reconcile status => reconcile.message ++ "; status update failed: " ++ status.message

/-- the cluster answered that there is no such object -/
def isNotFound : UpgradeError → Bool
  | .cluster (.answered code _ _) => code = 404
  | _ => false

/-- the object is there already, or has changed in the meantime -/
def isConflict : UpgradeError → Bool
  | .alreadyExists _ => true
  | .cluster (.answered code _ _) => code = 409
  | _ => false

/-- the same pass may succeed later -/
def isTransient : UpgradeError → Bool
  | .cluster _ => true
  | .alreadyExists _ => true
  | .joined reconcile status => reconcile.isTransient || status.isTransient
  | _ => false

/-- the outcome of a pass and that of writing its status, as one -/
def join {α : Type} : Except UpgradeError α → Except UpgradeError Unit → Except UpgradeError α
  | .ok a, .ok () => .ok a
  | .error e, .ok () => .error e
  | .ok _, .error e => .error e
  | .error e, .error f => .error (.joined e f)

end UpgradeError

end ReleaseUpgrade
