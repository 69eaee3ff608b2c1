import ReleaseUpgrade.Http.Target
import ReleaseUpgrade.Json.Basic

/-!
# Requests and responses
-/

namespace ReleaseUpgrade

inductive RequestMethod where
  | get
  | post
  | put
  | patch
  | delete
  deriving DecidableEq, Repr

def RequestMethod.text : RequestMethod → String
  | .get => "GET"
  | .post => "POST"
  | .put => "PUT"
  | .patch => "PATCH"
  | .delete => "DELETE"

/-- a document that is sent with a request -/
structure Content where
  type : String
  body : Json

/-- a request to a server -/
structure Request where
  method : RequestMethod
  target : Target
  content : Option Content := none

/-- the answer of a server -/
structure Response where
  status : Nat
  body : String

/-- a connection to a server -/
structure Connection where
  /-- the answers that are still to come; after them the connection fails -/
  responses : List Response
  /-- the requests so far, last one first -/
  requests : List Request := []

namespace Content

def json (body : Json) : Content := ⟨"application/json", body⟩

def mergePatch (body : Json) : Content := ⟨"application/merge-patch+json", body⟩

end Content

namespace Response

/-- the server reports an error -/
def isError (r : Response) : Bool := 400 ≤ r.status && r.status < 600

end Response

namespace Connection

/-- a request is sent, and the answer comes if there is one -/
def exchange (r : Request) (c : Connection) : Option Response × Connection :=
  let requests := r :: c.requests
  match c.responses with
  | [] => (none, { c with requests })
  | response :: responses => (some response, { responses, requests })

end Connection

end ReleaseUpgrade
