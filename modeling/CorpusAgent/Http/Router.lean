import CorpusAgent.Http.Body
import CorpusAgent.Http.MediaType

/-!
# The HTTP interface

There are two routes: `GET /health` answers that the service is up, and `POST /v1/retrieve` serves a
retrieval request.

* A path that does not exist, a method that a path does not have, a body that is not declared as
  JSON, one that is too long and one that is no request are refused in this order.
* A failed run is reported without any details.
-/

namespace CorpusAgent.Http

open Retrieval (Collaborators Outcome ServiceError)

structure Inquiry where
  method : String
  /-- The path, possibly with scheme and host in front and a query behind. -/
  target : String
  contentType : Option String
  body : String

structure Answer where
  status : Nat
  body : Option Json
  /-- How often collaborators were called for it. -/
  calls : Nat

/-- What a path stands for. -/
inductive Route where
  | health
  | retrieve
  deriving DecidableEq, Repr

/-- The character ends the host of a target. -/
def endsHost (c : Char) : Bool := c = '/' || c = '?' || c = '#'

/-- A target without its scheme and host, if it has them. -/
def withoutHost (cs : List Char) : List Char :=
  match cs.dropWhile fun c => c ≠ ':' && !endsHost c with
  | ':' :: '/' :: '/' :: rest => rest.dropWhile fun c => !endsHost c
  | _ => cs

/-- The route of a target; what follows a question mark or a hash sign does not count. -/
def Route.ofTarget? (target : String) : Option Route :=
  let path := String.ofList ((withoutHost target.toList).takeWhile fun c => c ≠ '?' && c ≠ '#')
  if path = "/health" then some .health
  else if path = "/v1/retrieve" then some .retrieve
  else none

def Route.methods : Route → List String
  | .health => ["GET", "HEAD"]
  | .retrieve => ["POST"]

def bare (status : Nat) : Answer := ⟨status, none, 0⟩

def BodyFault.status : BodyFault → Nat
  | .malformed => 400
  | .unfit => 422

/-- Status, code and message by which an error is reported. -/
def report : ServiceError → Nat × String × String
  | .invalidRequest text => (400, "invalid_request", text)
  | .notFound text => (404, "not_found", text)
  | .runFailed _ _ => (502, "retrieval_failed", "The retrieval run failed. Please try again.")
  | _ => (502, "upstream_error", "An upstream dependency failed.")

def resultJson (r : Retrieval.Result) : Json :=
  Json.ofMembers [("content", .text r.content),
    ("sources", .list (r.sources.map (Passage.json Json.ofShortest))),
    ("workflow", .list (r.workflow.map Retrieval.Record.json))]

def Answer.ofOutcome (o : Outcome) : Answer :=
  match o.result with
  | .ok result => ⟨200, some (resultJson result), o.calls.length⟩
  | .error e =>
    let (status, code, message) := report e
    ⟨status, some (Json.ofMembers [("error_code", .text code), ("message", .text message)]),
      o.calls.length⟩

def maxBodySize : Nat := 2097152

/-- Serves a retrieval request. -/
def serveRetrieval (corpora : List Corpus) (collaborators : Collaborators) (q : Inquiry) : Answer :=
  if !q.contentType.any MediaType.isJson then bare 415
  else if maxBodySize < q.body.utf8ByteSize then bare 413
  else
    match requestOf q.body with
    | .ok request => .ofOutcome (Retrieval.retrieve corpora collaborators request)
    | .error fault => bare fault.status

/-- Serves a request. -/
def serve (corpora : List Corpus) (collaborators : Collaborators) (q : Inquiry) : Answer :=
  match Route.ofTarget? q.target with
  | none => bare 404
  | some route =>
    if route.methods.contains q.method then
      match route with
      | .health => bare 200
      | .retrieve => serveRetrieval corpora collaborators q
    else bare 405

end CorpusAgent.Http
