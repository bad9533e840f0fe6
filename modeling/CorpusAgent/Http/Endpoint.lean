import CorpusAgent.Chat.Completion
import CorpusAgent.Embedding
import CorpusAgent.Http.Header
import CorpusAgent.Json.Draft

/-!
# Model endpoints

Completions and embeddings come from endpoints that take a JSON body by `POST` and answer with JSON.
The network itself is given as a function from requests to replies.

* `complete` and `embed` make one request each and read its answer.
-/

namespace CorpusAgent.Http

structure Request where
  url : String
  headers : List (String × String)
  body : Json

structure Reply where
  status : Nat
  body : String

/-- The way to the endpoints; without a reply an endpoint could not be reached in time. -/
abbrev Network := Request → Option Reply

/-- Why an endpoint gave no usable answer. -/
inductive EndpointError where
  | header (fault : HeaderFault)
  /-- There was no reply, or one that reports an error or is not JSON. -/
  | transport
  | completion (fault : CompletionFault)
  | embedding (fault : Embedding.Fault)
  deriving DecidableEq, Repr

def EndpointError.message : EndpointError → String
  | .header fault => fault.message
  | .transport => "the endpoint gave no usable reply"
  | .completion fault => fault.message
  | .embedding fault => fault.message

/-- The reply reports an error. -/
def Reply.isError (r : Reply) : Bool := 400 ≤ r.status && r.status < 600

def exchange (network : Network) (request : Request) : Except EndpointError Json :=
  match network request with
  | none => .error .transport
  | some reply =>
    if reply.isError then .error .transport
    else
      match Json.read? reply.body with
      | some answer => .ok answer
      | none => .error .transport

/-- The headers with the type of the body, unless they have one. -/
def withContentType (headers : List (String × String)) : List (String × String) :=
  if headers.any fun h => h.1 == "content-type" then headers
  else put "content-type" "application/json" headers

/-- Asks an endpoint. -/
def ask (network : Network) (s : EndpointSettings) (body : Json) : Except EndpointError Json :=
  match headers s.apiKey s.defaultHeaders with
  | .error fault => .error (.header fault)
  | .ok headers =>
    exchange network ⟨s.apiBase ++ s.path, withContentType headers, body⟩

/-- Asks a model for its next message. -/
def complete (network : Network) (s : CompletionSettings) (messages : List Message)
    (tools : List ToolSpec) (force : Bool) : Except EndpointError Completion := do
  let answer ← ask network s.toEndpointSettings (Completion.request s messages tools force)
  (Completion.decode answer).mapError .completion

def embed (network : Network) (s : EmbeddingSettings) (model : Option String)
    (texts : List String) : Except EndpointError (List (List Single)) := do
  let answer ← ask network s.toEndpointSettings (Embedding.request s model texts)
  (Embedding.decodeFor texts answer).mapError .embedding

end CorpusAgent.Http
