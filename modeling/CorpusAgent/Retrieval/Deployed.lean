import CorpusAgent.Http.Endpoint
import CorpusAgent.Retrieval.Call
import CorpusAgent.Storage.Query

/-!
# Collaborators in operation

In operation the model and the embedding of texts are endpoints on a network, and the store of
documents is a database.  Their errors become errors of the service; a statement that cannot be
formed counts as an invalid request.
-/

namespace CorpusAgent.Retrieval

/-- An error of an endpoint. -/
def ServiceError.ofEndpoint (e : Http.EndpointError) : ServiceError := .provider e.message

/-- An error of a query. -/
def ServiceError.ofQuery : Storage.QueryError → ServiceError
  | .unbound fault => .invalidRequest fault.message
  | .database text => .storage (Storage.QueryError.database text).message

/-- The collaborators that settings, a network and a database make up. -/
def Collaborators.deployed (s : Settings) (network : Http.Network) (db : Storage.Database) :
    Collaborators where
  complete _ messages tools force :=
    (Http.complete network s.completion messages tools force).mapError .ofEndpoint
  embed _ model texts := (Http.embed network s.embedding model texts).mapError .ofEndpoint
  countDocuments _ graph filter := (Storage.count db graph filter).mapError .ofQuery
  searchDocuments _ graph vector limit :=
    (Storage.documents db graph vector limit).mapError .ofQuery
  searchChunks _ query := (Storage.passages db query).mapError .ofQuery

end CorpusAgent.Retrieval
