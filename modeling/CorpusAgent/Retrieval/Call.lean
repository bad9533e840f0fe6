import CorpusAgent.Chat.Completion
import CorpusAgent.Passage
import CorpusAgent.Retrieval.Error
import CorpusAgent.Storage.Statement

/-!
# Calls of collaborators

A run works with three collaborators: the model, the embedding of texts and the store of documents.
What they answer is not up to the run; it may depend on everything they have been asked so far.  So
a collaborator is a function of the history of calls and of the new call.
-/

namespace CorpusAgent.Retrieval

/-- A call of a collaborator. -/
inductive Call where
  | complete (transcript : List Message) (tools : List ToolSpec) (force : Bool)
  | embed (model : Option String) (texts : List String)
  | countDocuments (graph : String) (filter : Option Predicate)
  | searchDocuments (graph : String) (vector : List Single) (limit : Int)
  | searchChunks (query : Storage.ChunkQuery)

/-- The collaborators of a run.  Each answers a call after a history of calls, the earliest
first. -/
structure Collaborators where
  complete : List Call → List Message → List ToolSpec → Bool → Except ServiceError Completion
  embed : List Call → Option String → List String → Except ServiceError (List (List Single))
  countDocuments : List Call → String → Option Predicate → Except ServiceError Int
  searchDocuments : List Call → String → List Single → Int → Except ServiceError (List DocumentHit)
  searchChunks : List Call → Storage.ChunkQuery → Except ServiceError (List Passage)

end CorpusAgent.Retrieval
