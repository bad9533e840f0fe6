import CorpusAgent.Filter.Merge
import CorpusAgent.Retrieval.Arguments
import CorpusAgent.Retrieval.State

/-!
# Tool calls within a run

Document searches restrict the passages that later searches can find: a search by summaries to the
documents found, a search by metadata to the documents that satisfy its predicate.  The most recent
restriction of either kind counts.  The model learns of a document search only how many documents it
found.
-/

namespace CorpusAgent.Retrieval

/-- What does not change during a run. -/
structure Setting where
  corpus : Corpus
  /-- The caller's filter. -/
  callerFilter : Option Filter
  collaborators : Collaborators

/-- What a tool call leads to. -/
inductive Step where
  /-- The result for the model and the summary for the record. -/
  | result (result summary : Json)
  /-- The answer that ends the run. -/
  | answer (answer : String)

/-- The summary of a step. -/
def Step.summary : Step → Json
  | .result _ summary => summary
  | .answer _ => .object [("exited", .bool true)]

/-- The step of a search of passages within the restrictions of a state. -/
def Step.chunks (limit : Int) (threshold : Single) (s : RunState) (found : List Passage) : Step :=
  .result
    (.object [("chunks", .list (found.map (Passage.json Json.ofSingle)))])
    (Json.ofMembers [("chunks", Json.ofNat found.length), ("limit", .number (.integer limit)),
      ("scoreThreshold", Json.ofSingle threshold),
      ("restrictedToDocuments",
        match s.documents with
        | some ids => Json.ofNat ids.length
        | none => .null),
      ("metadataFilter", .bool s.filter.isSome)])

/-- The step of a search of documents by summaries. -/
def Step.summaries (limit : Int) (threshold : Single) (found : List Uuid) : Step :=
  .result
    (.object [("matchedDocuments", Json.ofNat found.length)])
    (Json.ofMembers [("matchedDocuments", Json.ofNat found.length),
      ("limit", .number (.integer limit)), ("scoreThreshold", Json.ofSingle threshold)])

/-- The step of a search of documents by metadata. -/
def Step.metadata (count : Int) (filter : Json) : Step :=
  .result
    (.object [("matchedDocuments", .number (.integer count))])
    (Json.ofMembers [("matchedDocuments", .number (.integer count)), ("filter", filter)])

namespace Setting

def embed (env : Setting) (query : String) : RunM (List Single) := do
  let model := env.corpus.embeddingModel
  let vectors ← ask (.embed model [query]) fun history =>
    env.collaborators.embed history model [query]
  match vectors with
  | vector :: _ => pure vector
  | [] => throw (.provider "Embedding provider returned no vectors.")

/-- Searches passages within the restrictions. -/
def findChunks (env : Setting) (args : Arguments) : RunM Step := do
  let query ← obeyed (requiredText .chunks "query" args)
  let (limit, threshold) := limitAndThreshold env.corpus.tools.chunks args
  let vector ← env.embed query
  let s ← get
  let search : Storage.ChunkQuery := ⟨env.corpus.id, vector, limit, s.documents, s.filter⟩
  let hits ← ask (.searchChunks search) fun history =>
    env.collaborators.searchChunks history search
  let found := hits.filter fun hit => hit.score.isAtLeast threshold
  modify fun s => { s with passages := s.passages ++ found }
  pure (.chunks limit threshold s found)

/-- Restricts later searches to documents with similar summaries. -/
def findBySummary (env : Setting) (args : Arguments) : RunM Step := do
  let query ← obeyed (requiredText .summaries "query" args)
  let (limit, threshold) := limitAndThreshold env.corpus.tools.summaries args
  let vector ← env.embed query
  let hits ← ask (.searchDocuments env.corpus.id vector limit) fun history =>
    env.collaborators.searchDocuments history env.corpus.id vector limit
  let found := (hits.filter fun hit => hit.score.isAtLeast threshold).map DocumentHit.id
  modify fun s => { s with documents := some found }
  pure (.summaries limit threshold found)

/-- The filter of a search by metadata: the model's and the caller's together. -/
def effectiveFilter (env : Setting) (args : Arguments) : Option Filter :=
  let settings := env.corpus.tools.metadata
  Filter.merge (lenientFilter (Json.find? "filter" args)) env.callerFilter settings.controlMode
    settings.mergeStrategy

/-- Restricts later searches to documents that satisfy a filter.  Without one nothing happens. -/
def findByMetadata (env : Setting) (args : Arguments) : RunM Step :=
  match env.effectiveFilter args with
  | none => pure (.metadata 0 .null)
  | some filter => do
    let predicate := filter.compile env.corpus.fields
    let count ← ask (.countDocuments env.corpus.id (some predicate)) fun history =>
      env.collaborators.countDocuments history env.corpus.id (some predicate)
    modify fun s => { s with filter := if predicate.isEmpty then none else some predicate }
    pure (.metadata count filter.toJson)

def perform (env : Setting) (tool : Tool) (args : Arguments) : RunM Step :=
  match tool with
  | .exit => do pure (.answer (← obeyed (requiredText .exit "answer" args)))
  | .chunks => env.findChunks args
  | .summaries => env.findBySummary args
  | .metadata => env.findByMetadata args

/-- Carries out a call of a tool and records it. -/
def call (env : Setting) (iteration : Nat) (tool : Tool) (request : ToolCall) : RunM Step := do
  let args ← obeyed (arguments request)
  let step ← env.perform tool args
  modify fun s => { s with workflow := s.workflow ++ [⟨iteration, tool, args, step.summary⟩] }
  pure step

end Setting

end CorpusAgent.Retrieval
