import CorpusAgent.Json.Finite
import CorpusAgent.Json.Record
import CorpusAgent.Settings.Basic

/-!
# Settings from a tree of values

Settings are written as records of records.  A member with a default may be missing; a member
without one has to be there, and every member has to be of its type.  An integer counts as a 32-bit
number, but not the other way round.

Each decoder takes the dialect of the tree.  Steps are the same in all dialects.
-/

namespace CorpusAgent

open Json (Dialect Record record? listOf? caseName?)

namespace Json

def uint32? (v : Json) : Option UInt32 := (v.nat? (twoTo 32 - 1)).map Nat.toUInt32

def uint64? (v : Json) : Option UInt64 := (v.nat? (twoTo 64 - 1)).map Nat.toUInt64

/-- Members of any kind. -/
def freeMembers? : Json → Option (List (String × Json))
  | .object members => finiteMembers? members
  | _ => none

end Json

/-- A case of an enumeration. -/
def caseOf? {α : Type} (dialect : Dialect) (ofName? : String → Option α) (v : Json) : Option α :=
  (caseName? dialect v).bind ofName?

namespace Step

/-- A step on a metadata key. -/
def memberOf? (origin : Origin) (r : Record) : Option Step := do
  let key ← r.required "field_name" Json.text?
  pure (.member origin key)

/-- The content of a step of a kind. -/
def contentOf? (kind : String) (v : Json) : Option Step :=
  match Origin.ofName? kind with
  | some origin => (record? .json ["field_name"] v).bind (memberOf? origin)
  | none =>
    if kind = "constant" then do
      let r ← record? .json ["value", "values"] v
      let value ← r.maybe "value" Json.finite?
      let values ← r.maybe "values" (listOf? Json.finite?)
      pure (.constant value values)
    else none

/-- A record with its kind among the members, or a list that begins with it. -/
def ofKinded? : Json → Option Step
  | .object members => do
    let kind ← (Json.find? "kind" members).bind Json.text?
    contentOf? kind (.object members)
  | .list (first :: rest) => do
    let kind ← first.text?
    contentOf? kind (.list rest)
  | _ => none

/-- A step.  Every integer in it has to fit 64 bits, also one that is not asked for. -/
def ofJson? (v : Json) : Option Step :=
  (Json.finite? v).bind fun _ => ofKinded? v

end Step

def SourceRule.ofJson? (dialect : Dialect) (v : Json) : Option SourceRule := do
  let r ← record? dialect ["source_id", "chain"] v
  let sourceId ← r.required "source_id" Json.text?
  let chain ← r.required "chain" (listOf? Step.ofJson?)
  pure ⟨sourceId, chain⟩

def Field.ofJson? (dialect : Dialect) (v : Json) : Option Field := do
  let r ← record? dialect ["name", "description", "type", "sources", "wildcard"] v
  let name ← r.required "name" Json.text?
  let description ← r.optional "description" Json.text?
  let kind ← r.optional "type" (caseOf? dialect FieldKind.ofName?)
  let sources ← r.orElse "sources" [] (listOf? (SourceRule.ofJson? dialect))
  let wildcard ← r.optional "wildcard" (listOf? Step.ofJson?)
  pure ⟨name, description, kind, sources, wildcard⟩

def RunSettings.ofJson? (dialect : Dialect) (v : Json) : Option RunSettings := do
  let r ← record? dialect ["max_iterations", "response_mode", "max_sources"] v
  let default : RunSettings := {}
  let maxIterations ← r.orElse "max_iterations" default.maxIterations Json.uint32?
  let responseMode ← r.orElse "response_mode" default.responseMode
    (caseOf? dialect ResponseMode.ofName?)
  let maxSources ← r.orElse "max_sources" default.maxSources Json.uint32?
  pure ⟨maxIterations, responseMode, maxSources⟩

def ExitSettings.ofJson? (dialect : Dialect) (v : Json) : Option ExitSettings := do
  let r ← record? dialect ["enabled", "description"] v
  let enabled ← r.orElse "enabled" true Json.bool?
  let description ← r.maybe "description" Json.text?
  pure ⟨enabled, description⟩

def SimilaritySettings.ofJson? (dialect : Dialect) (v : Json) : Option SimilaritySettings := do
  let r ← record? dialect ["enabled", "description", "search_control", "limit",
    "score_threshold"] v
  let default : SimilaritySettings := {}
  let enabled ← r.orElse "enabled" default.enabled Json.bool?
  let description ← r.maybe "description" Json.text?
  let control ← r.orElse "search_control" default.searchControl
    (caseOf? dialect ControlMode.ofName?)
  let limit ← r.orElse "limit" default.limit Json.uint32?
  let threshold ← r.orElse "score_threshold" default.scoreThreshold Json.single?
  pure ⟨enabled, description, control, limit, threshold⟩

def MetadataSettings.ofJson? (dialect : Dialect) (v : Json) : Option MetadataSettings := do
  let r ← record? dialect ["enabled", "description", "control_mode", "merge_strategy"] v
  let default : MetadataSettings := {}
  let enabled ← r.orElse "enabled" default.enabled Json.bool?
  let description ← r.maybe "description" Json.text?
  let mode ← r.orElse "control_mode" default.controlMode (caseOf? dialect ControlMode.ofName?)
  let strategy ← r.orElse "merge_strategy" default.mergeStrategy
    (caseOf? dialect MergeStrategy.ofName?)
  pure ⟨enabled, description, mode, strategy⟩

def ToolSettings.ofJson? (dialect : Dialect) (v : Json) : Option ToolSettings := do
  let r ← record? dialect ["exit", "find_chunks_by_similarity",
    "find_documents_by_summary_similarity", "find_documents_by_metadata"] v
  let exit ← r.orElse "exit" {} (ExitSettings.ofJson? dialect)
  let chunks ← r.orElse "find_chunks_by_similarity" {} (SimilaritySettings.ofJson? dialect)
  let summaries ←
    r.orElse "find_documents_by_summary_similarity" {} (SimilaritySettings.ofJson? dialect)
  let metadata ← r.orElse "find_documents_by_metadata" {} (MetadataSettings.ofJson? dialect)
  pure ⟨exit, chunks, summaries, metadata⟩

def Corpus.ofJson? (dialect : Dialect) (v : Json) : Option Corpus := do
  let r ← record? dialect ["id", "embedding_model", "system_prompt", "retrieval", "tools",
    "fields"] v
  let id ← r.required "id" Json.text?
  let embeddingModel ← r.optional "embedding_model" Json.text?
  let systemPrompt ← r.optional "system_prompt" Json.text?
  let run ← r.orElse "retrieval" {} (RunSettings.ofJson? dialect)
  let tools ← r.orElse "tools" {} (ToolSettings.ofJson? dialect)
  let fields ← r.orElse "fields" [] (listOf? (Field.ofJson? dialect))
  pure ⟨id, embeddingModel, systemPrompt, run, tools, fields⟩

def ServiceSettings.ofJson? (dialect : Dialect) (v : Json) : Option ServiceSettings := do
  let r ← record? dialect ["http_bind", "log_level"] v
  let httpBind ← r.required "http_bind" Json.text?
  let logLevel ← r.required "log_level" Json.text?
  pure ⟨httpBind, logLevel⟩

def DatabaseSettings.ofJson? (dialect : Dialect) (v : Json) : Option DatabaseSettings := do
  let r ← record? dialect ["dsn", "pool_max_conns", "vector_dim"] v
  let dsn ← r.required "dsn" Json.text?
  let poolMaxConns ← r.required "pool_max_conns" Json.uint32?
  let vectorDim ← r.required "vector_dim" Json.uint32?
  pure ⟨dsn, poolMaxConns, vectorDim⟩

def EndpointSettings.ofRecord? (r : Record) : Option EndpointSettings := do
  let providerId ← r.required "provider_id" Json.text?
  let apiBase ← r.required "api_base" Json.text?
  let apiKey ← r.required "api_key" Json.text?
  let path ← r.required "path" Json.text?
  let model ← r.required "model" Json.text?
  let timeoutMs ← r.required "timeout_ms" Json.uint64?
  let defaultHeaders ← r.orElse "default_headers" [] Json.freeMembers?
  pure ⟨providerId, apiBase, apiKey, path, model, timeoutMs, defaultHeaders⟩

def EmbeddingSettings.ofJson? (dialect : Dialect) (v : Json) : Option EmbeddingSettings := do
  let r ← record? dialect ["provider_id", "api_base", "api_key", "path", "model", "dimensions",
    "timeout_ms", "default_headers"] v
  let endpoint ← EndpointSettings.ofRecord? r
  let dimensions ← r.required "dimensions" Json.uint32?
  pure ⟨endpoint, dimensions⟩

def CompletionSettings.ofJson? (dialect : Dialect) (v : Json) : Option CompletionSettings := do
  let r ← record? dialect ["provider_id", "api_base", "api_key", "path", "model", "temperature",
    "timeout_ms", "default_headers"] v
  let endpoint ← EndpointSettings.ofRecord? r
  let temperature ← r.required "temperature" Json.single?
  pure ⟨endpoint, temperature⟩

def Settings.ofJson? (dialect : Dialect) (v : Json) : Option Settings := do
  let r ← record? dialect ["service", "storage", "providers", "corpora"] v
  let service ← r.required "service" (ServiceSettings.ofJson? dialect)
  let storage ← r.required "storage" (record? dialect ["postgres"])
  let database ← storage.required "postgres" (DatabaseSettings.ofJson? dialect)
  let providers ← r.required "providers" (record? dialect ["embedding", "llm"])
  let embedding ← providers.required "embedding" (EmbeddingSettings.ofJson? dialect)
  let completion ← providers.required "llm" (CompletionSettings.ofJson? dialect)
  let corpora ← r.orElse "corpora" [] (listOf? (Corpus.ofJson? dialect))
  pure ⟨service, database, embedding, completion, corpora⟩

end CorpusAgent
