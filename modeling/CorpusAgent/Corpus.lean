import CorpusAgent.Catalog
import CorpusAgent.Control

/-!
# Corpora

A corpus is a searchable body of documents with its own settings: how long a run may take and what
it answers with, which tools the model gets, and the field catalog.
-/

namespace CorpusAgent

/-- What a run answers with. -/
inductive ResponseMode where
  | answerAndSources
  | answerOnly
  | sourcesOnly
  deriving DecidableEq, Repr

namespace ResponseMode

def name : ResponseMode → String
  | .answerAndSources => "answer_and_sources"
  | .answerOnly => "answer_only"
  | .sourcesOnly => "sources_only"

def ofName? (name : String) : Option ResponseMode :=
  [.answerAndSources, .answerOnly, .sourcesOnly].find? fun mode => mode.name == name

def includesAnswer : ResponseMode → Bool
  | .sourcesOnly => false
  | _ => true

def includesSources : ResponseMode → Bool
  | .answerOnly => false
  | _ => true

end ResponseMode

structure RunSettings where
  maxIterations : UInt32 := 5
  responseMode : ResponseMode := .answerAndSources
  maxSources : UInt32 := 5

structure ExitSettings where
  enabled : Bool := true
  description : Option String := none

/-- A search by similarity.  The model chooses limit and threshold only under its own control. -/
structure SimilaritySettings where
  enabled : Bool := true
  description : Option String := none
  searchControl : ControlMode := .external
  limit : UInt32 := 10
  scoreThreshold : Single := .zero false

structure MetadataSettings where
  enabled : Bool := true
  description : Option String := none
  controlMode : ControlMode := .agent
  mergeStrategy : MergeStrategy := .mergeAnd

structure ToolSettings where
  exit : ExitSettings := {}
  chunks : SimilaritySettings := {}
  summaries : SimilaritySettings := {}
  metadata : MetadataSettings := {}

/-- A searchable body of documents.  Its id is also the id of its documents' graph. -/
structure Corpus where
  id : String
  /-- Used in place of the general embedding model. -/
  embeddingModel : Option String
  systemPrompt : Option String
  run : RunSettings
  tools : ToolSettings
  fields : List Field

namespace Corpus

def field? (c : Corpus) (name : String) : Option Field := Field.find? c.fields name

/-- The catalog as the model sees it: names, kinds and descriptions. -/
def fieldSchema (c : Corpus) : Json :=
  .object [("fields", .list (c.fields.map fun f => Json.ofMembers
    ([("name", .text f.name)] ++
      (match f.kind with
        | some kind => [("type", .text kind.name)]
        | none => []) ++
      (match f.description with
        | some description => [("description", .text description)]
        | none => []))))]

end Corpus

end CorpusAgent
