import CorpusAgent.Settings.Basic
import CorpusAgent.Text.Blank
import CorpusAgent.Text.Quoted

/-!
# Faults in settings

Settings can be of the right types and still be useless: an id that is blank or used twice, a search
that may not return anything, a chain of steps without a step.  `Settings.fault?` finds the first
such fault; without one the settings are valid.
-/

namespace CorpusAgent

open Text (isBlank)

inductive ChainFault where
  | noSteps
  | constantWithoutValue
  | blankKey
  deriving DecidableEq, Repr

inductive CorpusFault where
  | noIterations
  | noSources
  | noLimit (tool : String)
  | thresholdNotFinite (tool : String)
  | thresholdOutOfRange (tool : String)
  | blankFieldName
  | repeatedField (name : String)
  | blankSourceId (field : String)
  | chain (field : String) (fault : ChainFault)
  deriving DecidableEq, Repr

inductive SettingsFault where
  | blankBind
  | noDimensions
  | dimensionsDiffer
  | badTemperature
  | blankApiKey (provider : String)
  | blankCorpusId
  | repeatedCorpus (id : String)
  | corpus (id : String) (fault : CorpusFault)
  deriving DecidableEq, Repr

def ChainFault.message : ChainFault → String
  | .noSteps => "resolution chains must be non-empty."
  | .constantWithoutValue => "constant steps need value or values."
  | .blankKey => "chain field_name must be non-empty."

def CorpusFault.message : CorpusFault → String
  | .noIterations => ".retrieval.max_iterations must be greater than zero."
  | .noSources =>
    ".retrieval.max_sources must be greater than zero unless response_mode is answer_only."
  | .noLimit tool => ".tools." ++ tool ++ ".limit must be greater than zero."
  | .thresholdNotFinite tool => ".tools." ++ tool ++ ".score_threshold must be a finite number."
  | .thresholdOutOfRange tool =>
    ".tools." ++ tool ++ ".score_threshold must be in the range -1.0-1.0."
  | .blankFieldName => ".fields.name must be non-empty."
  | .repeatedField name => ".fields.name " ++ Text.quoted name ++ " is declared more than once."
  | .blankSourceId field => ".fields[" ++ field ++ "].sources.source_id must be non-empty."
  | .chain field fault => ".fields[" ++ field ++ "] " ++ fault.message

def SettingsFault.message : SettingsFault → String
  | .blankBind => "service.http_bind must be non-empty."
  | .noDimensions => "providers.embedding.dimensions must be greater than zero."
  | .dimensionsDiffer =>
    "providers.embedding.dimensions must match storage.postgres.vector_dim."
  | .badTemperature => "providers.llm.temperature must be a finite number, zero or greater."
  | .blankApiKey provider => "Provider " ++ provider ++ " api_key must be non-empty."
  | .blankCorpusId => "corpora.id must be non-empty."
  | .repeatedCorpus id => "corpora.id " ++ Text.quoted id ++ " is declared more than once."
  | .corpus id fault => "corpora[" ++ id ++ "]" ++ fault.message

/-- A fault if the condition holds. -/
def faultIf {α : Type} (condition : Bool) (fault : α) : Option α :=
  if condition then some fault else none

def Step.fault? : Step → Option ChainFault
  | .constant none none => some .constantWithoutValue
  | .constant _ _ => none
  | .member _ key => faultIf (isBlank key) .blankKey

/-- The first fault of a chain. -/
def chainFault? (chain : List Step) : Option ChainFault :=
  faultIf chain.isEmpty .noSteps <|> chain.findSome? Step.fault?

def SourceRule.fault? (field : String) (rule : SourceRule) : Option CorpusFault :=
  faultIf (isBlank rule.sourceId) (.blankSourceId field) <|>
    (chainFault? rule.chain).map (.chain field)

def Field.fault? (f : Field) : Option CorpusFault :=
  f.sources.findSome? (SourceRule.fault? f.name) <|>
    (f.wildcard.bind chainFault?).map (.chain f.name)

/-- The first fault of a list of fields, where the given names are taken. -/
def fieldsFault? (taken : List String) : List Field → Option CorpusFault
  | [] => none
  | f :: rest =>
    faultIf (isBlank f.name) .blankFieldName <|>
      faultIf (taken.contains f.name) (.repeatedField f.name) <|>
      f.fault? <|> fieldsFault? (f.name :: taken) rest

/-- The threshold lies between -1 and 1. -/
def isSimilarity (threshold : Single) : Bool :=
  threshold.isAtLeast (Binary.ofInt .single (-1)) && (Binary.ofInt .single 1).isAtLeast threshold

def SimilaritySettings.fault? (tool : String) (s : SimilaritySettings) : Option CorpusFault :=
  faultIf (s.limit = 0) (.noLimit tool) <|>
    faultIf (!s.scoreThreshold.isFinite) (.thresholdNotFinite tool) <|>
    faultIf (!isSimilarity s.scoreThreshold) (.thresholdOutOfRange tool)

def Corpus.fault? (c : Corpus) : Option CorpusFault :=
  faultIf (c.run.maxIterations = 0) .noIterations <|>
    faultIf (c.run.maxSources = 0 && c.run.responseMode.includesSources) .noSources <|>
    c.tools.chunks.fault? "find_chunks_by_similarity" <|>
    c.tools.summaries.fault? "find_documents_by_summary_similarity" <|>
    fieldsFault? [] c.fields

/-- The first fault of a list of corpora, where the given ids are taken. -/
def corporaFault? (taken : List String) : List Corpus → Option SettingsFault
  | [] => none
  | c :: rest =>
    faultIf (isBlank c.id) .blankCorpusId <|>
      faultIf (taken.contains c.id) (.repeatedCorpus c.id) <|>
      c.fault?.map (.corpus c.id) <|> corporaFault? (c.id :: taken) rest

/-- The temperature is a finite number that is not negative. -/
def isTemperature (t : Single) : Bool := t.isFinite && !t.isBelow (.zero false)

def Settings.fault? (s : Settings) : Option SettingsFault :=
  faultIf (isBlank s.service.httpBind) .blankBind <|>
    faultIf (s.embedding.dimensions = 0) .noDimensions <|>
    faultIf (s.embedding.dimensions ≠ s.database.vectorDim) .dimensionsDiffer <|>
    faultIf (!isTemperature s.completion.temperature) .badTemperature <|>
    faultIf (isBlank s.embedding.apiKey) (.blankApiKey "embedding") <|>
    faultIf (isBlank s.completion.apiKey) (.blankApiKey "llm") <|>
    corporaFault? [] s.corpora

end CorpusAgent
