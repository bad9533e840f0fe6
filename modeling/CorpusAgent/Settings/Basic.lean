import CorpusAgent.Corpus

/-!
# Settings

The settings of the service: where it listens, its database, the providers of embeddings and
completions, and the corpora.
-/

namespace CorpusAgent

/-- Where the service listens and how much it logs. -/
structure ServiceSettings where
  httpBind : String
  logLevel : String

structure DatabaseSettings where
  dsn : String
  poolMaxConns : UInt32
  vectorDim : UInt32

/-- A model endpoint. -/
structure EndpointSettings where
  providerId : String
  apiBase : String
  apiKey : String
  path : String
  model : String
  timeoutMs : UInt64
  defaultHeaders : List (String × Json)

structure EmbeddingSettings extends EndpointSettings where
  dimensions : UInt32

structure CompletionSettings extends EndpointSettings where
  temperature : Single

structure Settings where
  service : ServiceSettings
  database : DatabaseSettings
  embedding : EmbeddingSettings
  completion : CompletionSettings
  corpora : List Corpus

def Settings.corpus? (s : Settings) (id : String) : Option Corpus :=
  s.corpora.find? fun c => c.id == id

end CorpusAgent
