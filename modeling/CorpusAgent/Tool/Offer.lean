import CorpusAgent.Corpus
import CorpusAgent.Json.Printer
import CorpusAgent.Number.Layout
import CorpusAgent.Tool.Basic

/-!
# The tools that a corpus offers

Every enabled tool of a corpus is offered.  The settings decide which arguments the model may give:
limit and threshold of a search only if the model controls it, a filter only if the model has a say
in it.

* `Corpus.offer` lists the specifications in the order of `Tool.all`.
-/

namespace CorpusAgent

namespace Tool

def defaultDescription : Tool → String
  | .exit =>
    "Finish the run. Call this once the collected context is enough to answer the user, or when " ++
      "it is clear the corpus does not contain the answer."
  | .chunks =>
    "Search the corpus for passages semantically similar to the query and return them. Results " ++
      "are restricted to the documents selected by earlier document searches, if any."
  | .summaries =>
    "Select documents whose summary is semantically similar to the query. Returns only how many " ++
      "documents matched; later passage searches are restricted to them."
  | .metadata =>
    "Select documents by metadata. Returns only how many documents matched; later passage " ++
      "searches are restricted to them."

/-- The grammar of filters, as told to the model. -/
def filterDescription : String :=
  "JSON-encoded filter expression. Grammar: \x7b\"and\":[...]\x7d, \x7b\"or\":[...]\x7d, " ++
    "\x7b\"not\":expr\x7d, \x7b\"field\":name,\"op\":op,\"value\"|\"values\":...\x7d or " ++
    "\x7b\"path\":[origin,key],\"op\":op,\"value\"|\"values\":...\x7d where origin is file, " ++
    "source or llm and op is one of eq, ne, in, contains, like, exists, not_exists, " ++
    "not_contains. A bare array means and."

structure Argument where
  name : String
  type : String
  description : String
  required : Bool := true

/-- The schema of the object of arguments. -/
def parameters (arguments : List Argument) : Json :=
  Json.ofMembers [
    ("type", .text "object"),
    ("properties", Json.ofMembers (arguments.map fun a => (a.name,
      Json.ofMembers [("type", .text a.type), ("description", .text a.description)]))),
    ("required", Json.ofTexts ((arguments.filter Argument.required).map Argument.name)),
    ("additionalProperties", .bool false)]

def exitArguments : List Argument :=
  [⟨"reasoning", "string", "Why the run can end now.", true⟩,
    ⟨"answer", "string", "The final answer for the user.", true⟩]

/-- The arguments by which the model controls a search. -/
def knobs (s : SimilaritySettings) : List Argument :=
  [⟨"limit", "integer",
      "Maximum number of results. Defaults to " ++ toString s.limit.toNat ++ ".", false⟩,
    ⟨"scoreThreshold", "number", "Minimum similarity score in the range -1 to 1. Defaults to " ++
      s.scoreThreshold.text .plain ++ ".", false⟩]

/-- The arguments of a search by similarity. -/
def similarityArguments (s : SimilaritySettings) : List Argument :=
  [⟨"reasoning", "string", "Why this search helps answer the user.", true⟩,
    ⟨"query", "string", "Natural-language search text.", true⟩] ++
    (if s.searchControl = .agent then knobs s else [])

/-- The arguments of the search by metadata. -/
def metadataArguments (mode : ControlMode) : List Argument :=
  ⟨"reasoning", "string", "Why these documents are needed.", true⟩ ::
    match mode with
    | .agent => [⟨"filter", "string", filterDescription, true⟩]
    | .collaborative => [⟨"filter", "string", filterDescription, false⟩]
    | .external => []

/-- The arguments of a tool under the settings of a corpus. -/
def arguments (settings : ToolSettings) : Tool → List Argument
  | .exit => exitArguments
  | .chunks => similarityArguments settings.chunks
  | .summaries => similarityArguments settings.summaries
  | .metadata => metadataArguments settings.metadata.controlMode

def isEnabled (settings : ToolSettings) : Tool → Bool
  | .exit => settings.exit.enabled
  | .chunks => settings.chunks.enabled
  | .summaries => settings.summaries.enabled
  | .metadata => settings.metadata.enabled

def ownDescription (settings : ToolSettings) : Tool → Option String
  | .exit => settings.exit.description
  | .chunks => settings.chunks.description
  | .summaries => settings.summaries.description
  | .metadata => settings.metadata.description

end Tool

namespace Corpus

/-- The description of a tool.  The one of the search by metadata also lists the fields. -/
def toolDescription (c : Corpus) (tool : Tool) : String :=
  let base := (tool.ownDescription c.tools).getD tool.defaultDescription
  match tool with
  | .metadata => base ++ "\n\nAvailable fields: " ++ c.fieldSchema.print
  | _ => base

/-- A tool of the corpus as the model sees it. -/
def toolSpec (c : Corpus) (tool : Tool) : ToolSpec :=
  ⟨tool.name, c.toolDescription tool, Tool.parameters (tool.arguments c.tools)⟩

/-- The enabled tools as the model sees them. -/
def offer (c : Corpus) : List ToolSpec :=
  (Tool.all.filter (Tool.isEnabled c.tools)).map c.toolSpec

end Corpus

end CorpusAgent
