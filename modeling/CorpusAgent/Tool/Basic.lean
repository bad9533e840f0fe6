import CorpusAgent.Json.Basic

/-!
# Tools

A model works on a corpus by four tools.  It sees each as a name, a description and a schema of its
arguments.
-/

namespace CorpusAgent

inductive Tool where
  /-- Ends the run with an answer. -/
  | exit
  /-- Searches passages by similarity to a query. -/
  | chunks
  /-- Selects documents by the similarity of their summaries to a query. -/
  | summaries
  /-- Selects documents by a filter. -/
  | metadata
  deriving DecidableEq, Repr

namespace Tool

def all : List Tool := [.exit, .chunks, .summaries, .metadata]

def name : Tool → String
  | .exit => "exit"
  | .chunks => "findChunksBySimilarity"
  | .summaries => "findDocumentsBySummarySimilarity"
  | .metadata => "findDocumentsByMetadata"

def ofName? (name : String) : Option Tool := all.find? fun tool => tool.name == name

end Tool

structure ToolSpec where
  name : String
  description : String
  /-- The schema of the object of arguments. -/
  parameters : Json
  deriving Repr

def ToolSpec.wire (s : ToolSpec) : Json :=
  Json.ofMembers [("type", .text "function"),
    ("function", Json.ofMembers [("name", .text s.name), ("description", .text s.description),
      ("parameters", s.parameters)])]

end CorpusAgent
