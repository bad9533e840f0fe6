import CorpusAgent.Json.Basic
import CorpusAgent.Text.Quoted
import CorpusAgent.Tool.Basic

/-!
# Records and errors of retrieval

A run keeps a record of every tool call that it completed.  A run that fails hands over the records
up to the failure.

The collaborators of a run fail with errors of the same kinds as the run itself.
-/

namespace CorpusAgent.Retrieval

structure Record where
  /-- The number of the completion that asked for the call, from 1 on. -/
  iteration : Nat
  tool : Tool
  arguments : List (String × Json)
  /-- What the call came to. -/
  summary : Json
  deriving Repr

def Record.json (r : Record) : Json :=
  Json.ofMembers [("iteration", Json.ofNat r.iteration), ("tool", .text r.tool.name),
    ("arguments", .object r.arguments), ("summary", r.summary)]

/-- Why there is no result. -/
inductive ServiceError where
  | invalidRequest (text : String)
  | notFound (text : String)
  | protocol (text : String)
  | provider (text : String)
  | storage (text : String)
  | runFailed (text : String) (workflow : List Record)
  deriving Repr

def ServiceError.message : ServiceError → String
  | .invalidRequest text => "Invalid request: " ++ text
  | .notFound text => "Not found: " ++ text
  | .protocol text => "Protocol violation: " ++ text
  | .provider text => "Provider error: " ++ text
  | .storage text => "Storage error: " ++ text
  | .runFailed text _ => "Retrieval run failed: " ++ text

/-- How a model breaks the rules of tool calls. -/
inductive ProtocolFault where
  | unknownTool (name : String)
  | argumentsNotObject (name : String)
  /-- The message does not go into what is wrong with the text. -/
  | argumentsNotJson (name : String)
  | missingText (tool : Tool) (argument : String)
  deriving DecidableEq, Repr

def ProtocolFault.message : ProtocolFault → String
  | .unknownTool name => "Model called unknown tool " ++ Text.quoted name ++ "."
  | .argumentsNotObject name =>
    "Arguments of tool " ++ Text.quoted name ++ " must be a JSON object."
  | .argumentsNotJson name => "Arguments of tool " ++ Text.quoted name ++ " are not valid JSON"
  | .missingText tool argument => "Tool " ++ tool.name ++ " requires a string " ++
      Text.quoted argument ++ " argument."

def ProtocolFault.error (fault : ProtocolFault) : ServiceError := .protocol fault.message

/-- Why a request is refused before anything is done for it. -/
inductive RequestFault where
  | noMessages
  | toolMessage
  deriving DecidableEq, Repr

def RequestFault.message : RequestFault → String
  | .noMessages => "messages must be non-empty."
  | .toolMessage => "messages may not contain tool results."

def RequestFault.error (fault : RequestFault) : ServiceError := .invalidRequest fault.message

end CorpusAgent.Retrieval
