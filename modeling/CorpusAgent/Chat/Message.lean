import CorpusAgent.Json.Basic

/-!
# Messages

A conversation with a model is a list of messages.  The model may answer with calls of tools; each
call gets its result in a message of its own, which carries the id of the call.

* `Message.wire` is the form in which a message is sent.
-/

namespace CorpusAgent

inductive Role where
  | system
  | user
  | assistant
  | tool
  deriving DecidableEq, Repr

def Role.name : Role → String
  | .system => "system"
  | .user => "user"
  | .assistant => "assistant"
  | .tool => "tool"

def Role.ofName? (name : String) : Option Role :=
  [.system, .user, .assistant, .tool].find? fun role => role.name == name

structure ToolCall where
  id : String
  name : String
  /-- The arguments as the model wrote them, JSON text if all is well. -/
  arguments : String
  deriving DecidableEq, Repr

inductive Message where
  | plain (role : Role) (content : String)
  /-- The model calls tools, possibly with some words. -/
  | calls (content : Option String) (calls : List ToolCall)
  /-- The result of a call. -/
  | result (callId : String) (content : String)
  deriving DecidableEq, Repr

def ToolCall.wire (c : ToolCall) : Json :=
  Json.ofMembers [("id", .text c.id), ("type", .text "function"),
    ("function", Json.ofMembers [("name", .text c.name), ("arguments", .text c.arguments)])]

namespace Message

def role : Message → Role
  | .plain role _ => role
  | .calls .. => .assistant
  | .result .. => .tool

def content : Message → Option String
  | .plain _ content => some content
  | .calls content _ => content
  | .result _ content => some content

/-- The members that only some messages have. -/
def ownMembers : Message → List (String × Json)
  | .plain _ _ => []
  | .calls _ requested =>
    if requested.isEmpty then [] else [("tool_calls", .list (requested.map ToolCall.wire))]
  | .result id _ => [("tool_call_id", .text id)]

def wire (m : Message) : Json :=
  Json.ofMembers ([("role", .text m.role.name), ("content", Json.ofText? m.content)] ++
    m.ownMembers)

end Message

end CorpusAgent
