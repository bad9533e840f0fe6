import CorpusAgent.Chat.Message
import CorpusAgent.Json.Printer
import CorpusAgent.Settings.Basic
import CorpusAgent.Text.Blank
import CorpusAgent.Tool.Basic

/-!
# Completions

A completion is the model's next message: words, calls of tools, or both.

* `Completion.request` is what the model is asked with.
* `Completion.decode` reads its answer; blank words count as none.
-/

namespace CorpusAgent

structure Completion where
  content : Option String
  calls : List ToolCall
  deriving DecidableEq, Repr

inductive CompletionFault where
  | noMessage
  | noCallId
  | noFunction (callId : String)
  | noFunctionName (callId : String)
  deriving DecidableEq, Repr

def CompletionFault.message : CompletionFault → String
  | .noMessage => "Completion response is missing choices[0].message."
  | .noCallId => "Tool call is missing id."
  | .noFunction id => "Tool call " ++ id ++ " is missing function."
  | .noFunctionName id => "Tool call " ++ id ++ " is missing function.name."

/-- The text of an optional member. -/
def Json.memberText? (name : String) (v : Json) : Option String := (v.member? name).bind text?

/-- A call of a tool.  Arguments may also be a value instead of its text. -/
def ToolCall.decode (v : Json) : Except CompletionFault ToolCall :=
  match v.memberText? "id" with
  | none => .error .noCallId
  | some id =>
    match v.member? "function" with
    | none => .error (.noFunction id)
    | some function =>
      match function.memberText? "name" with
      | none => .error (.noFunctionName id)
      | some name => .ok ⟨id, name,
          match function.member? "arguments" with
          | some (.text raw) => raw
          | none => "\x7b\x7d"
          | some .null => "\x7b\x7d"
          | some value => value.print⟩

namespace Completion

def firstMessage? (answer : Json) : Option Json := do
  let choices ← (answer.member? "choices").bind Json.list?
  (← choices.head?).member? "message"

def decode (answer : Json) : Except CompletionFault Completion :=
  match firstMessage? answer with
  | none => .error .noMessage
  | some message => do
    let calls := ((message.member? "tool_calls").bind Json.list?).getD []
    let calls ← calls.mapM ToolCall.decode
    pure ⟨(message.memberText? "content").filter fun s => !Text.isBlank s, calls⟩

/-- The members about tools; without tools there are none. -/
def toolMembers (tools : List ToolSpec) (force : Bool) : List (String × Json) :=
  if tools.isEmpty then []
  else [("tools", .list (tools.map ToolSpec.wire)),
    ("tool_choice", .text (if force then "required" else "auto"))]

/-- What a model is asked with.  A forced model has to call a tool if there is one. -/
def request (s : CompletionSettings) (messages : List Message) (tools : List ToolSpec)
    (force : Bool) : Json :=
  Json.ofMembers ([("model", .text s.model), ("temperature", Json.ofSingle s.temperature),
    ("messages", .list (messages.map Message.wire))] ++ toolMembers tools force)

end Completion

end CorpusAgent
