import CorpusAgent.Json.Draft
import CorpusAgent.Retrieval.Service

/-!
# Bodies of retrieval requests

A body is JSON text.  It can fail to be JSON, or to be a request.  A body with several faults is
judged by the one that comes first in the text: what cannot be a request is noticed at once, broken
text only where it is reached.  Members that a request does not have only need to be in good form.

* `readRequest` gives the request of a body, or the fault.
-/

namespace CorpusAgent.Http

open Json (Draft)
open Retrieval (ChatMessage)

/-- Why a body is refused. -/
inductive BodyFault where
  /-- It is not JSON. -/
  | malformed
  /-- It is not a request. -/
  | unfit
  deriving DecidableEq, Repr

/-- A reader of drafts. -/
abbrev Reader (α : Type) := Draft → Except BodyFault α

/-- The fault of a value that is not of the expected type. -/
def mismatch : Draft → BodyFault
  | .broken => .malformed
  | .valueless => .malformed
  | _ => .unfit

def readText : Reader String
  | .text s => .ok s
  | d => .error (mismatch d)

/-- Any value within a request. -/
def readAny : Reader Json := fun d =>
  match d.json? (Json.maxDepth - 1) with
  | some v => .ok v
  | none => .error .malformed

/-- Any value; `null` counts as none. -/
def readOptional : Reader (Option Json)
  | .null => .ok none
  | d => (readAny d).map some

def namedRole (name : String) : Except BodyFault Role :=
  match Role.ofName? name with
  | some role => .ok role
  | none => .error .unfit

/-- A role: its name, or an object with the name as its only member and `null` as the value. -/
def readRole : Reader Role
  | .text name => namedRole name
  | .object ((.text name, value) :: rest) closed => do
    let role ← namedRole name
    match value with
    | .null => if closed && rest.isEmpty then .ok role else .error .malformed
    | d => .error (mismatch d)
  | .object ((name, _) :: _) _ => .error (mismatch name)
  | _ => .error .malformed

/-- The end of a list or object after what was expected in it. -/
def endsHere (closed : Bool) : Except BodyFault Unit :=
  if closed then .ok () else .error .malformed

/-- Items of the same kind. -/
def readItems {α : Type} (read : Reader α) : Reader (List α)
  | .list items closed => do
    let values ← items.mapM read
    endsHere closed
    pure values
  | d => .error (mismatch d)

/-- A list without the item that is due. -/
def itemMissing {α : Type} (closed : Bool) : Except BodyFault α :=
  .error (if closed then .unfit else .malformed)

/-- A member that may be given once. -/
def readOnce {α : Type} (found : Option α) (read : Reader α) (d : Draft) :
    Except BodyFault (Option α) :=
  match found with
  | some _ => .error .unfit
  | none => (read d).map some

/-- A member that has to be given. -/
def demand {α : Type} : Option α → Except BodyFault α
  | some a => .ok a
  | none => .error .unfit

/-- The members of a message that were found. -/
structure MessageParts where
  role : Option Role := none
  content : Option String := none

/-- One member of a message. -/
def MessageParts.add (p : MessageParts) : Draft × Draft → Except BodyFault MessageParts
  | (.text "role", d) => (readOnce p.role readRole d).map fun role => { p with role }
  | (.text "content", d) => (readOnce p.content readText d).map fun content => { p with content }
  | (.text _, _) => .ok p
  | _ => .error .malformed

/-- A message: an object, or a list of role and content. -/
def readMessage : Reader ChatMessage
  | .object members closed => do
    let p ← members.foldlM MessageParts.add {}
    endsHere closed
    pure ⟨← demand p.role, ← demand p.content⟩
  | .list [] closed => itemMissing closed
  | .list [role] closed => do
    let _ ← readRole role
    itemMissing closed
  | .list (role :: content :: rest) closed => do
    let role ← readRole role
    let content ← readText content
    endsHere (closed && rest.isEmpty)
    pure ⟨role, content⟩
  | d => .error (mismatch d)

/-- The members of a request that were found. -/
structure RequestParts where
  corpusId : Option String := none
  messages : Option (List ChatMessage) := none
  filter : Option (Option Json) := none

/-- One member of a request. -/
def RequestParts.add (p : RequestParts) : Draft × Draft → Except BodyFault RequestParts
  | (.text "corpus_id", d) =>
    (readOnce p.corpusId readText d).map fun corpusId => { p with corpusId }
  | (.text "messages", d) =>
    (readOnce p.messages (readItems readMessage) d).map fun messages => { p with messages }
  | (.text "filter", d) => (readOnce p.filter readOptional d).map fun filter => { p with filter }
  | (.text _, _) => .ok p
  | _ => .error .malformed

/-- A request: an object, or a list of corpus, messages and possibly a filter. -/
def readRequest : Reader Retrieval.Request
  | .object members closed => do
    let p ← members.foldlM RequestParts.add {}
    endsHere closed
    pure ⟨← demand p.corpusId, ← demand p.messages, p.filter.getD none⟩
  | .list [] closed => itemMissing closed
  | .list [corpusId] closed => do
    let _ ← readText corpusId
    itemMissing closed
  | .list (corpusId :: messages :: rest) closed => do
    let corpusId ← readText corpusId
    let messages ← readItems readMessage messages
    match rest with
    | [] =>
      endsHere closed
      pure ⟨corpusId, messages, none⟩
    | filter :: rest =>
      let filter ← readOptional filter
      endsHere (closed && rest.isEmpty)
      pure ⟨corpusId, messages, filter⟩
  | d => .error (mismatch d)

/-- The request of a body. -/
def requestOf (body : String) : Except BodyFault Retrieval.Request := do
  let (draft, ends) := Draft.read body
  let request ← readRequest draft
  if ends then pure request else .error .malformed

end CorpusAgent.Http
