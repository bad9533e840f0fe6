import CorpusAgent.Retrieval.Call

/-!
# The state of a run

A run gathers the calls of its collaborators, the transcript, the restrictions of searches, the
passages found and the records of completed tool calls.  A failure ends the run, but what was
gathered before stays.
-/

namespace CorpusAgent.Retrieval

/-- What a run has gathered. -/
structure RunState where
  /-- The calls of collaborators so far. -/
  calls : List Call := []
  transcript : List Message
  /-- The documents found by summaries, if there was such a search. -/
  documents : Option (List Uuid) := none
  /-- The predicate of the search by metadata, if there was one. -/
  filter : Option Predicate := none
  passages : List Passage := []
  workflow : List Record := []

/-- A part of a run; what was gathered before a failure stays. -/
abbrev RunM := ExceptT ServiceError (StateM RunState)

/-- Asks a collaborator; the call goes into the history. -/
def ask {α : Type} (call : Call) (reply : List Call → Except ServiceError α) : RunM α :=
  ExceptT.mk fun s => (reply s.calls, { s with calls := s.calls ++ [call] })

@[simp] theorem run_ask {α : Type} (call : Call) (reply : List Call → Except ServiceError α)
    (s : RunState) :
    (ask call reply).run.run s = (reply s.calls, { s with calls := s.calls ++ [call] }) := rfl

/-- Adds a message to the transcript. -/
def say (message : Message) : RunM Unit :=
  modify fun s => { s with transcript := s.transcript ++ [message] }

@[simp] theorem run_say (message : Message) (s : RunState) :
    (say message).run.run s = (.ok (), { s with transcript := s.transcript ++ [message] }) := rfl

/-- A rule of tool calls that holds, or the failure. -/
def obeyed {α : Type} : Except ProtocolFault α → RunM α
  | .ok a => pure a
  | .error fault => throw fault.error

@[simp] theorem run_obeyed_ok {α : Type} (a : α) (s : RunState) :
    (obeyed (.ok a)).run.run s = (.ok a, s) := rfl

@[simp] theorem run_obeyed_error {α : Type} (fault : ProtocolFault) (s : RunState) :
    (obeyed (.error fault) : RunM α).run.run s = (.error fault.error, s) := rfl

end CorpusAgent.Retrieval
