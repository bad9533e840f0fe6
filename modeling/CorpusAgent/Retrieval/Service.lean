import CorpusAgent.Retrieval.Run

/-!
# The retrieval service

A request names a corpus and brings a conversation and possibly a filter.  The service carries out a
run on the corpus and gives its answer, the best passages found and the records of the tool calls.

* A request for a corpus that does not exist, without messages or with a tool message is refused
  before any collaborator is called.
* Every failure of the run is wrapped exactly once, whatever its kind.
-/

namespace CorpusAgent.Retrieval

/-- A message of the conversation that a request brings. -/
structure ChatMessage where
  role : Role
  content : String
  deriving DecidableEq, Repr

structure Request where
  corpusId : String
  /-- The conversation so far, the earliest message first. -/
  messages : List ChatMessage
  /-- The caller's filter, as a tree or as its text. -/
  filter : Option Json

structure Result where
  content : String
  sources : List Passage
  workflow : List Record

/-- The system prompt of corpora without one. -/
def defaultPrompt : String :=
  "You answer questions using a document corpus that you can only reach through the provided " ++
    "tools. Narrow down relevant documents by metadata or summary similarity when that helps, " ++
    "fetch passages with chunk similarity search, and call exit with an answer grounded in the " ++
    "passages you found. Say so when the corpus does not contain the answer."

/-- The transcript at the beginning of a run: the system prompt and the conversation. -/
def opening (c : Corpus) (messages : List ChatMessage) : Except RequestFault (List Message) :=
  if messages.isEmpty then .error .noMessages
  else if messages.any fun m => m.role = .tool then .error .toolMessage
  else .ok (.plain .system (c.systemPrompt.getD defaultPrompt) ::
    messages.map fun m => .plain m.role m.content)

/-- The result of a run that ended with an answer. -/
def result (c : Corpus) (answer : String) (s : RunState) : Result where
  content := if c.run.responseMode.includesAnswer then answer else ""
  sources :=
    if c.run.responseMode.includesSources then
      Passage.assemble s.passages c.run.maxSources.toNat
    else []
  workflow := s.workflow

/-- An outcome and the calls of collaborators that led to it. -/
structure Outcome where
  result : Except ServiceError Result
  calls : List Call

/-- Carries out a run from a transcript on. -/
def Setting.outcome (env : Setting) (transcript : List Message) : Outcome :=
  match env.run.run.run { transcript := transcript } with
  | (.ok answer, s) => ⟨.ok (Retrieval.result env.corpus answer s), s.calls⟩
  | (.error e, s) => ⟨.error (.runFailed e.message s.workflow), s.calls⟩

/-- Serves a request on one of the corpora. -/
def retrieve (corpora : List Corpus) (collaborators : Collaborators) (r : Request) : Outcome :=
  match corpora.find? fun c => c.id == r.corpusId with
  | none => ⟨.error (.notFound ("Unknown corpus " ++ Text.quoted r.corpusId ++ ".")), []⟩
  | some c =>
    match opening c r.messages with
    | .error fault => ⟨.error fault.error, []⟩
    | .ok transcript => Setting.outcome ⟨c, lenientFilter r.filter, collaborators⟩ transcript

end CorpusAgent.Retrieval
