import CorpusAgent.Corpus
import CorpusAgent.Json.Draft
import CorpusAgent.Chat.Message
import CorpusAgent.Filter.Parse
import CorpusAgent.Retrieval.Error
import CorpusAgent.Text.Blank

/-!
# Arguments of tool calls

The arguments of a call are the members of a JSON object; blank text stands for an object without
members.

* `limitAndThreshold` is what a search goes by: the settings, or the model's numbers where it
  controls the search and they are of use.
* `lenientFilter` is a filter that may be given as a tree or as its text; one that cannot be read
  counts as absent.
-/

namespace CorpusAgent.Retrieval

abbrev Arguments := List (String × Json)

/-- The arguments of a call. -/
def arguments (call : ToolCall) : Except ProtocolFault Arguments :=
  if Text.isBlank call.arguments then .ok []
  else
    match Json.read? call.arguments with
    | some (.object members) => .ok members
    | some _ => .error (.argumentsNotObject call.name)
    | none => .error (.argumentsNotJson call.name)

/-- A text that the tool needs. -/
def requiredText (tool : Tool) (name : String) (args : Arguments) : Except ProtocolFault String :=
  match (Json.find? name args).bind Json.text? with
  | some text => .ok text
  | none => .error (.missingText tool name)

/-- A number among the arguments, as a 64-bit number. -/
def numberArgument? (name : String) (args : Arguments) : Option Double :=
  ((Json.find? name args).bind Json.number?).map Number.toDouble

def maxLimit : Int := (twoTo 63 : Int) - 1

/-- The model's limit: a number towards zero, if that is positive. -/
def limitArgument? (args : Arguments) : Option Int :=
  ((numberArgument? "limit" args).map (Binary.truncate (-maxLimit - 1) maxLimit)).filter
    fun limit => 0 < limit

/-- The model's threshold: a number rounded to 32 bits, if that is finite. -/
def thresholdArgument? (args : Arguments) : Option Single :=
  ((numberArgument? "scoreThreshold" args).map (Binary.toFormat .single)).filter Binary.isFinite

/-- The limit and the threshold of a search. -/
def limitAndThreshold (s : SimilaritySettings) (args : Arguments) : Int × Single :=
  if s.searchControl = .agent then
    ((limitArgument? args).getD s.limit.toNat, (thresholdArgument? args).getD s.scoreThreshold)
  else (s.limit.toNat, s.scoreThreshold)

/-- The filter of a value, if there is one and it can be read. -/
def lenientFilter (value : Option Json) : Option Filter :=
  match value.map Filter.parseValue with
  | some (.ok filter) => filter
  | _ => none

end CorpusAgent.Retrieval
