import CorpusAgent.Json.Basic

/-!
# The field catalog

Documents carry metadata of three origins.  A field gives a name to values found there: for each
source of documents a chain of steps says where to look, and one more chain covers all other
sources.  The first step of a chain that yields a value wins.

* `Field.fallbackChain` is the chain for sources without a rule of their own: the wildcard chain if
  there is one, else the field's own name looked up in the three origins.
-/

namespace CorpusAgent

/-- Where metadata of a document comes from. -/
inductive Origin where
  | file
  | source
  | llm
  deriving DecidableEq, Repr

def Origin.name : Origin → String
  | .file => "file"
  | .source => "source"
  | .llm => "llm"

def Origin.ofName? (name : String) : Option Origin :=
  [.file, .source, .llm].find? fun origin => origin.name == name

/-- One place to look for the values of a field. -/
inductive Step where
  /-- A metadata key of an origin. -/
  | member (origin : Origin) (key : String)
  /-- Values that are the same for all documents; the list counts before the single value. -/
  | constant (value : Option Json) (values : Option (List Json))

structure SourceRule where
  sourceId : String
  chain : List Step

/-- What the values of a field are, as a hint to the model. -/
inductive FieldKind where
  | string
  | number
  | boolean
  | multi
  deriving DecidableEq, Repr

def FieldKind.name : FieldKind → String
  | .string => "string"
  | .number => "number"
  | .boolean => "boolean"
  | .multi => "multi"

def FieldKind.ofName? (name : String) : Option FieldKind :=
  [.string, .number, .boolean, .multi].find? fun kind => kind.name == name

/-- A field of the catalog. -/
structure Field where
  name : String
  description : Option String
  kind : Option FieldKind
  sources : List SourceRule
  /-- The chain for all sources without a rule. -/
  wildcard : Option (List Step)

namespace Field

/-- The field's name as a key of the source's, the file's and the model's metadata, in this
order. -/
def defaultChain (f : Field) : List Step :=
  [.member .source f.name, .member .file f.name, .member .llm f.name]

/-- The chain for sources without a rule. -/
def fallbackChain (f : Field) : List Step := f.wildcard.getD f.defaultChain

def find? (fields : List Field) (name : String) : Option Field :=
  fields.find? fun f => f.name == name

end Field

end CorpusAgent
