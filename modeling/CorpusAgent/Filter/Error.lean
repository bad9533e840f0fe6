/-!
# Errors in filters

An error says where in the tree it lies and what is wrong there.  The place is written from the root
`$.filter` on, with names after a point and indices in brackets.
-/

namespace CorpusAgent

/-- One step down a JSON tree. -/
inductive PathStep where
  | name (name : String)
  | index (index : Nat)
  deriving DecidableEq, Repr

/-- A place in a filter tree, as the steps from its root. -/
abbrev FilterPath := List PathStep

namespace FilterPath

def member (p : FilterPath) (name : String) : FilterPath := p ++ [.name name]

def item (p : FilterPath) (index : Nat) : FilterPath := p ++ [.index index]

def stepText : PathStep → String
  | .name name => "." ++ name
  | .index index => "[" ++ toString index ++ "]"

def text (p : FilterPath) : String := "$.filter" ++ String.join (p.map stepText)

end FilterPath

inductive FilterFault where
  /-- The message does not go into what is wrong with the text. -/
  | invalidJson
  | tooManyNodes (count limit : Nat)
  | tooDeep (depth limit : Nat)
  | noNode
  | extraKeys (group : String)
  | unknownNode
  | argsNotList
  | notArity
  | missingOperator
  | pathShape
  | unknownOrigin (name : String)
  | blankKey
  | valuesNotList
  | tooManyValues (count limit : Nat)
  | notScalar
  | notText
  | textTooLong (limit : Nat)
  deriving DecidableEq, Repr

def FilterFault.message : FilterFault → String
  | .invalidJson => "invalid JSON"
  | .tooManyNodes count limit =>
    "filter exceeds node limit (" ++ toString count ++ "/" ++ toString limit ++ ")."
  | .tooDeep depth limit =>
    "filter exceeds depth limit (" ++ toString depth ++ "/" ++ toString limit ++ ")."
  | .noNode => "filter node must be an object or an array."
  | .extraKeys group => "'" ++ group ++ "' node must not carry other keys."
  | .unknownNode => "filter node must contain one of and, or, not, field, path."
  | .argsNotList => "group args must be an array."
  | .notArity => "not takes exactly one child."
  | .missingOperator => "predicate is missing required op."
  | .pathShape => "path must be a two-element [origin, key] array."
  | .unknownOrigin name =>
    "unknown metadata origin '" ++ name ++ "', expected file, source, or llm."
  | .blankKey => "path key must be non-empty."
  | .valuesNotList => "values must be an array."
  | .tooManyValues count limit =>
    "values list exceeds maximum size (" ++ toString count ++ "/" ++ toString limit ++ ")."
  | .notScalar => "scalar value expected."
  | .notText => "string value expected."
  | .textTooLong limit => "string value exceeds maximum bytes (" ++ toString limit ++ ")."

/-- A fault and its place. -/
structure FilterError where
  path : FilterPath
  fault : FilterFault
  deriving DecidableEq, Repr

def FilterError.message (e : FilterError) : String := e.path.text ++ ": " ++ e.fault.message

end CorpusAgent
