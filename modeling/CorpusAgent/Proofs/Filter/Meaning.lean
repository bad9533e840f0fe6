import CorpusAgent.Predicate
import CorpusAgent.Proofs.Sql.Row

/-!
# The meaning of a filter

What a filter says about a document, without any query: true or false, never unknown.

* Groups are all or some of their parts, so an empty `all` holds and an empty `any` does not.
* A leaf on a metadata path looks at the text at a key, as a list of at most one text; a leaf on a
  field looks at the texts of a chain.  Having no text at all is the same as having no value.
* The chain of a field is that of a source of the document, if the field has rules for it; any of
  several such rules will do.  For all other documents it is the fallback chain.
-/

namespace CorpusAgent

open Sql (Row Jsonb btrim)

/-- A text without the spaces at its ends, unless nothing is left. -/
def Sql.trimmed? (text : Option String) : Option String := (text.map btrim).filter (· ≠ "")

namespace Sql.Row

/-- The trimmed text at a key. -/
def text? (row : Row) (origin : Origin) (key : String) : Option String :=
  trimmed? ((row.member? origin key).bind Jsonb.text?)

/-- The trimmed texts at a key: those of the items of a list, else that of the value. -/
def texts (row : Row) (origin : Origin) (key : String) : List String :=
  match row.member? origin key with
  | some (.list items) => items.filterMap fun v => trimmed? v.text?
  | _ => (row.text? origin key).toList

end Sql.Row

/-- The texts of a step. -/
def Step.texts (row : Row) : Step → List String
  | .member origin key => row.texts origin key
  | .constant value values => Filter.constantTexts value values

/-- The texts of the first step that has any. -/
def chainTexts (row : Row) : List Step → List String
  | [] => []
  | step :: rest => if step.texts row = [] then chainTexts row rest else step.texts row

/-- One text occurs in another, both in lower case. -/
def occursIn (lower : String → String) (needle haystack : String) : Bool :=
  decide ((lower needle).toList <:+: (lower haystack).toList)

/-- The text of a value is among the texts; the value of nothing is so if there are none. -/
def Scalar.among (texts : List String) (s : Scalar) : Bool :=
  match s.text? with
  | some x => texts.contains x
  | none => texts.isEmpty

/-- The texts satisfy a condition. -/
def Condition.holds (lower : String → String) (c : Condition) (texts : List String) : Bool :=
  match c.operator with
  | .equal => c.operand.single.among texts
  | .notEqual => !c.operand.single.among texts
  | .oneOf => c.operand.candidates.any (Scalar.among texts)
  | .contains =>
    match c.operand.single.text? with
    | some x => texts.any (occursIn lower x)
    | none => false
  | .notContains =>
    match c.operand.single.text? with
    | some x => !texts.any (occursIn lower x)
    | none => false
  | .present => !texts.isEmpty
  | .absent => texts.isEmpty
  | .unsupported _ => false

/-- The texts of a field satisfy a condition. -/
def Field.holds (lower : String → String) (row : Row) (f : Field) (c : Condition) : Bool :=
  (f.sources.any fun rule =>
    row.sourceId == some rule.sourceId && c.holds lower (chainTexts row rule.chain)) ||
  ((f.sources.all fun rule => row.sourceId != some rule.sourceId) &&
    c.holds lower (chainTexts row f.fallbackChain))

namespace Filter

mutual

/-- The filter holds of a row. -/
def holds (lower : String → String) (fields : List Field) (row : Row) : Filter → Bool
  | .all parts => (holdsEach lower fields row parts).all id
  | .any parts => (holdsEach lower fields row parts).any id
  | .not part => !holds lower fields row part
  | .field name c =>
    match Field.find? fields name with
    | some f => f.holds lower row c
    | none => false
  | .path origin key c => c.holds lower (row.text? origin key).toList

/-- Which of several filters hold of a row. -/
def holdsEach (lower : String → String) (fields : List Field) (row : Row) :
    List Filter → List Bool
  | [] => []
  | part :: rest => holds lower fields row part :: holdsEach lower fields row rest

end

end Filter

end CorpusAgent
