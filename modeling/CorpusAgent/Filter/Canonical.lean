import CorpusAgent.Filter.Basic
import CorpusAgent.Json.Printer

/-!
# The canonical form of a filter

`Filter.toJson` writes a filter as the JSON tree that stands for it: groups always with their name,
operators by their own names, and the operand under `value` and `values` as it is present.

* `Scalar.text?` is the text by which a value is compared with metadata.
-/

namespace CorpusAgent

namespace Scalar

/-- The text by which a value is compared; `null` has none. -/
def text? : Scalar → Option String
  | .text s => some s
  | .number n => some n.print
  | .bool true => some "true"
  | .bool false => some "false"
  | .null => none

def toJson : Scalar → Json
  | .text s => .text s
  | .number n => .number n
  | .bool b => .bool b
  | .null => .null

end Scalar

/-- The members of an operand. -/
def Operand.members (o : Operand) : List (String × Json) :=
  (match o.value with
    | some v => [("value", v.toJson)]
    | none => []) ++
  (match o.values with
    | some vs => [("values", .list (vs.map Scalar.toJson))]
    | none => [])

/-- The members of a condition. -/
def Condition.members (c : Condition) : List (String × Json) :=
  ("op", .text c.operator.name) :: c.operand.members

namespace Filter

mutual

def toJson : Filter → Json
  | .all parts => .object [("and", .list (toJsonList parts))]
  | .any parts => .object [("or", .list (toJsonList parts))]
  | .not part => .object [("not", toJson part)]
  | .field name condition => Json.ofMembers (("field", .text name) :: condition.members)
  | .path origin key condition =>
    Json.ofMembers (("path", .list [.text origin.name, .text key]) :: condition.members)

def toJsonList : List Filter → List Json
  | [] => []
  | part :: rest => toJson part :: toJsonList rest

end

/-- The canonical form as text. -/
def canonicalText (f : Filter) : String := f.toJson.print

end Filter

end CorpusAgent
