import CorpusAgent.Filter.Canonical
import CorpusAgent.Filter.Parse
import Mathlib.Data.List.Forall2

/-!
# The grammar of filters

Which JSON trees stand for which filters, without any limit on their size, and what the limits are.

* `Operator.Named`, `Operand.Given`: the names of an operator, and the members of an operand.
* `Filter.Denotes`: a JSON tree stands for a filter.
* `Filter.nodes`, `Filter.depth`: the measures of a filter.
* `Filter.Within`: the filter keeps within all limits.
-/

namespace CorpusAgent

/-- The names of an operator: its own one and, for `contains`, also `like`, both in any ASCII case.
All names that are left belong to operators that are not supported. -/
inductive Operator.Named : String → Operator → Prop
  | known {raw : String} {operator : Operator} (hsupported : operator.isSupported = true)
    (h : raw.toLower = operator.name) : Named raw operator
  | like {raw : String} (h : raw.toLower = "like") : Named raw .contains
  | other {raw : String} (hlike : raw.toLower ≠ "like")
    (h : ∀ operator : Operator, operator.isSupported = true → raw.toLower ≠ operator.name) :
    Named raw (.unsupported raw)

/-- The operand of the members `value` and `values`, either of which may be missing. -/
inductive Operand.Given : Option Json → Option Json → Operand → Prop
  | neither : Given none none ⟨none, none⟩
  | value (s : Scalar) : Given (some s.toJson) none ⟨some s, none⟩
  | values (ss : List Scalar) : Given none (some (.list (ss.map Scalar.toJson))) ⟨none, some ss⟩
  | both (s : Scalar) (ss : List Scalar) :
    Given (some s.toJson) (some (.list (ss.map Scalar.toJson))) ⟨some s, some ss⟩
  /-- Without `values` a list may also stand under `value`. -/
  | listed (ss : List Scalar) : Given (some (.list (ss.map Scalar.toJson))) none ⟨none, some ss⟩

/-- The condition of the members of a leaf. -/
structure Condition.Given (members : List (String × Json)) (c : Condition) : Prop where
  operator : ∃ name, Json.find? "op" members = some (.text name) ∧ Operator.Named name c.operator
  operand : Operand.Given (Json.find? "value" members) (Json.find? "values" members) c.operand

/-- The texts that are written in a scalar. -/
def Scalar.texts : Scalar → List String
  | .text s => [s]
  | _ => []

/-- The scalars that are written in an operand. -/
def Operand.scalars (o : Operand) : List Scalar := o.value.toList ++ o.values.getD []

/-- The texts that are written in a condition. -/
def Condition.texts (c : Condition) : List String :=
  c.operator.name :: c.operand.scalars.flatMap Scalar.texts

namespace Filter

/-- The names of groups. -/
def groups : List String := ["and", "or", "not"]

/-- A JSON tree stands for a filter. -/
inductive Denotes : Json → Filter → Prop
  | list {items : List Json} {parts : List Filter} (h : List.Forall₂ Denotes items parts) :
    Denotes (.list items) (.all parts)
  | all {items : List Json} {parts : List Filter} (h : List.Forall₂ Denotes items parts) :
    Denotes (.object [("and", .list items)]) (.all parts)
  | any {items : List Json} {parts : List Filter} (h : List.Forall₂ Denotes items parts) :
    Denotes (.object [("or", .list items)]) (.any parts)
  | notItem {item : Json} {part : Filter} (h : Denotes item part) :
    Denotes (.object [("not", .list [item])]) (.not part)
  | notValue {value : Json} {part : Filter} (hlist : value.list? = none) (h : Denotes value part) :
    Denotes (.object [("not", value)]) (.not part)
  | field {members : List (String × Json)} {name : String} {c : Condition}
    (hgroup : ∀ group ∈ groups, Json.find? group members = none)
    (hname : Json.find? "field" members = some (.text name)) (hc : Condition.Given members c) :
    Denotes (.object members) (.field name c)
  | path {members : List (String × Json)} {origin : Origin} {key : String} {c : Condition}
    (hgroup : ∀ group ∈ groups, Json.find? group members = none)
    (hfield : Json.find? "field" members = none)
    (hpath : Json.find? "path" members = some (.list [.text origin.name, .text key]))
    (hkey : Text.isBlank key = false) (hc : Condition.Given members c) :
    Denotes (.object members) (.path origin key c)

/-! ### Measures and limits -/

mutual

/-- The nodes of a filter in document order. -/
def nodes : Filter → List Filter
  | .all parts => .all parts :: nodesOf parts
  | .any parts => .any parts :: nodesOf parts
  | .not part => .not part :: nodes part
  | .field name c => [.field name c]
  | .path origin key c => [.path origin key c]

/-- The nodes of several filters. -/
def nodesOf : List Filter → List Filter
  | [] => []
  | part :: rest => nodes part ++ nodesOf rest

end

mutual

/-- The levels of a filter; a leaf has one. -/
def depth : Filter → Nat
  | .all parts => depthOf parts + 1
  | .any parts => depthOf parts + 1
  | .not part => depth part + 1
  | .field .. => 1
  | .path .. => 1

/-- The levels of the deepest of several filters. -/
def depthOf : List Filter → Nat
  | [] => 0
  | part :: rest => max (depth part) (depthOf rest)

end

/-- The texts that a node itself is written with, its parts apart. -/
def texts : Filter → List String
  | .field name c => name :: c.texts
  | .path origin key c => origin.name :: key :: c.texts
  | _ => []

/-- The list of values of a node. -/
def values : Filter → List Scalar
  | .field _ c => c.operand.values.getD []
  | .path _ _ c => c.operand.values.getD []
  | _ => []

/-- A node keeps within the limits of a node. -/
def NodeWithin (node : Filter) : Prop :=
  node.values.length ≤ maxValues ∧ ∀ text ∈ node.texts, text.utf8ByteSize ≤ maxTextBytes

/-- A filter keeps within all limits. -/
structure Within (e : Filter) : Prop where
  count : e.nodes.length ≤ maxNodes
  depth : e.depth ≤ maxDepth
  each : ∀ node ∈ e.nodes, node.NodeWithin

theorem depth_pos (e : Filter) : 0 < e.depth := by
  cases e <;> exact Nat.succ_pos _

/-- A filter comes first among its nodes. -/
theorem nodes_eq_cons (e : Filter) : e.nodes = e :: e.nodes.tail := by
  cases e <;> rfl

end Filter

end CorpusAgent
