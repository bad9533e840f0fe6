import CorpusAgent.Filter.Basic
import CorpusAgent.Filter.Error
import CorpusAgent.Json.Draft
import CorpusAgent.Text.Blank

/-!
# Reading filters

`Filter.parse` reads a filter from its JSON tree.  The nodes are visited in document order, each one
is counted, and the first fault ends the reading; so no more nodes are visited than the limits allow
and one more.

* A list stands for the conjunction of its items.
* `and`, `or` and `not` stand alone in their object.
* Any other object is a leaf: on a field if it has `field`, else on a metadata path.

`Filter.parseText` reads a filter from JSON text, and `Filter.parseValue` from either form, where
`null` and blank text are no filter.
-/

namespace CorpusAgent.Filter

def maxDepth : Nat := 8

def maxNodes : Nat := 128

def maxValues : Nat := 128

def maxTextBytes : Nat := 512

/-- The nodes visited so far and the deepest level among them. -/
structure Visits where
  nodes : Nat
  deepest : Nat
  deriving DecidableEq, Repr

def Visits.start : Visits := ⟨0, 0⟩

/-- A reading counts its visits, also when it fails. -/
abbrev Parse := ExceptT FilterError (StateM Visits)

/-- Fails at a place. -/
def fail {α : Type} (path : FilterPath) (fault : FilterFault) : Parse α := throw ⟨path, fault⟩

/-- Counts a node of a level; beyond a limit it fails. -/
def visit (path : FilterPath) (depth : Nat) : Parse Unit := do
  let before ← get
  let now : Visits := ⟨before.nodes + 1, max before.deepest depth⟩
  set now
  if maxNodes < now.nodes then fail path (.tooManyNodes now.nodes maxNodes)
  else if maxDepth < now.deepest then fail path (.tooDeep now.deepest maxDepth)
  else pure ()

/-- A text within the limit. -/
def parseString (path : FilterPath) : Json → Except FilterError String
  | .text s =>
    if maxTextBytes < s.utf8ByteSize then throw ⟨path, .textTooLong maxTextBytes⟩ else pure s
  | _ => throw ⟨path, .notText⟩

/-- A value to compare with. -/
def parseScalar (path : FilterPath) : Json → Except FilterError Scalar
  | .text s => Scalar.text <$> parseString path (.text s)
  | .number n => pure (.number n)
  | .bool b => pure (.bool b)
  | .null => pure .null
  | .list _ => throw ⟨path, .notScalar⟩
  | .object _ => throw ⟨path, .notScalar⟩

/-- The values of a list from an index on. -/
def parseScalars (path : FilterPath) : Nat → List Json → Except FilterError (List Scalar)
  | _, [] => pure []
  | i, v :: rest => do
    let s ← parseScalar (path.item i) v
    let ss ← parseScalars path (i + 1) rest
    pure (s :: ss)

/-- A list of values within the limit. -/
def parseValues (path : FilterPath) : Json → Except FilterError (List Scalar)
  | .list items =>
    if maxValues < items.length then throw ⟨path, .tooManyValues items.length maxValues⟩
    else parseScalars path 0 items
  | _ => throw ⟨path, .valuesNotList⟩

/-- The list under `values`. -/
def parseValuesMember (path : FilterPath) (members : List (String × Json)) :
    Except FilterError (Option (List Scalar)) :=
  match Json.find? "values" members with
  | some raw => some <$> parseValues (path.member "values") raw
  | none => pure none

/-- The operand of a leaf.  A list under `value` counts as the list if there is no other. -/
def parseOperand (path : FilterPath) (members : List (String × Json)) :
    Except FilterError Operand := do
  let values ← parseValuesMember path members
  match Json.find? "value" members, values with
  | some (.list items), none =>
    let items ← parseValues (path.member "value") (.list items)
    pure ⟨none, some items⟩
  | some raw, values =>
    let value ← parseScalar (path.member "value") raw
    pure ⟨some value, values⟩
  | none, values => pure ⟨none, values⟩

/-- The operator and the operand of a leaf. -/
def parseCondition (path : FilterPath) (members : List (String × Json)) :
    Except FilterError Condition := do
  match Json.find? "op" members with
  | none => throw ⟨path.member "op", .missingOperator⟩
  | some raw =>
    let name ← parseString (path.member "op") raw
    let operand ← parseOperand path members
    pure ⟨Operator.ofName name, operand⟩

/-- The origin and the key of a metadata path. -/
def parseMetadataPath (path : FilterPath) : Json → Except FilterError (Origin × String)
  | .list [first, second] => do
    let name ← parseString (path.item 0) first
    match Origin.ofName? name with
    | none => throw ⟨path.item 0, .unknownOrigin name⟩
    | some origin =>
      let key ← parseString (path.item 1) second
      if Text.isBlank key then throw ⟨path.item 1, .blankKey⟩ else pure (origin, key)
  | _ => throw ⟨path, .pathShape⟩

/-- A leaf. -/
def parseLeaf (path : FilterPath) (members : List (String × Json)) :
    Except FilterError Filter := do
  match Json.find? "field" members with
  | some raw =>
    let name ← parseString (path.member "field") raw
    let condition ← parseCondition path members
    pure (.field name condition)
  | none =>
    match Json.find? "path" members with
    | some raw =>
      let (origin, key) ← parseMetadataPath (path.member "path") raw
      let condition ← parseCondition path members
      pure (.path origin key condition)
    | none => throw ⟨path, .unknownNode⟩

/-- The items of a group from an index on, each read by `node`. -/
def parseItems (node : FilterPath → Json → Parse Filter) (path : FilterPath) :
    Nat → List Json → Parse (List Filter)
  | _, [] => pure []
  | i, v :: rest => do
    let part ← node (path.item i) v
    let parts ← parseItems node path (i + 1) rest
    pure (part :: parts)

/-- The parts of `and` and `or`. -/
def parseGroup (node : FilterPath → Json → Parse Filter) (path : FilterPath) :
    Json → Parse (List Filter)
  | .list items => parseItems node path 0 items
  | _ => fail path .argsNotList

/-- The part of `not`, which may stand in a list of one item. -/
def parseNot (node : FilterPath → Json → Parse Filter) (path : FilterPath) :
    Json → Parse Filter
  | .list [item] => node path item
  | .list _ => fail path .notArity
  | v => node path v

/-- The first of the three group names that an object has. -/
def groupOf? (members : List (String × Json)) : Option (String × Json) :=
  ["and", "or", "not"].findSome? fun group => (Json.find? group members).map (group, ·)

/-- A node of an object. -/
def parseObject (node : FilterPath → Json → Parse Filter) (path : FilterPath)
    (members : List (String × Json)) : Parse Filter :=
  match groupOf? members with
  | some (group, raw) =>
    if members.length ≠ 1 then fail path (.extraKeys group)
    else if group = "and" then Filter.all <$> parseGroup node (path.member group) raw
    else if group = "or" then Filter.any <$> parseGroup node (path.member group) raw
    else Filter.not <$> parseNot node (path.member group) raw
  | none => liftM (parseLeaf path members)

/-- A node with so many levels left for it and the nodes below it. -/
def parseNode : Nat → FilterPath → Json → Parse Filter
  | 0, place, _ => do
    visit place (maxDepth + 1)
    fail place (.tooDeep (maxDepth + 1) maxDepth)
  | levels + 1, place, v => do
    visit place (maxDepth - levels)
    match v with
    | .list items => Filter.all <$> parseItems (parseNode levels) place 0 items
    | .object members => parseObject (parseNode levels) place members
    | _ => fail place .noNode

/-- A reading of a filter tree with the visits it made. -/
def parseCounting (v : Json) : Except FilterError Filter × Visits :=
  (parseNode maxDepth [] v).run.run .start

def parse (v : Json) : Except FilterError Filter := (parseCounting v).1

/-- The filter of a JSON text. -/
def parseText (s : String) : Except FilterError Filter :=
  match Json.read? s with
  | some v => parse v
  | none => throw ⟨[], .invalidJson⟩

/-- The filter of a tree or of its text; `null` and blank text are none. -/
def parseValue : Json → Except FilterError (Option Filter)
  | .null => pure none
  | .text s => if Text.isBlank s then pure none else some <$> parseText s
  | v => some <$> parse v

end CorpusAgent.Filter
