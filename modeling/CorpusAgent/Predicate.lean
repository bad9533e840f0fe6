import CorpusAgent.Filter.Canonical
import CorpusAgent.Filter.Parse
import CorpusAgent.Sql.Render
import CorpusAgent.Text.Blank

/-!
# Predicates

A predicate is the text of a condition over a document row with the values of its placeholders.
`Filter.compile` makes one from a filter and the field catalog.

* A leaf on a metadata path looks at one text, with the spaces at its ends removed; an empty text is
  missing.
* A leaf on a field looks at the list of texts that the field's chain yields for the row's source.
  Each step of a chain yields a list without blank texts, or nothing, and then the next step counts.
* A field that the catalog does not have, and an operator that is not known, never hold.

Values are bound in the order in which the expressions that use them are built.
-/

namespace CorpusAgent

/-- The text of a condition with the values of its placeholders, by name. -/
structure Predicate where
  sql : String
  params : List (String × String)
  deriving DecidableEq, Repr

/-- A blank predicate restricts nothing. -/
def Predicate.isEmpty (p : Predicate) : Bool := Text.isBlank p.sql

/-- The predicate that restricts nothing. -/
def Predicate.empty : Predicate := ⟨"", []⟩

namespace Filter

open Sql (Term Values Cond)

/-- Building an expression binds values. -/
abbrev Build := StateM (Array String)

/-- Binds a value; its number is the number of values bound before. -/
def bind (value : String) : Build Nat := fun bound => (bound.size, bound.push value)

def bindAll : List String → Build (List Nat)
  | [] => pure []
  | value :: rest => do
    let i ← bind value
    let is ← bindAll rest
    pure (i :: is)

/-- The texts to compare with and whether nothing is among the candidates. -/
def splitCandidates (o : Operand) : List String × Bool :=
  (o.candidates.filterMap Scalar.text?, o.candidates.any fun s => s.text?.isNone)

/-- The text of a constant: that of a text, a number or a truth value. -/
def constantText? : Json → Option String
  | .text s => some s
  | .number n => some n.print
  | .bool b => some (if b then "true" else "false")
  | _ => none

/-- The texts of a constant step. -/
def constantTexts (value : Option Json) (values : Option (List Json)) : List String :=
  match values with
  | some vs => vs.filterMap constantText?
  | none => (value.bind constantText?).toList

/-- The text at a key of a metadata column, trimmed, unless it is empty. -/
def trimmedMember (origin : Origin) (key : Nat) : Term := .nullIfEmpty (.btrim (.member origin key))

/-- The values at a key: those of an array that are not blank, else the value itself unless it is
blank. -/
def memberValues (origin : Origin) (key : Nat) : Values :=
  .ifArray origin key
    (.elements (.btrim .element) origin key (.nullIfEmpty (.btrim .element)))
    (.ifNull (trimmedMember origin key) .null (.single (.btrim (.member origin key))))

/-- The values of a step. -/
def stepValues : Step → Build Values
  | .member origin key => do
    let key ← bind key
    pure (memberValues origin key)
  | .constant value values =>
    match constantTexts value values with
    | [] => pure .null
    | texts => do
      let indices ← bindAll texts
      pure (.bounds indices)

def stepsValues : List Step → Build (List Values)
  | [] => pure []
  | step :: rest => do
    let v ← stepValues step
    let vs ← stepsValues rest
    pure (v :: vs)

/-- The values of the first step that yields any. -/
def chainValues (chain : List Step) : Build Values := do
  match ← stepsValues chain with
  | [] => pure .null
  | [v] => pure v
  | vs => pure (.coalesce vs)

/-- One condition or several as alternatives. -/
def alternatives (first : Cond) (rest : List Cond) : Cond := Cond.joined .either first rest

/-- What an operator asks of a single text. -/
def termCondition (t : Term) (c : Condition) : Build Cond :=
  match c.operator with
  | .equal =>
    match c.operand.single.text? with
    | some text => do pure (.orFalse (.equal t (.bound (← bind text))))
    | none => pure (.paren (.isNull t))
  | .notEqual =>
    match c.operand.single.text? with
    | some text => do pure (.paren (.isDistinct t (.bound (← bind text))))
    | none => pure (.paren (.isNotNull t))
  | .oneOf => do
    let (texts, hasNull) := splitCandidates c.operand
    let indices ← bindAll texts
    let branches := indices.map (fun i => Cond.equal t (.bound i)) ++
      (if hasNull then [Cond.isNull t] else [])
    match branches with
    | [] => pure (.literal false)
    | b :: rest => pure (.orFalse (alternatives b rest))
  | .contains =>
    match c.operand.single.text? with
    | some text => do pure (.orFalse (.contains t (.bound (← bind text))))
    | none => pure (.literal false)
  | .notContains =>
    match c.operand.single.text? with
    | some text => do
      pure (.paren (.either (.isNull t) (.negate (.contains t (.bound (← bind text))))))
    | none => pure (.literal false)
  | .present => pure (.paren (.isNotNull t))
  | .absent => pure (.paren (.isNull t))
  | .unsupported _ => pure (.literal false)

/-- What an operator asks of a list of texts. -/
def valuesCondition (v : Values) (c : Condition) : Build Cond :=
  match c.operator with
  | .equal =>
    match c.operand.single.text? with
    | some text => do pure (.someElement v (.equal .element (.bound (← bind text))))
    | none => pure (.paren (.noValues v))
  | .notEqual =>
    match c.operand.single.text? with
    | some text => do
      pure (.paren (.negate (.someElement v (.equal .element (.bound (← bind text))))))
    | none => pure (.paren (.someValues v))
  | .oneOf => do
    let (texts, hasNull) := splitCandidates c.operand
    let indices ← bindAll texts
    let found :=
      match indices.map fun i => Cond.equal .element (.bound i) with
      | [] => []
      | b :: rest => [Cond.someElement v (alternatives b rest)]
    match found ++ (if hasNull then [Cond.noValues v] else []) with
    | [] => pure (.literal false)
    | b :: rest => pure (.paren (alternatives b rest))
  | .contains =>
    match c.operand.single.text? with
    | some text => do pure (.someElement v (.contains .element (.bound (← bind text))))
    | none => pure (.literal false)
  | .notContains =>
    match c.operand.single.text? with
    | some text => do
      pure (.paren (.negate (.someElement v (.contains .element (.bound (← bind text))))))
    | none => pure (.literal false)
  | .present => pure (.paren (.someValues v))
  | .absent => pure (.paren (.noValues v))
  | .unsupported _ => pure (.literal false)

/-- The conditions for the sources with rules, each with the number of its source id. -/
def ruleConditions (c : Condition) : List SourceRule → Build (List (Nat × Cond))
  | [] => pure []
  | rule :: rest => do
    let id ← bind rule.sourceId
    let values ← chainValues rule.chain
    let condition ← valuesCondition values c
    let others ← ruleConditions c rest
    pure ((id, .paren (.both (.isNotDistinct .sourceId (.bound id)) condition)) :: others)

/-- The row has none of the source ids; a row without a source has none. -/
def noneOf (ids : List Nat) : Cond :=
  .paren (.either (.isNull .sourceId) (.notAmong .sourceId ids))

/-- What a leaf asks of a field: of a source with a rule by its chain, of others by the fallback. -/
def fieldCondition (f : Field) (c : Condition) : Build Cond := do
  let rules ← ruleConditions c f.sources
  let values ← chainValues f.fallbackChain
  let condition ← valuesCondition values c
  match rules with
  | [] => pure condition
  | _ =>
    pure (Cond.grouped .either (.literal false)
      (rules.map (·.2) ++ [.paren (.both (noneOf (rules.map (·.1))) condition)]))

mutual

/-- The condition of a filter. -/
def condition (fields : List Field) : Filter → Build Cond
  | .all parts => do
    pure (Cond.grouped .both (.literal true) (← conditions fields parts))
  | .any parts => do
    pure (Cond.grouped .either (.literal false) (← conditions fields parts))
  | .not part => do
    pure (.paren (.negate (← condition fields part)))
  | .field name c =>
    match Field.find? fields name with
    | some f => fieldCondition f c
    | none => pure (.literal false)
  | .path origin key c => do
    let key ← bind key
    termCondition (trimmedMember origin key) c

def conditions (fields : List Field) : List Filter → Build (List Cond)
  | [] => pure []
  | part :: rest => do
    let c ← condition fields part
    let cs ← conditions fields rest
    pure (c :: cs)

end

/-- The names of the bound values with the values. -/
def paramsOf (bound : Array String) : List (String × String) :=
  bound.toList.zipIdx.map fun (value, i) => (Sql.paramName i, value)

/-- The names of the parameters are the numbers of the bound values. -/
theorem keys_paramsOf (bound : Array String) :
    (paramsOf bound).map (·.1) = (List.range bound.size).map Sql.paramName := by
  have hkeys : (paramsOf bound).map (·.1) = (bound.toList.zipIdx.map (·.2)).map Sql.paramName := by
    rw [paramsOf, List.map_map, List.map_map]
    rfl
  rw [hkeys, List.zipIdx_map_snd, List.range_eq_range', Array.length_toList]

theorem length_paramsOf (bound : Array String) : (paramsOf bound).length = bound.size := by
  rw [paramsOf, List.length_map, List.length_zipIdx, Array.length_toList]

/-- The predicate of a filter. -/
def compile (f : Filter) (fields : List Field) : Predicate :=
  let (c, bound) := (condition fields f).run #[]
  ⟨c.render, paramsOf bound⟩

/-- The predicate of a filter tree; a tree that is no filter restricts nothing. -/
def compileValue (v : Json) (fields : List Field) : Predicate :=
  match parse v with
  | .ok f => f.compile fields
  | .error _ => .empty

end Filter

end CorpusAgent
