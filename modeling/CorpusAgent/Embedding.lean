import CorpusAgent.Json.Basic
import CorpusAgent.Settings.Basic

/-!
# Embeddings

An embedding turns texts into vectors, in one exchange for all of them.

* `Embedding.decode` reads the vectors from an answer, in the order of their indices; a vector
  without an index counts as being in its place, and vectors of one index keep their order.
-/

namespace CorpusAgent.Embedding

/-- What is wrong with an answer. -/
inductive Fault where
  | noData
  | noVector
  | notNumber
  | count (vectors texts : Nat)
  deriving DecidableEq, Repr

def Fault.message : Fault → String
  | .noData => "Embedding response is missing data array."
  | .noVector => "Embedding item is missing embedding array."
  | .notNumber => "Embedding value must be numeric."
  | .count vectors texts => "Embedding response has " ++ toString vectors ++ " vectors for " ++
      toString texts ++ " inputs."

/-- What an embedding is asked with. -/
def request (s : EmbeddingSettings) (model : Option String) (texts : List String) : Json :=
  Json.ofMembers [("model", .text (model.getD s.model)), ("input", Json.ofTexts texts),
    ("dimensions", Json.ofNat s.dimensions.toNat)]

def component (v : Json) : Except Fault Single :=
  match v with
  | .number n => .ok (n.toDouble.toFormat .single)
  | _ => .error .notNumber

def item (place : Nat) (v : Json) : Except Fault (Nat × List Single) :=
  let index := ((v.member? "index").bind (Json.nat? (twoTo 64 - 1))).getD place
  match (v.member? "embedding").bind Json.list? with
  | none => .error .noVector
  | some components => (components.mapM component).map (index, ·)

def items (place : Nat) : List Json → Except Fault (List (Nat × List Single))
  | [] => .ok []
  | v :: rest => do
    let first ← item place v
    let rest ← items (place + 1) rest
    pure (first :: rest)

/-- The vectors by ascending index. -/
def inOrder (indexed : List (Nat × List Single)) : List (List Single) :=
  (indexed.mergeSort fun a b => a.1 ≤ b.1).map (·.2)

def decode (answer : Json) : Except Fault (List (List Single)) :=
  match (answer.member? "data").bind Json.list? with
  | none => .error .noData
  | some data => (items 0 data).map inOrder

def decodeFor (texts : List String) (answer : Json) : Except Fault (List (List Single)) := do
  let vectors ← decode answer
  if vectors.length = texts.length then pure vectors
  else .error (.count vectors.length texts.length)

end CorpusAgent.Embedding
