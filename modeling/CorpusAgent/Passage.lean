import CorpusAgent.Json.Finite
import CorpusAgent.Uuid

/-!
# Passages

What searches return: passages (chunks of documents) and documents, each with a score.

* `Passage.assemble` picks the passages a run answers with: the best ones first, passages of equal
  score in the order in which they were found, each chunk once, and no more than a given number.
-/

namespace CorpusAgent

structure Passage where
  id : Uuid
  title : Option String
  content : String
  document : Uuid
  score : Single
  deriving DecidableEq, Repr

structure DocumentHit where
  id : Uuid
  title : Option String
  summary : Option String
  score : Single
  deriving DecidableEq, Repr

namespace Passage

def json (score : Single → Json) (p : Passage) : Json :=
  Json.ofMembers [("id", .text p.id.text), ("title", Json.ofText? p.title),
    ("content", .text p.content), ("document", .text p.document.text), ("score", score p.score)]

/-- The first passage may stand before the second: its score is not below. -/
def mayPrecede (p q : Passage) : Bool := !p.score.isBelow q.score

/-- The passages by descending score; equal scores keep their order. -/
def ranked (ps : List Passage) : List Passage := ps.mergeSort mayPrecede

/-- The passages without those whose chunk was seen before. -/
def distinct (seen : List Uuid) : List Passage → List Passage
  | [] => []
  | p :: rest =>
    if seen.contains p.id then distinct seen rest else p :: distinct (p.id :: seen) rest

/-- The best passages, each chunk once. -/
def assemble (ps : List Passage) (most : Nat) : List Passage := (distinct [] (ranked ps)).take most

end Passage

end CorpusAgent
