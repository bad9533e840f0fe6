import CorpusAgent.Number.Layout
import CorpusAgent.Predicate
import CorpusAgent.Sql.Placeholder
import CorpusAgent.Uuid

/-!
# Statements

A statement is a query with the values of its positions `$1`, `$2`, ….

* `countStatement` counts the completed documents of a graph that satisfy a predicate.
* `documentsStatement` finds the completed documents with the nearest summaries.
* `chunksStatement` finds the nearest chunks of completed documents, possibly only of some documents
  and only of documents that satisfy a predicate.

A blank predicate is left out.  A predicate with a placeholder that has no value makes no statement.
-/

namespace CorpusAgent.Storage

/-- A value of a statement. -/
inductive Value where
  | text (text : String)
  | integer (value : Int)
  | ids (ids : List Uuid)
  deriving DecidableEq, Repr

/-- A query with its values in order. -/
structure Statement where
  sql : String
  values : List Value
  deriving DecidableEq, Repr

def vectorText (v : List Single) : String :=
  "[" ++ ",".intercalate (v.map fun x => x.text .plain) ++ "]"

def completed : String := "completed"

/-- Why there is no statement: a placeholder without a value. -/
structure Unbound where
  name : String
  deriving DecidableEq, Repr

def Unbound.message (u : Unbound) : String := "Unbound SQL parameter :" ++ u.name ++ "."

/-- A predicate as a clause after an offset, with its values; blank ones and none are no clause. -/
def clause (filter : Option Predicate) (offset : Nat) : Except Unbound (String × List Value) :=
  match filter with
  | none => .ok ("", [])
  | some p =>
    if p.isEmpty then .ok ("", [])
    else
      match Sql.bindNamed p.sql p.params offset with
      | .ok bound => .ok ("\n\tAND (" ++ bound.sql ++ ")", bound.values.map .text)
      | .error name => .error ⟨name⟩

/-- Counts the completed documents of a graph that satisfy a predicate. -/
def countStatement (graph : String) (filter : Option Predicate) : Except Unbound Statement := do
  let (text, values) ← clause filter 2
  pure ⟨"SELECT COUNT(*)\nFROM documents d\nWHERE d.graph_id = $1\n\tAND d.status = $2" ++ text,
    [.text graph, .text completed] ++ values⟩

/-- Finds the completed documents of a graph with the nearest summaries. -/
def documentsStatement (graph : String) (vector : List Single) (limit : Int) : Statement :=
  ⟨"SELECT\n\td.document_id,\n\td.title,\n\td.summary,\n" ++
    "\t(1 - (d.summary_vec <=> $2::text::vector))::real AS score\n" ++
    "FROM documents d\nWHERE d.graph_id = $1\n\tAND d.status = $3\n" ++
    "\tAND d.summary_vec IS NOT NULL\n" ++
    "ORDER BY d.summary_vec <=> $2::text::vector ASC, d.document_id ASC\nLIMIT $4",
    [.text graph, .text (vectorText vector), .text completed, .integer limit]⟩

/-- A search for chunks. -/
structure ChunkQuery where
  graph : String
  vector : List Single
  limit : Int
  /-- Only these documents are searched, if given; then an empty list finds nothing. -/
  onlyDocuments : Option (List Uuid)
  filter : Option Predicate
  deriving DecidableEq, Repr

/-- Finds the nearest chunks. -/
def chunksStatement (q : ChunkQuery) : Except Unbound Statement := do
  let head := "SELECT\n\tc.chunk_id,\n\tc.document_id,\n\tCOALESCE(c.title, d.title) AS title,\n" ++
    "\tc.content,\n\t(1 - (c.vec <=> $2::text::vector))::real AS score\n" ++
    "FROM chunks c\nJOIN documents d ON d.document_id = c.document_id\n" ++
    "WHERE c.graph_id = $1\n\tAND d.status = $3\n\tAND c.vec IS NOT NULL"
  let tail := "\nORDER BY c.vec <=> $2::text::vector ASC, c.chunk_id ASC\nLIMIT $4"
  let (only, ids, offset) :=
    match q.onlyDocuments with
    | some ids => ("\n\tAND c.document_id = ANY($5)", [Value.ids ids], 5)
    | none => ("", [], 4)
  let (text, values) ← clause q.filter offset
  pure ⟨head ++ only ++ text ++ tail,
    [.text q.graph, .text (vectorText q.vector), .text completed, .integer q.limit] ++ ids ++
      values⟩

end CorpusAgent.Storage
