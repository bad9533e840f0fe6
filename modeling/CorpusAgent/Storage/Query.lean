import CorpusAgent.Passage
import CorpusAgent.Storage.Statement

/-!
# Queries

A query is a statement that the database carries out.  The database itself is given by what it
answers to statements.
-/

namespace CorpusAgent.Storage

/-- The database: to each statement its rows or the text of an error. -/
structure Database where
  count : Statement → Except String Int
  documents : Statement → Except String (List DocumentHit)
  passages : Statement → Except String (List Passage)

/-- Why a query has no rows. -/
inductive QueryError where
  /-- There is no statement, so nothing was sent. -/
  | unbound (fault : Unbound)
  | database (text : String)
  deriving DecidableEq, Repr

def QueryError.message : QueryError → String
  | .unbound fault => "Invalid argument: " ++ fault.message
  | .database text => "error returned from database: " ++ text

/-- Carries out a statement, if there is one. -/
def carryOut {α : Type} (answer : Statement → Except String α) :
    Except Unbound Statement → Except QueryError α
  | .error fault => .error (.unbound fault)
  | .ok statement => (answer statement).mapError .database

/-- The number of completed documents of a graph that satisfy a predicate. -/
def count (db : Database) (graph : String) (filter : Option Predicate) : Except QueryError Int :=
  carryOut db.count (countStatement graph filter)

def documents (db : Database) (graph : String) (vector : List Single) (limit : Int) :
    Except QueryError (List DocumentHit) :=
  carryOut db.documents (.ok (documentsStatement graph vector limit))

def passages (db : Database) (q : ChunkQuery) : Except QueryError (List Passage) :=
  carryOut db.passages (chunksStatement q)

end CorpusAgent.Storage
