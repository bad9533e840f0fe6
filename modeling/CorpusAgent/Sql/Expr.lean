import CorpusAgent.Catalog

/-!
# Conditions over a document row

The expressions of the query language that a filter turns into.  A row has an optional source id and
three columns of JSON metadata, one for each origin.  No expression holds data of a caller: every
key, literal and source id is the number of a bound value.

* `Term`: an expression with a text or nothing as its value.
* `Values`: an expression with a list of texts or nothing as its value.
* `Cond`: a condition, which is true, false or unknown.
-/

namespace CorpusAgent.Sql

inductive Term where
  /-- A bound value. -/
  | bound (index : Nat)
  /-- The source id of the row. -/
  | sourceId
  /-- The element at hand, inside `Cond.someElement` and `Values.elements`. -/
  | element
  /-- The text at a bound key of a metadata column. -/
  | member (origin : Origin) (key : Nat)
  /-- A text without the spaces at its ends. -/
  | btrim (t : Term)
  /-- A text unless it is empty. -/
  | nullIfEmpty (t : Term)
  deriving DecidableEq, Repr

inductive Values where
  | null
  /-- The list of some bound values. -/
  | bounds (indices : List Nat)
  /-- The list of one text. -/
  | single (t : Term)
  /-- One list if a text is missing, else another. -/
  | ifNull (t : Term) (missing present : Values)
  /-- One list if the value at a bound key is an array, else another. -/
  | ifArray (origin : Origin) (key : Nat) (array other : Values)
  /-- The items, by way of the elements at a bound key for which a text is not missing. -/
  | elements (item : Term) (origin : Origin) (key : Nat) (kept : Term)
  /-- The first list that is not missing. -/
  | coalesce (choices : List Values)
  deriving Repr

inductive Cond where
  | literal (value : Bool)
  | equal (a b : Term)
  | isNull (t : Term)
  | isNotNull (t : Term)
  /-- Equality in which nothing equals nothing. -/
  | isNotDistinct (a b : Term)
  | isDistinct (a b : Term)
  /-- One text is part of another, whatever the case of letters. -/
  | contains (haystack needle : Term)
  /-- A text is none of some bound values. -/
  | notAmong (t : Term) (indices : List Nat)
  | noValues (v : Values)
  | someValues (v : Values)
  /-- Some element of a list satisfies a condition. -/
  | someElement (v : Values) (c : Cond)
  /-- A condition that is false where it would be unknown. -/
  | orFalse (c : Cond)
  | negate (c : Cond)
  | both (a b : Cond)
  | either (a b : Cond)
  | paren (c : Cond)
  deriving Repr

namespace Cond

/-- Conditions joined from the left; the first one is given apart. -/
def joined (join : Cond → Cond → Cond) (first : Cond) (rest : List Cond) : Cond :=
  rest.foldl join first

/-- Several conditions as one operand: one alone as it is, more joined within parentheses, and
without any the given condition. -/
def grouped (join : Cond → Cond → Cond) (empty : Cond) : List Cond → Cond
  | [] => empty
  | [c] => c
  | c :: d :: rest => .paren (joined join c (d :: rest))

end Cond

end CorpusAgent.Sql
