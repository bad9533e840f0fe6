/-!
# Placeholders by name and by position

A fragment of a query names its values (`:p0`); a query as sent numbers them (`$1`).  The text of a
fragment falls into literals in single quotes, casts (`::`), placeholders (a colon with a name of
ASCII letters, digits and underscores that does not begin with a digit) and other characters; a
literal that is not closed goes on to the end.

* `Piece.scan` cuts a text into these pieces; put together again they are the text.
* `Sql.bindNamed` replaces the placeholders by positions after an offset, numbered in the order in
  which the names first appear, and lists the values in this order.
-/

namespace CorpusAgent.Sql

/-- A piece of a fragment. -/
inductive Piece where
  /-- A literal with its quotes. -/
  | literal (chars : List Char)
  | cast
  | named (name : List Char)
  | other (c : Char)
  deriving DecidableEq, Repr

namespace Piece

def isNameStart (c : Char) : Bool := c.isAlpha || c = '_'

def isNamePart (c : Char) : Bool := c.isAlphanum || c = '_'

/-- What a scan has begun; characters read are kept in reverse. -/
inductive Mode where
  | outside
  | literal (seen : List Char)
  | colon
  | name (seen : List Char)

/-- The pieces of a text from a mode on. -/
def scanFrom : Mode → List Char → List Piece
  | .outside, [] => []
  | .literal seen, [] => [.literal seen.reverse]
  | .colon, [] => [.other ':']
  | .name seen, [] => [.named seen.reverse]
  | .outside, c :: rest =>
    if c = '\'' then scanFrom (.literal [c]) rest
    else if c = ':' then scanFrom .colon rest
    else .other c :: scanFrom .outside rest
  | .literal seen, c :: rest =>
    if c = '\'' then .literal (c :: seen).reverse :: scanFrom .outside rest
    else scanFrom (.literal (c :: seen)) rest
  | .colon, c :: rest =>
    if c = ':' then .cast :: scanFrom .outside rest
    else if isNameStart c then scanFrom (.name [c]) rest
    else if c = '\'' then .other ':' :: scanFrom (.literal [c]) rest
    else .other ':' :: .other c :: scanFrom .outside rest
  | .name seen, c :: rest =>
    if isNamePart c then scanFrom (.name (c :: seen)) rest
    else if c = '\'' then .named seen.reverse :: scanFrom (.literal [c]) rest
    else if c = ':' then .named seen.reverse :: scanFrom .colon rest
    else .named seen.reverse :: .other c :: scanFrom .outside rest

def scan (cs : List Char) : List Piece := scanFrom .outside cs

def name? : Piece → Option String
  | .named name => some (String.ofList name)
  | _ => none

/-- The text of a piece, a placeholder written by `mark`. -/
def chars (mark : String → List Char) : Piece → List Char
  | .literal cs => cs
  | .cast => [':', ':']
  | .named name => mark (String.ofList name)
  | .other c => [c]

end Piece

/-- The entries of a list without those that appeared before. -/
def firstAppearances (names : List String) : List String :=
  (names.foldl (fun seen name => if seen.contains name then seen else name :: seen) []).reverse

/-- A fragment with positions, and the values at the positions after the offset. -/
structure Positional where
  sql : String
  values : List String
  deriving DecidableEq, Repr

def lookup? (params : List (String × String)) (name : String) : Option String :=
  (params.find? fun p => p.1 == name).map (·.2)

/-- The position of a name: its rank among the names, after the offset. -/
def positionMark (offset : Nat) (names : List String) (name : String) : List Char :=
  ("$" ++ toString (offset + names.idxOf name + 1)).toList

/-- A fragment with positions for names.  The first name without a value is an error. -/
def bindNamed (sql : String) (params : List (String × String)) (offset : Nat) :
    Except String Positional :=
  let pieces := Piece.scan sql.toList
  let names := firstAppearances (pieces.filterMap Piece.name?)
  match names.find? fun name => (lookup? params name).isNone with
  | some name => .error name
  | none =>
    .ok ⟨String.ofList (pieces.flatMap (Piece.chars (positionMark offset names))),
      names.filterMap (lookup? params)⟩

end CorpusAgent.Sql
