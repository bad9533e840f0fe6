import CorpusAgent.Json.Basic

/-!
# Records

A record is read from an object by the names of its members, or from a list by their places.  Names
that are not asked for do not matter.  The `Dialect` that a tree was written in settles whether a
list may go on after the last member.

* `Record.required` needs the member.
* `Record.optional` takes a member that is missing or `null` as absent; a list has to reach it.
* `Record.orElse` has a default for a missing member, but `null` does not count as missing.
-/

namespace CorpusAgent.Json

/-- The kind of text that a tree was written in. -/
inductive Dialect where
  | json
  | toml
  deriving DecidableEq, Repr

/-- The list of a record may have so many items. -/
def Dialect.mayPlace (dialect : Dialect) (items members : Nat) : Bool :=
  match dialect with
  | .json => items ≤ members
  | .toml => true

/-- What stands with a name for nothing: `null`; in TOML, which has none, an empty list or table. -/
def Dialect.isNothing (dialect : Dialect) (v : Json) : Bool :=
  match dialect, v with
  | .json, .null => true
  | .toml, .list [] => true
  | .toml, .object [] => true
  | _, _ => false

structure Record where
  members : List (String × Json)
  placed : Bool

/-- The record with members of the given names. -/
def record? (dialect : Dialect) (names : List String) : Json → Option Record
  | .object members => some ⟨members, false⟩
  | .list items =>
    if dialect.mayPlace items.length names.length then some ⟨names.zip items, true⟩ else none
  | _ => none

namespace Record

variable {α : Type}

/-- A member that has to be there. -/
def required (r : Record) (name : String) (decode : Json → Option α) : Option α :=
  (find? name r.members).bind decode

/-- A member that may be missing or `null`. -/
def optional (r : Record) (name : String) (decode : Json → Option α) : Option (Option α) :=
  match find? name r.members with
  | some .null => some none
  | some v => (decode v).map some
  | none => if r.placed then none else some none

/-- A member with a default. -/
def orElse (r : Record) (name : String) (default : α) (decode : Json → Option α) : Option α :=
  match find? name r.members with
  | some v => decode v
  | none => some default

/-- A member that may be missing or `null` and is absent then, in a list as well. -/
def maybe (r : Record) (name : String) (decode : Json → Option α) : Option (Option α) :=
  match find? name r.members with
  | some .null => some none
  | some v => (decode v).map some
  | none => some none

end Record

/-- A list whose items are all read. -/
def listOf? {α : Type} (decode : Json → Option α) : Json → Option (List α)
  | .list items => items.mapM decode
  | _ => none

/-- One of the named cases: the name, or an object that has it as its only member, with nothing. -/
def caseName? (dialect : Dialect) : Json → Option String
  | .text s => some s
  | .object [(name, v)] => if dialect.isNothing v then some name else none
  | _ => none

end CorpusAgent.Json
