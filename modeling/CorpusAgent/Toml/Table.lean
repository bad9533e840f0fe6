import CorpusAgent.Json.Basic

/-!
# Tables under construction

While a document is read, a table remembers how it came about, because that decides what may still
be added to it:

* a table that only lies on the way to another one may get a header of its own later;
* a table that points in a name have made or entered can be extended by points in names, but gets no
  header of its own;
* a table with a header of its own is complete when the next header begins, apart from tables in it.

A list of tables is entered at its last table, which points in a name can lead through but not end
at.  A value is closed.
-/

namespace CorpusAgent.Toml

/-- How a table came about. -/
inductive TableKind where
  /-- On the way to a table with a header. -/
  | way
  /-- By a name with points, or entered by one. -/
  | points
  /-- By its own header. -/
  | header
  deriving DecidableEq, Repr

/-- What a name stands for. -/
inductive Node where
  | value (value : Json)
  | table (kind : TableKind) (entries : List (String × Node))
  | tables (earlier : List (List (String × Node))) (last : List (String × Node))

/-- The entries of a table. -/
abbrev Entries := List (String × Node)

namespace Entries

/-- The entry of a name. -/
def get? (es : Entries) (name : String) : Option Node :=
  (es.find? fun e => e.1 == name).map (·.2)

/-- The entries with one put in place of the one with its name, or added. -/
def put (name : String) (node : Node) : Entries → Entries
  | [] => [(name, node)]
  | e :: rest => if e.1 = name then (name, node) :: rest else e :: put name node rest

/-- Changes the table at the end of the way that a header names. -/
def within (change : Entries → Option Entries) : List String → Entries → Option Entries
  | [], es => change es
  | name :: way, es =>
    match es.get? name with
    | none => (within change way []).map fun sub => es.put name (.table .way sub)
    | some (.table kind sub) =>
      (within change way sub).map fun sub => es.put name (.table kind sub)
    | some (.tables earlier last) =>
      (within change way last).map fun last => es.put name (.tables earlier last)
    | some (.value _) => none

/-- Begins the table of a header. -/
def beginTable (name : String) (es : Entries) : Option Entries :=
  match es.get? name with
  | none => some (es.put name (.table .header []))
  | some (.table .way sub) => some (es.put name (.table .header sub))
  | _ => none

/-- Begins one more table of a list of tables. -/
def beginItem (name : String) (es : Entries) : Option Entries :=
  match es.get? name with
  | none => some (es.put name (.tables [] []))
  | some (.tables earlier last) => some (es.put name (.tables (earlier ++ [last]) []))
  | _ => none

/-- Sets the value of a name whose points, if it has any, lead through tables. -/
def set (name : String) (value : Json) : List String → Entries → Option Entries
  | [], es =>
    match es.get? name with
    | none => some (es.put name (.value value))
    | some _ => none
  | point :: way, es =>
    match es.get? point with
    | none => (set name value way []).map fun sub => es.put point (.table .points sub)
    | some (.table .header _) => none
    | some (.table _ sub) =>
      (set name value way sub).map fun sub => es.put point (.table .points sub)
    | some (.tables earlier last) =>
      if way.isEmpty then none
      else (set name value way last).map fun last => es.put point (.tables earlier last)
    | some (.value _) => none

end Entries

mutual

def Node.json : Node → Json
  | .value v => v
  | .table _ entries => Json.ofMembers (entriesJson entries)
  | .tables earlier last =>
    .list (tablesJson earlier ++ [Json.ofMembers (entriesJson last)])

def entriesJson : List (String × Node) → List (String × Json)
  | [] => []
  | (name, node) :: rest => (name, node.json) :: entriesJson rest

def tablesJson : List (List (String × Node)) → List Json
  | [] => []
  | entries :: rest => Json.ofMembers (entriesJson entries) :: tablesJson rest

end

def Entries.json (es : Entries) : Json := Json.ofMembers (entriesJson es)

end CorpusAgent.Toml
