import CorpusAgent.Toml.Scalar
import CorpusAgent.Toml.Table
import CorpusAgent.Toml.Token

/-!
# TOML documents

A document is a row of lines: headers, which name a table, and names with values, which belong to
the table of the last header.  A value may stretch over several lines within brackets.

* `read?` reads a text by a machine whose stack holds the lists and tables still open.
-/

namespace CorpusAgent.Toml

/-- A name as far as it has been read: its parts, the last one first, and whether a part is due. -/
structure Name where
  parts : List String := []
  due : Bool := true

namespace Name

def isBare (c : Char) : Bool := c.isAlphanum || c = '_' || c = '-'

def maxParts : Nat := 80

def part (n : Name) (part : String) : Option Name :=
  if n.due && n.parts.length < maxParts then some ⟨part :: n.parts, false⟩ else none

def point (n : Name) : Option Name := if n.due then none else some { n with due := true }

/-- Parts without quotes and the points between them; there is no part between a point and an end
of the word. -/
def word (n : Name) : List (List Char) → Option Name
  | [] => some n
  | [cs] => bare n cs
  | cs :: rest => ((bare n cs).bind point).bind fun n => word n rest
where
  /-- A part without quotes, if it has characters. -/
  bare (n : Name) (cs : List Char) : Option Name :=
    if cs.isEmpty then some n
    else if cs.all isBare then n.part (String.ofList cs) else none

/-- A token within a name. -/
def token (n : Name) : Token → Option Name
  | .word cs => n.word (Text.splitAt '.' cs)
  | .text s true => n.part s
  | _ => none

/-- The last part and the way to it. -/
def split? (n : Name) : Option (String × List String) :=
  match n.parts, n.due with
  | last :: way, false => some (last, way.reverse)
  | _, _ => none

end Name

/-- A list or table that is still open.  A list holds its items in reverse; a table holds the name
whose value is due. -/
inductive Frame where
  | list (items : List Json)
  | table (entries : Entries) (name : Name)

/-- What may come next. -/
inductive Due where
  | line
  | header (many : Bool) (name : Name)
  | headerEnd (name : Name)
  | name (name : Name)
  | equals (name : Name)
  | value
  | item
  | member
  | separator
  | lineEnd

/-- The state of the machine. -/
structure State where
  /-- The way to the table of the last header. -/
  table : List String
  root : Entries
  /-- The name whose value is due, outside of all brackets. -/
  name : Name
  frames : List Frame
  due : Due

namespace State

def maxDepth : Nat := 80

/-- The entries with a value for a name. -/
def setValue (name : Name) (value : Json) (es : Entries) : Option Entries :=
  name.split?.bind fun (last, way) => es.set last value way

/-- The state after a complete value. -/
def complete (s : State) (value : Json) : Option State :=
  match s.frames with
  | [] => (s.root.within (setValue s.name value) s.table).map fun root =>
    { s with root := root, due := .lineEnd }
  | .list items :: rest =>
    some { s with frames := .list (value :: items) :: rest, due := .separator }
  | .table entries name :: rest => (setValue name value entries).map fun entries =>
    { s with frames := .table entries name :: rest, due := .separator }

/-- A frame is opened, unless too many are open. -/
def enter (s : State) (f : Frame) (due : Due) : Option State :=
  if s.frames.length < maxDepth then some { s with frames := f :: s.frames, due := due } else none

/-- A token where a value is due. -/
def value (s : State) : Token → Option State
  | .openList _ => s.enter (.list []) .item
  | .openTable => s.enter (.table [] {}) .member
  | .word cs => (wordValue? cs).bind s.complete
  | .text text _ => s.complete (.text text)
  | _ => none

def close (s : State) (isList : Bool) : Option State :=
  match s.frames, isList with
  | .list items :: rest, true => complete { s with frames := rest } (.list items.reverse)
  | .table entries _ :: rest, false => complete { s with frames := rest } entries.json
  | _, _ => none

/-- A comma separates items or members; one may also follow the last. -/
def comma (s : State) : Option State :=
  match s.frames with
  | .list _ :: _ => some { s with due := .item }
  | .table .. :: _ => some { s with due := .member }
  | [] => none

/-- A line ends after a name or before a value, which is allowed within an open table. -/
def fold (s : State) (due : Due) : Option State :=
  if s.frames.isEmpty then none else some { s with due := due }

def named (s : State) (name : Name) : Option State :=
  match name.split?, s.frames with
  | some _, [] => some { s with name := name, due := .value }
  | some _, .table entries _ :: rest =>
    some { s with frames := .table entries name :: rest, due := .value }
  | _, _ => none

/-- A header is complete. -/
def headed (s : State) (many : Bool) (name : Name) : Option State :=
  name.split?.bind fun (last, way) =>
    let change := if many then Entries.beginItem last else Entries.beginTable last
    (s.root.within change way).map fun root =>
      { s with table := way ++ [last], root := root, due := .lineEnd }

/-- One token; nothing if it does not fit. -/
def step (s : State) (t : Token) : Option State :=
  match s.due, t with
  | .line, .newline => some s
  | .line, .openList _ => some { s with due := .header false {} }
  | .line, t => (Name.token {} t).map fun name => { s with due := .name name }
  | .header false ⟨[], true⟩, .openList true => some { s with due := .header true {} }
  | .header false name, .closeList _ => s.headed false name
  | .header true name, .closeList _ => some { s with due := .headerEnd name }
  | .header many name, t => (name.token t).map fun name => { s with due := .header many name }
  | .headerEnd name, .closeList true => s.headed true name
  | .name name, .equals => s.named name
  | .name name, .newline => if name.due then none else s.fold (.equals name)
  | .name name, t => (name.token t).map fun name => { s with due := .name name }
  | .equals name, .newline => s.fold (.equals name)
  | .equals name, .equals => s.named name
  | .value, .newline => s.fold .value
  | .value, t => s.value t
  | .item, .newline => some s
  | .item, .closeList _ => s.close true
  | .item, t => s.value t
  | .member, .newline => some s
  | .member, .closeTable => s.close false
  | .member, t => (Name.token {} t).map fun name => { s with due := .name name }
  | .separator, .newline => some s
  | .separator, .comma => s.comma
  | .separator, .closeList _ => s.close true
  | .separator, .closeTable => s.close false
  | .lineEnd, .newline => some { s with due := .line }
  | _, _ => none

def run (s : State) : List Token → Option Entries
  | [] =>
    match s.due with
    | .line => some s.root
    | .lineEnd => some s.root
    | _ => none
  | t :: rest => (s.step t).bind fun next => next.run rest

end State

/-- The value of a TOML text; nothing if it is not TOML. -/
def read? (text : String) : Option Json :=
  (State.run ⟨[], [], {}, [], .line⟩ (Token.scan text)).map Entries.json

end CorpusAgent.Toml
