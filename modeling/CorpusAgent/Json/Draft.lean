import CorpusAgent.Json.Token

/-!
# Drafts

A draft is JSON text as far as it can be read.  Objects keep their members as written, repeated
names included.  Where the text breaks off, the draft has a `broken` leaf or a list or object that
is not closed, so a reader that expects a certain shape can tell which comes first, the wrong shape
or the broken text.  Text also breaks off at a name that is not a text; the draft shows what stands
there.

Parts that no reader asks for only have to be in good form: a draft also holds numerals out of
range, texts and names with half a surrogate pair, and lists and objects in any depth.

* `Draft.read` reads a text by a machine whose stack holds the lists and objects still open.
* `Draft.json?` is the value of a draft that is whole; `Json.read?` is the value of a text.
-/

namespace CorpusAgent.Json

/-- JSON text as far as it can be read. -/
inductive Draft where
  | null
  | bool (value : Bool)
  | number (value : Number)
  | text (value : String)
  | list (items : List Draft) (closed : Bool)
  | object (members : List (Draft × Draft)) (closed : Bool)
  /-- In good form, but without a value. -/
  | valueless
  | broken
  deriving Inhabited, Repr

namespace Draft

/-- A list or an object that is still open; its content is in reverse.  An object whose last name
has no value yet keeps that name. -/
inductive Frame where
  | list (items : List Draft)
  | object (members : List (Draft × Draft)) (name : Option Draft)

/-- What may come next. -/
inductive Due where
  | value
  | valueOrClose
  | name
  | nameOrClose
  | colon
  | commaOrClose
  | nothing

/-- The draft of a text; one with half a surrogate pair has no value. -/
def ofText : Option String → Draft
  | some s => .text s
  | none => .valueless

/-- The draft of what begins with a token. -/
def ofToken : Token → Draft
  | .openList => .list [] false
  | .openObject => .object [] false
  | .null => .null
  | .bool b => .bool b
  | .number n => .number n
  | .outOfRange => .valueless
  | .text s => ofText s
  | _ => .broken

/-- Puts a complete value into the innermost open list or object. -/
def Frame.add (value : Draft) : Frame → Frame
  | .list items => .list (value :: items)
  | .object members (some name) => .object ((name, value) :: members) none
  | .object members none => .object members none

/-- The list or object of a frame. -/
def Frame.draft (closed : Bool) : Frame → Draft
  | .list items => .list items.reverse closed
  | .object members _ => .object members.reverse closed

/-- The draft of everything that is open when the text breaks off after a last value. -/
def collapse : List Frame → Draft → Draft
  | [], d => d
  | f :: rest, d => collapse rest ((f.add d).draft false)

/-- The state of the machine. -/
structure State where
  frames : List Frame
  due : Due
  /-- The outermost value once it is complete. -/
  root : Draft

/-- The state after a complete value. -/
def State.complete (s : State) (value : Draft) : State :=
  match s.frames with
  | [] => ⟨[], .nothing, value⟩
  | f :: rest => ⟨f.add value :: rest, .commaOrClose, s.root⟩

/-- A frame is opened. -/
def State.enter (s : State) (f : Frame) (due : Due) : State := ⟨f :: s.frames, due, s.root⟩

/-- A token where a value is due. -/
def State.value (s : State) (t : Token) : Option State :=
  match ofToken t with
  | .list .. => some (s.enter (.list []) .valueOrClose)
  | .object .. => some (s.enter (.object [] none) .nameOrClose)
  | .broken => none
  | d => some (s.complete d)

def State.close (s : State) (isList : Bool) : Option State :=
  match s.frames, isList with
  | .list items :: rest, true =>
    some (State.complete ⟨rest, s.due, s.root⟩ (.list items.reverse true))
  | .object members _ :: rest, false =>
    some (State.complete ⟨rest, s.due, s.root⟩ (.object members.reverse true))
  | _, _ => none

def State.name (s : State) (name : Draft) : Option State :=
  match s.frames with
  | .object members _ :: rest => some ⟨.object members (some name) :: rest, .colon, s.root⟩
  | _ => none

def State.comma (s : State) : Option State :=
  match s.frames with
  | .list _ :: _ => some { s with due := .value }
  | .object .. :: _ => some { s with due := .name }
  | [] => none

/-- One token; nothing if it does not fit. -/
def State.step (s : State) (t : Token) : Option State :=
  match s.due, t with
  | .valueOrClose, .closeList => s.close true
  | .valueOrClose, t => s.value t
  | .value, t => s.value t
  | .nameOrClose, .closeObject => s.close false
  | .nameOrClose, .text name => s.name (ofText name)
  | .name, .text name => s.name (ofText name)
  | .colon, .colon => some { s with due := .value }
  | .commaOrClose, .comma => s.comma
  | .commaOrClose, .closeList => s.close true
  | .commaOrClose, .closeObject => s.close false
  | _, _ => none

/-- The draft of a text that breaks off in a state, with what stands there. -/
def State.breakOff (s : State) (there : Draft) : Draft :=
  match s.due, s.frames with
  | .nothing, _ => s.root
  | .commaOrClose, f :: rest => collapse rest (f.draft false)
  | .name, .object members _ :: rest => collapse (.object members (some there) :: rest) .broken
  | .nameOrClose, .object members _ :: rest =>
    collapse (.object members (some there) :: rest) .broken
  | _, frames => collapse frames .broken

/-- The draft of the tokens, and whether they end where the value ends. -/
def State.run (s : State) : List Token → Draft × Bool
  | [] =>
    match s.due with
    | .nothing => (s.root, true)
    | _ => (s.breakOff .broken, false)
  | t :: rest =>
    match s.step t with
    | some next => next.run rest
    | none => (s.breakOff (ofToken t), false)

/-- The draft of a text, and whether the text ends where the value ends. -/
def read (s : String) : Draft × Bool :=
  State.run ⟨[], .value, .broken⟩ (Token.scan s)

mutual

/-- The value of a draft that is whole, with at most so many lists and objects around each other. -/
def json? (depth : Nat) : Draft → Option Json
  | .null => some .null
  | .bool b => some (.bool b)
  | .number n => some (.number n)
  | .text s => some (.text s)
  | .list items closed =>
    match closed, depth with
    | true, inner + 1 => (jsonItems? inner items).map .list
    | _, _ => none
  | .object members closed =>
    match closed, depth with
    | true, inner + 1 => (jsonMembers? inner members).map ofMembers
    | _, _ => none
  | .valueless => none
  | .broken => none

/-- The values of items that are whole. -/
def jsonItems? (depth : Nat) : List Draft → Option (List Json)
  | [] => some []
  | d :: rest =>
    match json? depth d, jsonItems? depth rest with
    | some v, some vs => some (v :: vs)
    | _, _ => none

/-- The values of members that are whole. -/
def jsonMembers? (depth : Nat) : List (Draft × Draft) → Option (List (String × Json))
  | [] => some []
  | (name, d) :: rest =>
    match name, json? depth d, jsonMembers? depth rest with
    | .text name, some v, some vs => some ((name, v) :: vs)
    | _, _, _ => none

end

end Draft

def maxDepth : Nat := 127

/-- The value of a JSON text; nothing if it is not JSON. -/
def read? (s : String) : Option Json :=
  match Draft.read s with
  | (d, true) => d.json? maxDepth
  | (_, false) => none

end CorpusAgent.Json
