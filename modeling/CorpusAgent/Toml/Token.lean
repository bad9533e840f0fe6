import CorpusAgent.Text.Hex

/-!
# TOML tokens

A token is a new line, a bracket, a comma, an equals sign, a text in quotes or a word.  A word is a
run of the characters of numbers, dates and bare names; it keeps its points, and one space between a
date and a time belongs to it.  Comments and blanks are no tokens.

* `Token.scan` reads a text character by character; where it goes wrong the last token is `bad`.
-/

namespace CorpusAgent.Toml

/-- A token.  A bracket is glued if the same bracket stands right before it. -/
inductive Token where
  | newline
  | openList (glued : Bool)
  | closeList (glued : Bool)
  | openTable
  | closeTable
  | comma
  | equals
  | word (chars : List Char)
  /-- A text; only one on a single line can be a name. -/
  | text (value : String) (single : Bool)
  | bad
  deriving DecidableEq, Repr

namespace Token

/-- Where the reading of tokens is. -/
inductive Mode where
  /-- Outside of all tokens, after a character. -/
  | between (previous : Char)
  | comment
  /-- After a carriage return outside of texts. -/
  | carriage
  | word (seen : List Char)
  /-- After a space that follows a date. -/
  | dateGap (seen : List Char)
  /-- After one quote. -/
  | quote (q : Char)
  /-- After two quotes. -/
  | quotes (q : Char)
  /-- After the three quotes that open a text of many lines. -/
  | openMulti (q : Char)
  | text (q : Char) (multi : Bool) (seen : List Char)
  /-- After some quotes within a text of many lines. -/
  | closing (q : Char) (seen : List Char) (count : Nat)
  /-- After a carriage return within a text of many lines, which may be its very beginning. -/
  | textCarriage (q : Char) (seen : List Char) (opening : Bool)
  | escape (multi : Bool) (seen : List Char)
  /-- Within the digits of an escape. -/
  | code (multi : Bool) (seen : List Char) (left value : Nat)
  /-- Within the white space that a backslash at the end of a line takes away. -/
  | fold (seen : List Char) (ended carriage : Bool)

def isBlank (c : Char) : Bool := c = ' ' || c = '\t'

/-- A control character that may not stand in texts and comments. -/
def isControl (c : Char) : Bool := (c.toNat < 0x20 && c ≠ '\t') || c.toNat = 0x7F

def isWord (c : Char) : Bool :=
  c.isAlphanum || c = '_' || c = '-' || c = '+' || c = ':' || c = '.'

/-- The word, in reverse, is a date. -/
def isDate (seen : List Char) : Bool :=
  seen.length = 10 &&
    (seen.zipIdx.all fun (c, i) => if i = 2 || i = 5 then c = '-' else c.isDigit)

def ofWord (seen : List Char) : Token := .word seen.reverse

def ofText (seen : List Char) (single : Bool) : Token := .text (String.ofList seen.reverse) single

def ofChar? (previous c : Char) : Option Token :=
  match c with
  | '[' => some (.openList (previous = '['))
  | ']' => some (.closeList (previous = ']'))
  | '\x7b' => some .openTable
  | '\x7d' => some .closeTable
  | ',' => some .comma
  | '=' => some .equals
  | '\n' => some .newline
  | _ => none

/-- One character outside of tokens. -/
def stepBetween (previous c : Char) : Option (List Token × Mode) :=
  if isBlank c then some ([], .between c)
  else if c = '\r' then some ([], .carriage)
  else if c = '#' then some ([], .comment)
  else if c = '"' || c = '\'' then some ([], .quote c)
  else if isWord c then some ([], .word [c])
  else (ofChar? previous c).map fun t => ([t], .between c)

/-- A token ends before a character. -/
def stepAfter (t : Token) (c : Char) : Option (List Token × Mode) :=
  (stepBetween ' ' c).map fun (more, mode) => (t :: more, mode)

def stepText (q : Char) (multi : Bool) (seen : List Char) (c : Char) :
    Option (List Token × Mode) :=
  if c = q then
    if multi then some ([], .closing q seen 1) else some ([ofText seen true], .between c)
  else if c = '\\' && q = '"' then some ([], .escape multi seen)
  else if c = '\n' && multi then some ([], .text q multi (c :: seen))
  else if c = '\r' && multi then some ([], .textCarriage q seen false)
  else if isControl c then none
  else some ([], .text q multi (c :: seen))

def shortEscape? (c : Char) : Option Char :=
  match c with
  | '"' => some '"'
  | '\\' => some '\\'
  | 'b' => some (Char.ofNat 8)
  | 't' => some '\t'
  | 'n' => some '\n'
  | 'f' => some (Char.ofNat 12)
  | 'r' => some '\r'
  | 'e' => some (Char.ofNat 27)
  | _ => none

/-- How many digits an escape by number has after the first. -/
def codeLength? (c : Char) : Option Nat :=
  match c with
  | 'x' => some 1
  | 'u' => some 3
  | 'U' => some 7
  | _ => none

/-- One character after a backslash. -/
def stepEscape (multi : Bool) (seen : List Char) (c : Char) : Option Mode :=
  match shortEscape? c, codeLength? c with
  | some d, _ => some (.text '"' multi (d :: seen))
  | none, some left => some (.code multi seen left 0)
  | none, none =>
    if !multi then none
    else if isBlank c then some (.fold seen false false)
    else if c = '\n' then some (.fold seen true false)
    else if c = '\r' then some (.fold seen false true)
    else none

/-- One digit of an escape by number. -/
def stepCode (multi : Bool) (seen : List Char) (left value : Nat) (c : Char) : Option Mode :=
  (Text.hexValue? c).bind fun d =>
    let value := value * 16 + d
    match left with
    | 0 => if value.isValidChar then some (.text '"' multi (Char.ofNat value :: seen)) else none
    | left + 1 => some (.code multi seen left value)

/-- One character: the tokens it completes and the next mode, or nothing on a bad one. -/
def step (c : Char) : Mode → Option (List Token × Mode)
  | .between previous => stepBetween previous c
  | .comment =>
    if c = '\n' then some ([.newline], .between c)
    else if c = '\r' then some ([], .carriage)
    else if isControl c then none
    else some ([], .comment)
  | .carriage => if c = '\n' then some ([.newline], .between c) else none
  | .word seen =>
    if isWord c then some ([], .word (c :: seen))
    else if c = ' ' && isDate seen then some ([], .dateGap seen)
    else stepAfter (ofWord seen) c
  | .dateGap seen =>
    if c.isDigit then some ([], .word (c :: ' ' :: seen)) else stepAfter (ofWord seen) c
  | .quote q => if c = q then some ([], .quotes q) else stepText q false [] c
  | .quotes q => if c = q then some ([], .openMulti q) else stepAfter (ofText [] true) c
  | .openMulti q =>
    if c = '\n' then some ([], .text q true [])
    else if c = '\r' then some ([], .textCarriage q [] true)
    else stepText q true [] c
  | .text q multi seen => stepText q multi seen c
  | .closing q seen count =>
    if c = q then if count < 5 then some ([], .closing q seen (count + 1)) else none
    else if count < 3 then stepText q true (List.replicate count q ++ seen) c
    else stepAfter (ofText (List.replicate (count - 3) q ++ seen) false) c
  | .textCarriage q seen opening =>
    if c = '\n' then some ([], .text q true (if opening then [] else '\n' :: '\r' :: seen))
    else none
  | .escape multi seen => (stepEscape multi seen c).map fun mode => ([], mode)
  | .code multi seen left value => (stepCode multi seen left value c).map fun mode => ([], mode)
  | .fold seen ended carriage =>
    if carriage then if c = '\n' then some ([], .fold seen true false) else none
    else if isBlank c then some ([], .fold seen ended false)
    else if c = '\n' then some ([], .fold seen true false)
    else if c = '\r' then some ([], .fold seen ended true)
    else if ended then stepText '"' true seen c
    else none

def atEnd : Mode → List Token
  | .between _ => []
  | .comment => []
  | .word seen => [ofWord seen]
  | .dateGap seen => [ofWord seen]
  | .quotes _ => [ofText [] true]
  | .closing q seen count =>
    if count < 3 then [.bad] else [ofText (List.replicate (count - 3) q ++ seen) false]
  | _ => [.bad]

/-- The tokens of the characters from a mode on. -/
def scanFrom : Mode → List Char → List Token
  | mode, [] => atEnd mode
  | mode, c :: rest =>
    match step c mode with
    | some (tokens, mode) => tokens ++ scanFrom mode rest
    | none => [.bad]

/-- The tokens of a text.  A byte order mark at its beginning does not count. -/
def scan (s : String) : List Token :=
  match s.toList with
  | c :: rest => if c.toNat = 0xFEFF then scanFrom (.between ' ') rest
    else scanFrom (.between ' ') (c :: rest)
  | [] => []

end Token

end CorpusAgent.Toml
