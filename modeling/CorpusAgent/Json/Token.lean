import CorpusAgent.Json.Numeral
import CorpusAgent.Text.Hex

/-!
# JSON tokens

`Token.scan` cuts a text into the tokens of JSON.  White space is the space, the tab and the two
line ends.  Text that is no token ends the list with `Token.bad`.

The scanner walks once over the characters.  Its `Mode` is what it has begun: nothing, a literal, a
numeral, or a text with the characters read so far.  A token ends as soon as it is complete: a
literal with its last letter, a numeral before the first character that cannot continue it.  Tokens
need no space between them, so text that goes wrong after a token still has that token.

A numeral out of range and a text with half a surrogate pair are in good form, but have no value.
-/

namespace CorpusAgent.Json

inductive Token where
  | openList
  | closeList
  | openObject
  | closeObject
  | comma
  | colon
  | null
  | bool (value : Bool)
  | number (value : Number)
  /-- A numeral beyond the greatest finite number. -/
  | outOfRange
  /-- A text; nothing if it has half a surrogate pair. -/
  | text (value : Option String)
  /-- Characters that are no token. -/
  | bad
  deriving DecidableEq, Repr

namespace Token

/-- What the scanner has begun; characters read are kept in reverse.  A text with half a surrogate
pair keeps none. -/
inductive Mode where
  | between
  /-- Inside a literal: the letters still to come. -/
  | literal (t : Token) (next : Char) (rest : List Char)
  | numeral (seen : List Char)
  | text (seen : Option (List Char))
  | escape (seen : Option (List Char))
  /-- Inside `\u`: digits still to come, the value so far and the high surrogate before it. -/
  | unicode (seen : Option (List Char)) (left : Nat) (value : Nat) (high : Option Nat)
  /-- After a high surrogate: the backslash and the letter of its partner are due. -/
  | partner (seen : Option (List Char)) (high : Nat) (backslash : Bool)
  /-- After a bad token. -/
  | lost

/-- What one character leads to: the tokens it completes and what is begun then. -/
abbrev Progress := List Token × Mode

/-- A character that is wrong where it stands. -/
def wrong : Progress := ([.bad], .lost)

/-- The token of one delimiter. -/
def delimiter? (c : Char) : Option Token :=
  match c with
  | '[' => some .openList
  | ']' => some .closeList
  | '\x7b' => some .openObject
  | '\x7d' => some .closeObject
  | ',' => some .comma
  | ':' => some .colon
  | _ => none

/-- The white space of JSON. -/
def isGap (c : Char) : Bool := c = ' ' || c = '\t' || c = '\n' || c = '\r'

/-- A numeral may go on with a character: with a digit, with the first point or exponent letter
after a digit, or with a sign after that letter. -/
def continues (seen : List Char) (c : Char) : Bool :=
  let afterDigit := seen.head?.any Char.isDigit
  if c.isDigit then true
  else if c = '.' then afterDigit && !seen.any fun d => d = '.' || d = 'e' || d = 'E'
  else if c = 'e' || c = 'E' then afterDigit && !seen.any fun d => d = 'e' || d = 'E'
  else if c = '+' || c = '-' then seen.head? = some 'e' || seen.head? = some 'E'
  else false

/-- The token of a numeral in reverse. -/
def ofNumeral (seen : List Char) : Token :=
  match Numeral.read seen.reverse with
  | .value n => .number n
  | .outOfRange => .outOfRange
  | .malformed => .bad

def shortEscape? (c : Char) : Option Char :=
  match c with
  | '"' => some '"'
  | '\\' => some '\\'
  | '/' => some '/'
  | 'b' => some (Char.ofNat 8)
  | 'f' => some (Char.ofNat 12)
  | 'n' => some '\n'
  | 'r' => some '\r'
  | 't' => some '\t'
  | _ => none

/-- One more character of a text. -/
def more (seen : Option (List Char)) (c : Char) : Mode := .text (seen.map (c :: ·))

/-- What a complete unit of an escape leads to: a character, a wait for its partner, or half a
pair. -/
def afterUnit (seen : Option (List Char)) (value : Nat) : Option Nat → Mode
  | none =>
    if 0xD800 ≤ value && value ≤ 0xDBFF then .partner seen value false
    else if 0xDC00 ≤ value && value ≤ 0xDFFF then .text none
    else more seen (Char.ofNat value)
  | some high =>
    if 0xDC00 ≤ value && value ≤ 0xDFFF then
      more seen (Char.ofNat (0x10000 + (high - 0xD800) * 0x400 + (value - 0xDC00)))
    else .text none

/-- One character between tokens. -/
def stepBetween (c : Char) : Progress :=
  if isGap c then ([], .between)
  else if c = '"' then ([], .text (some []))
  else if c = '-' || c.isDigit then ([], .numeral [c])
  else if c = 'n' then ([], .literal .null 'u' ['l', 'l'])
  else if c = 't' then ([], .literal (.bool true) 'r' ['u', 'e'])
  else if c = 'f' then ([], .literal (.bool false) 'a' ['l', 's', 'e'])
  else
    match delimiter? c with
    | some t => ([t], .between)
    | none => wrong

/-- One character of a literal. -/
def stepLiteral (t : Token) (next : Char) (rest : List Char) (c : Char) : Progress :=
  if c = next then
    match rest with
    | [] => ([t], .between)
    | d :: more => ([], .literal t d more)
  else wrong

/-- One character during or right after a numeral. -/
def stepNumeral (seen : List Char) (c : Char) : Progress :=
  if continues seen c then ([], .numeral (c :: seen))
  else
    let (tokens, mode) := stepBetween c
    (ofNumeral seen :: tokens, mode)

def stepText (seen : Option (List Char)) (c : Char) : Progress :=
  if c = '"' then ([.text (seen.map fun cs => String.ofList cs.reverse)], .between)
  else if c = '\\' then ([], .escape seen)
  else if c.toNat < 0x20 then wrong
  else ([], more seen c)

/-- One character after a backslash. -/
def stepEscape (seen : Option (List Char)) (c : Char) : Progress :=
  if c = 'u' then ([], .unicode seen 3 0 none)
  else
    match shortEscape? c with
    | some d => ([], more seen d)
    | none => wrong

/-- One digit of an escape by number. -/
def stepUnicode (seen : Option (List Char)) (left value : Nat) (high : Option Nat) (c : Char) :
    Progress :=
  match Text.hexValue? c, left with
  | some d, 0 => ([], afterUnit seen (value * 16 + d) high)
  | some d, left + 1 => ([], .unicode seen left (value * 16 + d) high)
  | none, _ => wrong

/-- One character in any mode. -/
def step (c : Char) : Mode → Progress
  | .between => stepBetween c
  | .literal t next rest => stepLiteral t next rest c
  | .numeral seen => stepNumeral seen c
  | .text seen => stepText seen c
  | .escape seen => stepEscape seen c
  | .unicode seen left value high => stepUnicode seen left value high c
  | .partner seen high false =>
    if c = '\\' then ([], .partner seen high true) else stepText none c
  | .partner seen high true =>
    if c = 'u' then ([], .unicode seen 3 0 (some high)) else stepEscape none c
  | .lost => ([], .lost)

def atEnd : Mode → List Token
  | .between => []
  | .numeral seen => [ofNumeral seen]
  | .lost => []
  | _ => [.bad]

/-- The tokens of the characters from a mode on. -/
def scanFrom : Mode → List Char → List Token
  | mode, [] => atEnd mode
  | mode, c :: rest =>
    let (tokens, mode) := step c mode
    tokens ++ scanFrom mode rest

def scan (s : String) : List Token := scanFrom .between s.toList

end Token

end CorpusAgent.Json
