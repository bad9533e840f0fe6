/-!
# Media types

A media type is a type and a subtype with a slash between them and possibly parameters after a
semicolon.  What follows the last plus sign of a subtype says on which format it is built.

* `isJson` holds of `application/json` and of the types of `application` that are built on JSON, in
  any case and with any parameters.
-/

namespace CorpusAgent.Http.MediaType

def isToken (c : Char) : Bool :=
  c.isAlphanum || "!#$%&'+-.^_|~".toList.contains c || c.toNat = 0x60

/-- A character between the quotes of a value. -/
def isQuotable (c : Char) : Bool := 0x20 ≤ c.toNat && c.toNat ≠ 0x7F

/-- Where the reading of parameters is. -/
inductive Mode where
  | beforeName
  | name
  | beforeValue
  | value
  | openQuote
  | quoted
  | afterQuote

/-- One character of parameters. -/
def step (c : Char) : Mode → Option Mode
  | .beforeName => if c = ' ' then some .beforeName else if isToken c then some .name else none
  | .name => if c = '=' then some .beforeValue else if isToken c then some .name else none
  | .beforeValue => if c = '"' then some .openQuote else if isToken c then some .value else none
  | .value => if c = ';' then some .beforeName else if isToken c then some .value else none
  | .openQuote => if isQuotable c then some .quoted else none
  | .quoted => if c = '"' then some .afterQuote else if isQuotable c then some .quoted else none
  | .afterQuote =>
    if c = ';' then some .beforeName else if c = ' ' then some .afterQuote else none

def mayEnd : Mode → Bool
  | .beforeName => true
  | .beforeValue => true
  | .value => true
  | .afterQuote => true
  | _ => false

/-- Well-formed parameters after their semicolon. -/
def areParameters (cs : List Char) : Bool :=
  (cs.foldlM (fun mode c => step c mode) Mode.beforeName).any mayEnd

/-- A subtype of JSON, or one that is built on it. -/
def isJsonSubtype (cs : List Char) : Bool :=
  let json := "json".toList
  let built := (cs.reverse.takeWhile (· ≠ '+')).reverse
  let own := cs.take (cs.length - built.length - 1)
  if built.length < cs.length && !own.isEmpty then own = json || built = json else cs = json

/-- A header value of visible characters, blanks and tabs. -/
def isVisible (s : String) : Bool :=
  s.toList.all fun c => (0x20 ≤ c.toNat && c.toNat < 0x7F) || c = '\t'

def isJson (s : String) : Bool :=
  let cs := s.toList.map Char.toLower
  let type := cs.takeWhile (· ≠ '/')
  let rest := (cs.dropWhile (· ≠ '/')).drop 1
  let subtype := rest.takeWhile (· ≠ ';')
  isVisible s && type = "application".toList && subtype.all isToken && isJsonSubtype subtype &&
    areParameters ((rest.dropWhile (· ≠ ';')).drop 1)

end CorpusAgent.Http.MediaType
