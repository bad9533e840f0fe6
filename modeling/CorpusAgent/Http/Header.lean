import CorpusAgent.Json.Basic
import CorpusAgent.Text.Quoted

/-!
# Headers of requests to endpoints

A request carries the key of the endpoint as a bearer token and the default headers of its settings.
Names do not distinguish case; they are written in lower case, and a later value for a name replaces
an earlier one, so that default headers can even replace the token.

* `headers` is the list of names and values in ascending order of names, or the first fault.
-/

namespace CorpusAgent.Http

inductive HeaderFault where
  | notText (name : String)
  | badName
  | badValue
  deriving DecidableEq, Repr

def HeaderFault.message : HeaderFault → String
  | .notText name => "Default header " ++ Text.quoted name ++ " must be a string."
  | .badName => "invalid HTTP header name"
  | .badValue => "failed to parse header value"

def maxNameBytes : Nat := 65535

def isNameChar (c : Char) : Bool :=
  c.isAlphanum || "!#$%&'*+-.^_|~".toList.contains c || c.toNat = 0x60

def name? (name : String) : Option String :=
  if !name.isEmpty && name.utf8ByteSize ≤ maxNameBytes && name.toList.all isNameChar then
    some (String.ofList (name.toList.map Char.toLower))
  else none

/-- A character of a value: any but the controls other than tab. -/
def isValueChar (c : Char) : Bool := (0x20 ≤ c.toNat && c.toNat ≠ 0x7F) || c = '\t'

/-- The text can be the value of a header. -/
def isValue (value : String) : Bool := value.toList.all isValueChar

/-- Puts a header at its place; it replaces one of the same name. -/
def put (name value : String) : List (String × String) → List (String × String)
  | [] => [(name, value)]
  | (n, v) :: rest =>
    if name < n then (name, value) :: (n, v) :: rest
    else if name = n then (name, value) :: rest
    else (n, v) :: put name value rest

/-- The headers with one entry of the default headers. -/
def putEntry (headers : List (String × String)) (entry : String × Json) :
    Except HeaderFault (List (String × String)) :=
  match entry.2 with
  | .text value =>
    match name? entry.1 with
    | none => .error .badName
    | some name => if isValue value then .ok (put name value headers) else .error .badValue
  | _ => .error (.notText entry.1)

/-- The headers of a request. -/
def headers (apiKey : String) (defaults : List (String × Json)) :
    Except HeaderFault (List (String × String)) :=
  let token := "Bearer " ++ apiKey
  if isValue token then defaults.foldlM putEntry [("authorization", token)]
  else .error .badValue

end CorpusAgent.Http
