import CorpusAgent.Json.Basic
import CorpusAgent.Number.Layout
import CorpusAgent.Text.Hex

/-!
# JSON text

`Json.print` writes a value without white space.  In a text, the quote and the backslash are
escaped, the five usual controls have short escapes, the other controls are written with four
hexadecimal digits, and everything else stands for itself.
-/

namespace CorpusAgent

/-- The number as text: an integer in decimal, another number by its shortest decimal. -/
def Number.print : Number → String
  | .integer i => toString i
  | .decimal x => x.text .json

namespace Json

/-- The character inside a JSON text. -/
def escapeChar (c : Char) : List Char :=
  if c = '"' then ['\\', '"']
  else if c = '\\' then ['\\', '\\']
  else if c.toNat = 8 then ['\\', 'b']
  else if c.toNat = 9 then ['\\', 't']
  else if c.toNat = 10 then ['\\', 'n']
  else if c.toNat = 12 then ['\\', 'f']
  else if c.toNat = 13 then ['\\', 'r']
  else if c.toNat < 0x20 then
    ['\\', 'u', '0', '0', Text.hexDigit (c.toNat / 16), Text.hexDigit (c.toNat % 16)]
  else [c]

/-- A text in quotes. -/
def quote (s : String) : String :=
  "\"" ++ String.ofList (s.toList.flatMap escapeChar) ++ "\""

mutual

/-- The value as JSON text without white space. -/
def print : Json → String
  | .null => "null"
  | .bool true => "true"
  | .bool false => "false"
  | .number n => n.print
  | .text s => quote s
  | .list items => "[" ++ ",".intercalate (printItems items) ++ "]"
  | .object members => "\x7b" ++ ",".intercalate (printMembers members) ++ "\x7d"

def printItems : List Json → List String
  | [] => []
  | item :: rest => print item :: printItems rest

def printMembers : List (String × Json) → List String
  | [] => []
  | (name, value) :: rest => (quote name ++ ":" ++ print value) :: printMembers rest

end

end Json

end CorpusAgent
