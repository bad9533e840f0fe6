import CorpusAgent.Text.Hidden
import CorpusAgent.Text.Hex

/-!
# Quoted text

How a name from outside stands in a message: in double quotes, with escapes for the quote, the
backslash, the usual controls and every character that has no visible shape of its own.
-/

namespace CorpusAgent.Text

/-- The character inside quotes. -/
def quotedChar (c : Char) : List Char :=
  if c = '"' then ['\\', '"']
  else if c = '\\' then ['\\', '\\']
  else if c = '\n' then ['\\', 'n']
  else if c = '\r' then ['\\', 'r']
  else if c = '\t' then ['\\', 't']
  else if c.toNat = 0 then ['\\', '0']
  else if isHidden c then
    ['\\', 'u', '\x7b'] ++ Nat.toDigits 16 c.toNat ++ ['\x7d']
  else [c]

/-- The text in quotes. -/
def quoted (s : String) : String :=
  "\"" ++ String.ofList (s.toList.flatMap quotedChar) ++ "\""

end CorpusAgent.Text
