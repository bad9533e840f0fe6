/-!
# Hexadecimal digits
-/

namespace CorpusAgent.Text

def hexValue? (c : Char) : Option Nat :=
  if c.isDigit then some (c.toNat - 48)
  else if 'a' ≤ c && c ≤ 'f' then some (c.toNat - 87)
  else if 'A' ≤ c && c ≤ 'F' then some (c.toNat - 55)
  else none

def hexDigit (n : Nat) : Char := Nat.digitChar n

/-- The value of a row of hexadecimal digits. -/
def hexNumber? (cs : List Char) : Option Nat :=
  cs.foldl (fun acc c =>
    match acc, hexValue? c with
    | some n, some d => some (n * 16 + d)
    | _, _ => none) (some 0)

end CorpusAgent.Text
