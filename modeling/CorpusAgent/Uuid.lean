import CorpusAgent.Text.Hex

/-!
# Identifiers of documents and chunks

An identifier is a number of 128 bits, written as 32 hexadecimal digits in groups of 8, 4, 4, 4
and 12.  It is also read without the hyphens, in braces and after `urn:uuid:`.
-/

namespace CorpusAgent

/-- An identifier of 128 bits. -/
structure Uuid where
  value : Nat
  deriving DecidableEq, Repr

namespace Uuid

def nil : Uuid := ⟨0⟩

/-- The digits without the hyphens of the grouped form. -/
def ungroup? (cs : List Char) : Option (List Char) :=
  let hyphens := [8, 13, 18, 23]
  if cs.length = 36 && hyphens.all (fun i => cs[i]? == some '-') then
    some ((cs.zipIdx.filter fun p => !hyphens.contains p.2).map (·.1))
  else if cs.length = 32 then some cs
  else none

/-- The grouped form within its wrapping, if it has one. -/
def unwrap (cs : List Char) : List Char :=
  if cs.head? = some '\x7b' && cs.getLast? = some '\x7d' then cs.dropLast.drop 1
  else if cs.take 9 = "urn:uuid:".toList then cs.drop 9
  else cs

def ofText? (s : String) : Option Uuid :=
  let cs := unwrap s.toList
  if cs.length < s.length && cs.length ≠ 36 then none
  else ((ungroup? cs).bind Text.hexNumber?).map Uuid.mk

/-- The last `count` hexadecimal digits of a number. -/
def hexDigits : Nat → Nat → List Char
  | 0, _ => []
  | count + 1, n => hexDigits count (n / 16) ++ [Text.hexDigit (n % 16)]

def text (u : Uuid) : String :=
  let cs := hexDigits 32 u.value
  let group (start size : Nat) : String := String.ofList ((cs.drop start).take size)
  "-".intercalate [group 0 8, group 8 4, group 12 4, group 16 4, group 20 12]

end Uuid

end CorpusAgent
