import CorpusAgent.Catalog
import CorpusAgent.Json.Printer
import Mathlib.Data.List.Infix

/-!
# Document rows

What a condition is evaluated over: the source id of a document, if it has one, and three stored
JSON values, one for each origin of metadata.

* `Jsonb` is a stored JSON value.  Its numbers are decimals of any size, and an object has each name
  at most once; a look-up takes the first.
* `Jsonb.text?` is the text of a value: nothing for `null`, the text itself for a text, and the
  written value for all others.
* `btrim` removes the spaces at the ends of a text, and no other white space.
* `strpos` is the place of the first occurrence of a text in another one, counted from 1, or 0.
-/

namespace CorpusAgent.Sql

/-- A stored JSON value.  A number is `digits` with so many of them after the point. -/
inductive Jsonb where
  | null
  | bool (value : Bool)
  | number (digits : Int) (scale : Nat)
  | text (value : String)
  | list (items : List Jsonb)
  | object (members : List (String × Jsonb))
  deriving Repr

namespace Jsonb

/-- A decimal, with at least one digit before the point. -/
def decimalText (digits : Int) (scale : Nat) : String :=
  let ds := Nat.toDigits 10 digits.natAbs
  let all := List.replicate (scale + 1 - ds.length) '0' ++ ds
  (if digits < 0 then "-" else "") ++ String.ofList (all.take (all.length - scale)) ++
    (if scale = 0 then "" else "." ++ String.ofList (all.drop (all.length - scale)))

mutual

/-- The written value, with a space after each comma and each colon. -/
def print : Jsonb → String
  | .null => "null"
  | .bool true => "true"
  | .bool false => "false"
  | .number digits scale => decimalText digits scale
  | .text s => Json.quote s
  | .list items => "[" ++ ", ".intercalate (printItems items) ++ "]"
  | .object members => "\x7b" ++ ", ".intercalate (printMembers members) ++ "\x7d"

/-- The written items of a list. -/
def printItems : List Jsonb → List String
  | [] => []
  | v :: rest => v.print :: printItems rest

/-- The written members of an object. -/
def printMembers : List (String × Jsonb) → List String
  | [] => []
  | (name, v) :: rest => (Json.quote name ++ ": " ++ v.print) :: printMembers rest

end

/-- The value as text. -/
def text? : Jsonb → Option String
  | .null => none
  | .text s => some s
  | v => some v.print

/-- The member of an object; nothing else has members. -/
def member? (name : String) : Jsonb → Option Jsonb
  | .object members => (members.find? fun m => m.1 == name).map (·.2)
  | _ => none

end Jsonb

/-- A document, as conditions see it. -/
structure Row where
  sourceId : Option String
  metadata : Origin → Jsonb

/-- The value at a key of one origin. -/
def Row.member? (row : Row) (origin : Origin) (key : String) : Option Jsonb :=
  (row.metadata origin).member? key

/-- The text without the spaces at its ends. -/
def btrim (s : String) : String :=
  String.ofList (((s.toList.dropWhile (· == ' ')).reverse.dropWhile (· == ' ')).reverse)

/-- The place of the first occurrence from a place on, or 0. -/
def strposFrom (needle : List Char) : Nat → List Char → Nat
  | place, [] => if needle.isPrefixOf [] then place else 0
  | place, c :: rest =>
    if needle.isPrefixOf (c :: rest) then place else strposFrom needle (place + 1) rest

/-- The place of the first occurrence, counted from 1, or 0 without one. -/
def strpos (haystack needle : String) : Nat := strposFrom needle.toList 1 haystack.toList

theorem strposFrom_pos_iff (needle : List Char) {place : Nat} (hp : 0 < place)
    (haystack : List Char) : 0 < strposFrom needle place haystack ↔ needle <:+: haystack := by
  induction haystack generalizing place with
  | nil =>
    have hi : needle <:+: [] ↔ needle.isPrefixOf [] = true := by
      rw [List.isPrefixOf_iff_prefix, List.prefix_nil, List.infix_nil]
    rw [strposFrom, hi]
    split <;> simp_all
  | cons c rest ih =>
    rw [strposFrom, List.infix_cons_iff, ← List.isPrefixOf_iff_prefix]
    by_cases h : needle.isPrefixOf (c :: rest) = true
    · simp [h, hp]
    · rw [if_neg h, ih (Nat.succ_pos place)]
      simp [h]

/-- A text has a place in another one exactly if it is a part of it. -/
theorem strpos_pos_iff (haystack needle : String) :
    0 < strpos haystack needle ↔ needle.toList <:+: haystack.toList :=
  strposFrom_pos_iff needle.toList Nat.one_pos haystack.toList

end CorpusAgent.Sql
