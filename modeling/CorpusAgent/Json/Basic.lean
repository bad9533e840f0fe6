import CorpusAgent.Number.Binary

/-!
# JSON values

A JSON value is a tree of objects and lists over texts, numbers, truth values and `null`.  An object
lists its members in ascending order of their names, each name once: `Json.ofMembers` builds one
from members in any order, where the last value given for a name counts.

A number is an integer, in JSON text one of 64 bits, signed or unsigned, or a 64-bit binary number.
-/

namespace CorpusAgent

inductive Number where
  | integer (value : Int)
  | decimal (value : Double)
  deriving DecidableEq, Repr

inductive Json where
  | null
  | bool (value : Bool)
  | number (value : Number)
  | text (value : String)
  | list (items : List Json)
  | object (members : List (String × Json))
  deriving Inhabited, Repr

namespace Number

/-- The number as a 64-bit binary number, rounded if it has too many digits. -/
def toDouble : Number → Double
  | .integer i => Binary.ofInt .double i
  | .decimal x => x

/-- The number as a 32-bit binary number. -/
def toSingle : Number → Single
  | .integer i => Binary.ofInt .single i
  | .decimal x => x.toFormat .single

end Number

namespace Json

/-- Puts a member at its place; it replaces one of the same name. -/
def insertMember (name : String) (value : Json) : List (String × Json) → List (String × Json)
  | [] => [(name, value)]
  | (k, v) :: rest =>
    if name < k then (name, value) :: (k, v) :: rest
    else if name = k then (name, value) :: rest
    else (k, v) :: insertMember name value rest

/-- The object of the given members; the last value for a name counts. -/
def ofMembers (members : List (String × Json)) : Json :=
  .object (members.foldl (fun acc m => insertMember m.1 m.2 acc) [])

def find? (name : String) : List (String × Json) → Option Json
  | [] => none
  | (k, v) :: rest => if k = name then some v else find? name rest

/-- The member of an object; nothing has no members. -/
def member? (name : String) : Json → Option Json
  | .object members => find? name members
  | _ => none

def text? : Json → Option String
  | .text s => some s
  | _ => none

def list? : Json → Option (List Json)
  | .list items => some items
  | _ => none

def object? : Json → Option (List (String × Json))
  | .object members => some members
  | _ => none

def bool? : Json → Option Bool
  | .bool b => some b
  | _ => none

def number? : Json → Option Number
  | .number n => some n
  | _ => none

/-- The value of a number as a natural number up to a bound; a decimal is none. -/
def nat? (bound : Nat) : Json → Option Nat
  | .number (.integer i) => if 0 ≤ i ∧ i ≤ bound then some i.toNat else none
  | _ => none

def ofNat (n : Nat) : Json := .number (.integer n)

def ofText? : Option String → Json
  | some s => .text s
  | none => .null

def ofTexts (texts : List String) : Json := .list (texts.map .text)

/-- A 32-bit number, widened to 64 bits.  A number that is not finite is `null`. -/
def ofSingle (x : Single) : Json :=
  if x.isFinite then .number (.decimal (x.toFormat .double)) else .null

end Json

end CorpusAgent
