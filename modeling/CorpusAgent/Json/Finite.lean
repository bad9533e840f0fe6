import CorpusAgent.Json.Basic
import CorpusAgent.Number.Layout

/-!
# Numbers that JSON can hold

JSON text has no infinities, no `nan` and no integers beyond 64 bits.  `Json.finite?` puts `null`
in the place of the first two and refuses the last.  `Json.ofShortest` writes a 32-bit number by
its own shortest decimal instead of that of the 64-bit number it widens to.
-/

namespace CorpusAgent.Json

/-- The number fits 64 bits. -/
def isNarrow : Number → Bool
  | .integer i => -(twoTo 63 : Int) ≤ i && i < (twoTo 64 : Int)
  | .decimal _ => true

mutual

/-- The value with `null` for every number that is not finite; an integer has to fit 64 bits. -/
def finite? : Json → Option Json
  | .number (.decimal x) => some (if x.isFinite then .number (.decimal x) else .null)
  | .number (.integer i) =>
    if isNarrow (.integer i) then some (.number (.integer i)) else none
  | .null => some .null
  | .bool b => some (.bool b)
  | .text s => some (.text s)
  | .list items => (finiteItems? items).map .list
  | .object members => (finiteMembers? members).map .object

/-- The items with `null` for every number that is not finite. -/
def finiteItems? : List Json → Option (List Json)
  | [] => some []
  | v :: rest =>
    match finite? v, finiteItems? rest with
    | some v, some rest => some (v :: rest)
    | _, _ => none

/-- The members with `null` for every number that is not finite. -/
def finiteMembers? : List (String × Json) → Option (List (String × Json))
  | [] => some []
  | (name, v) :: rest =>
    match finite? v, finiteMembers? rest with
    | some v, some rest => some ((name, v) :: rest)
    | _, _ => none

end

/-- A 32-bit number from a number; an integer has to fit 64 bits. -/
def single? : Json → Option Single
  | .number n => if isNarrow n then some n.toSingle else none
  | _ => none

/-- The 64-bit number nearest to a decimal. -/
def ofDecimal (negative : Bool) (d : Decimal) : Double :=
  Binary.round .double negative (d.digits * tenTo d.exponent.toNat) (tenTo (-d.exponent).toNat)

/-- A 32-bit number by its own shortest decimal; `null` if it is not finite. -/
def ofShortest : Single → Json
  | .finite negative m e =>
    .number (.decimal (ofDecimal negative (Decimal.shortest .single Layout.json.tie m e)))
  | _ => .null

end CorpusAgent.Json
