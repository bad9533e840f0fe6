import CorpusAgent.Number.Shortest

/-!
# Number text

How the shortest decimal of a number is written down.  A `Layout` fixes which decimal exponents are
written positionally, whether a whole number keeps a `.0`, which of two equally near decimals is
written, and the words for the numbers that have no decimal.

* `Layout.json`: positional from `10 ^ -5` up to `10 ^ 16`, with at least one digit after the point;
  outside, one digit before the point and a signed exponent; ties go to the even digit.
* `Layout.plain`: always positional, without a point in whole numbers; ties go away from zero.
-/

namespace CorpusAgent

/-- The choices in writing a number. -/
structure Layout where
  /-- The decimal exponents of the first digit that are written positionally; all if absent. -/
  positional : Option (Int × Int)
  /-- A whole number in positional writing ends in `.0`. -/
  wholePoint : Bool
  /-- The choice between two decimals that are equally near. -/
  tie : Decimal.Tie
  nan : String
  infinity : String

/-- The layout of numbers in JSON text.  JSON has no word for the other numbers. -/
def Layout.json : Layout := ⟨some (-5, 16), true, .even, "null", "null"⟩

/-- The layout of numbers in running text and in vectors. -/
def Layout.plain : Layout := ⟨none, false, .away, "NaN", "inf"⟩

namespace Layout

def zeros (n : Nat) : String := String.ofList (List.replicate n '0')

/-- Digits with the point where the exponent puts it. -/
def positionalText (l : Layout) (digits : List Char) (exponent : Int) : String :=
  let text := String.ofList
  if 0 ≤ exponent then
    text digits ++ zeros exponent.toNat ++ (if l.wholePoint then ".0" else "")
  else
    let places := (-exponent).toNat
    if places < digits.length then
      text (digits.take (digits.length - places)) ++ "." ++
        text (digits.drop (digits.length - places))
    else "0." ++ zeros (places - digits.length) ++ text digits

/-- One digit, the point and the others, and the power of ten with its sign. -/
def exponentText (digits : List Char) (top : Int) : String :=
  let rest := digits.drop 1
  String.ofList (digits.take 1) ++ (if rest.isEmpty then "" else "." ++ String.ofList rest) ++
    "e" ++ (if top < 0 then "-" else "+") ++ toString top.natAbs

/-- The text of a decimal. -/
def decimalText (l : Layout) (d : Decimal) : String :=
  let digits := Decimal.digitsOf d.digits
  let top := d.exponent + digits.length - 1
  match l.positional with
  | none => l.positionalText digits d.exponent
  | some (least, bound) =>
    if d.digits = 0 || (least ≤ top && top < bound) then l.positionalText digits d.exponent
    else exponentText digits top

end Layout

def Binary.text {f : Format} (l : Layout) : Binary f → String
  | .nan => l.nan
  | .infinite s => (if s then "-" else "") ++ l.infinity
  | .finite s m e => (if s then "-" else "") ++ l.decimalText (Decimal.shortest f l.tie m e)

end CorpusAgent
