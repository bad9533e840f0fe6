import CorpusAgent.Number.Binary

/-!
# Shortest decimals

The shortest decimal of a finite number is the one with the fewest digits among the decimals that
round back to it, and among those the nearest to it.  If two are equally near, a rule says which one
counts: the one with the even last digit, or the one with the greater magnitude.

The decimals that round back to `m * 2 ^ e` fill the interval between the midpoints to its two
neighbours; the midpoints belong to it exactly if `m` is even.  A decimal with a given number of
digits lies in the interval only if one of the two that enclose the value does, so
`Interval.search` looks at these two for 1, 2, … digits.
-/

namespace CorpusAgent

/-- The decimal `digits * 10 ^ exponent`. -/
structure Decimal where
  digits : Nat
  exponent : Int
  deriving DecidableEq, Repr

namespace Decimal

def digitsOf (n : Nat) : List Char := Nat.toDigits 10 n

/-- The exponent of the greatest power of ten that is at most `num / den`. -/
def quotientLog10 (num den : Nat) : Int :=
  if den ≤ num then ((digitsOf (num / den)).length : Int) - 1
  else
    let l := (digitsOf (den / num)).length - 1
    if den ≤ num * tenTo l then -(l : Int) else -(l : Int) - 1

/-- The same decimal without zeros at the end of its digits. -/
def stripZeros : Nat → Decimal → Decimal
  | 0, d => d
  | fuel + 1, d =>
    if d.digits % 10 = 0 then stripZeros fuel ⟨d.digits / 10, d.exponent + 1⟩ else d

/-- Which one of two equally near decimals counts. -/
inductive Tie where
  /-- The one with the even last digit. -/
  | even
  /-- The one with the greater magnitude. -/
  | away
  deriving DecidableEq, Repr

/-- In a tie the lower one of two neighbours counts, whose last digit is given. -/
def Tie.keeps (t : Tie) (digits : Nat) : Bool := t = .even && digits % 2 = 0

/-- The numbers that round to `m * 2 ^ e`, in quarters of `2 ^ e` above a common denominator. -/
structure Interval where
  value : Nat
  low : Nat
  high : Nat
  denominator : Nat
  closed : Bool

/-- The interval of a finite number of the format. -/
def Interval.of (f : Format) (m : Nat) (e : Int) : Interval :=
  let scale := twoTo (e - 2).toNat
  let narrow := m = twoTo (f.precision - 1) ∧ f.minExponent < e
  { value := 4 * m * scale
    low := (if narrow then 4 * m - 1 else 4 * m - 2) * scale
    high := (4 * m + 2) * scale
    denominator := twoTo (2 - e).toNat
    closed := m % 2 = 0 }

/-- The decimal lies in the interval. -/
def Interval.holds (i : Interval) (d : Decimal) : Bool :=
  let x := d.digits * tenTo d.exponent.toNat * i.denominator
  let unit := tenTo (-d.exponent).toNat
  if i.closed then i.low * unit ≤ x && x ≤ i.high * unit
  else i.low * unit < x && x < i.high * unit

/-- The better one of the two decimals with last digit at `10 ^ exponent` that enclose the value,
if one of them lies in the interval. -/
def Interval.onGrid? (i : Interval) (tie : Tie) (exponent : Int) : Option Decimal :=
  let num := i.value * tenTo (-exponent).toNat
  let den := i.denominator * tenTo exponent.toNat
  let below : Decimal := ⟨num / den, exponent⟩
  let above : Decimal := ⟨num / den + 1, exponent⟩
  let rest := num % den
  match i.holds below, i.holds above with
  | true, true =>
    if 2 * rest < den || (2 * rest = den && tie.keeps below.digits) then some below
    else some above
  | true, false => some below
  | false, true => some above
  | false, false => none

/-- The first hit with `count`, `count + 1`, … digits. -/
def Interval.search (i : Interval) (tie : Tie) (top : Int) : Nat → Nat → Option Decimal
  | 0, _ => none
  | fuel + 1, count =>
    match i.onGrid? tie (top - (count - 1 : Nat)) with
    | some d => some d
    | none => i.search tie top fuel (count + 1)

/-- The shortest decimal of `m * 2 ^ e` in the format; twenty digits are always enough. -/
def shortest (f : Format) (tie : Tie) (m : Nat) (e : Int) : Decimal :=
  if m = 0 then ⟨0, 0⟩
  else
    let i := Interval.of f m e
    match i.search tie (quotientLog10 i.value i.denominator) 20 1 with
    | some d => stripZeros 400 d
    | none => ⟨m, 0⟩

end Decimal

end CorpusAgent
