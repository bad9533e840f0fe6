import CorpusAgent.Json.Basic

/-!
# Numerals

A numeral is an optional minus, whole digits without a leading zero, optionally a point with digits
and optionally an exponent.

A numeral of whole digits alone is an integer if 64 bits hold it.  Every other numeral is read in
two steps: the leading digits that fit 64 bits make a significand, the rest only counts for the
exponent; then the significand, as a 64-bit number, is multiplied or divided by the power of ten,
itself a 64-bit number.  Each step rounds, so the result can differ from the nearest number in the
last digit.  A numeral beyond the greatest finite number is out of range.
-/

namespace CorpusAgent.Json.Numeral

/-- What a run of characters is as a numeral. -/
inductive Reading where
  | value (n : Number)
  | outOfRange
  | malformed
  deriving DecidableEq, Repr

def digitValue (c : Char) : Nat := c.toNat - 48

def maxSignificand : Nat := twoTo 64 - 1

/-- Takes digits into the significand as long as it fits; the digits left over. -/
def accumulate (significand : Nat) : List Char → Nat × List Char
  | [] => (significand, [])
  | d :: rest =>
    let next := significand * 10 + digitValue d
    if next ≤ maxSignificand then accumulate next rest else (significand, d :: rest)

/-- The greatest power of ten that a single step scales by. -/
def maxStep : Nat := 308

/-- A power of ten as a 64-bit number. -/
def powerOfTen (n : Nat) : Double := Binary.ofNat .double (tenTo n)

/-- The number scaled by a power of ten, in steps of at most `10 ^ 308`; nothing if a product is
infinite. -/
def scale : Nat → Double → Int → Option Double
  | 0, _, _ => none
  | fuel + 1, x, exponent =>
    if exponent.natAbs ≤ maxStep then
      if 0 ≤ exponent then
        let y := x.mul (powerOfTen exponent.natAbs)
        if y.isFinite then some y else none
      else some (x.div (powerOfTen exponent.natAbs))
    else if x.isZero then some x
    else if 0 ≤ exponent then none
    else scale fuel (x.div (powerOfTen maxStep)) (exponent + maxStep)

/-- The significand times a power of ten, with a sign.  After four downward steps every number is
zero, so six are enough. -/
def scaled (negative : Bool) (significand : Nat) (exponent : Int) : Reading :=
  match scale 6 (Binary.ofNat .double significand) exponent with
  | some x => .value (.decimal (if negative then x.neg else x))
  | none => .outOfRange

def maxExponent : Nat := twoTo 31 - 1

/-- An integer if 64 bits hold it. -/
def whole (negative : Bool) (significand : Nat) : Number :=
  if negative then
    if significand = 0 ∨ twoTo 63 < significand then
      .decimal (Binary.ofNat .double significand).neg
    else .integer (-(significand : Int))
  else .integer significand

/-- The exponent as written, or the sign of one that is too great. -/
structure Exponent where
  negative : Bool
  digits : List Char

/-- The number of the parts of a well-formed numeral. -/
def ofParts (negative : Bool) (wholeDigits : List Char) (fraction : Option (List Char))
    (exponent : Option Exponent) : Reading :=
  let (significand, rest) := accumulate 0 wholeDigits
  if rest.isEmpty && fraction.isNone && exponent.isNone then .value (whole negative significand)
  else
    let places := fraction.getD []
    let (significand, unread) := accumulate significand places
    let shift : Int := (rest.length : Int) - (places.length - unread.length : Nat)
    match exponent with
    | none => scaled negative significand shift
    | some e =>
      let written := e.digits.foldl (fun n d => n * 10 + digitValue d) 0
      if maxExponent < written then
        if significand ≠ 0 && !e.negative then .outOfRange
        else .value (.decimal (Binary.zero negative))
      else
        let sum := if e.negative then shift - written else shift + written
        scaled negative significand (max (-maxExponent - 1) (min maxExponent sum))

/-- The digits at the front and what follows them. -/
def spanDigits (cs : List Char) : List Char × List Char :=
  (cs.takeWhile Char.isDigit, cs.dropWhile Char.isDigit)

/-- The exponent part after its letter. -/
def exponentOf (cs : List Char) : Option Exponent :=
  let (negative, digits) :=
    match cs with
    | '-' :: rest => (true, rest)
    | '+' :: rest => (false, rest)
    | _ => (false, cs)
  if digits.isEmpty || !digits.all Char.isDigit then none else some ⟨negative, digits⟩

/-- A numeral after its sign, whole digits and fraction. -/
def finish (negative : Bool) (wholeDigits : List Char) (fraction : Option (List Char)) :
    List Char → Reading
  | [] => ofParts negative wholeDigits fraction none
  | c :: rest =>
    if c = 'e' || c = 'E' then
      match exponentOf rest with
      | some e => ofParts negative wholeDigits fraction (some e)
      | none => .malformed
    else .malformed

/-- A run of characters read as a numeral. -/
def read (cs : List Char) : Reading :=
  let (negative, body) :=
    match cs with
    | '-' :: rest => (true, rest)
    | _ => (false, cs)
  let (wholeDigits, rest) := spanDigits body
  match wholeDigits with
  | [] => .malformed
  | '0' :: _ :: _ => .malformed
  | _ =>
    match rest with
    | '.' :: after =>
      let (places, rest) := spanDigits after
      if places.isEmpty then .malformed else finish negative wholeDigits (some places) rest
    | _ => finish negative wholeDigits none rest

end CorpusAgent.Json.Numeral
