import CorpusAgent.Number.Power

/-!
# Binary floating-point numbers

A `Binary f` is a number of the binary format `f`: not a number, an infinity, or a sign with a
significand and an exponent, standing for `± significand * 2 ^ exponent`.  Every operation works on
the exact value in natural-number arithmetic and rounds once, to the nearest number of the format
with halves going to the even significand (`Binary.round`).

* `Binary.round` gives the only representation of a finite number that the operations produce: the
  significand is below `2 ^ precision`, and it is at least `2 ^ (precision - 1)` unless the exponent
  is the least one.  So equality of representations is equality of numbers, with `0` and `-0` apart.
* `Binary.compare?` orders the numbers by value; nothing compares with `nan`.
-/

namespace CorpusAgent

/-- A binary interchange format: the bits of a significand and the least and greatest exponent of
its last bit. -/
structure Format where
  precision : Nat
  minExponent : Int
  maxExponent : Int
  deriving DecidableEq, Repr

def Format.double : Format := ⟨53, -1074, 971⟩

def Format.single : Format := ⟨24, -149, 104⟩

/-- A number of a binary format. -/
inductive Binary (f : Format) where
  | nan
  | infinite (negative : Bool)
  | finite (negative : Bool) (significand : Nat) (exponent : Int)
  deriving DecidableEq, Repr

abbrev Double := Binary .double

abbrev Single := Binary .single

namespace Binary

variable {f : Format}

/-- The quotient rounded to the nearest natural number, halves to the even one. -/
def roundQuotient (num den : Nat) : Nat :=
  let q := num / den
  let r := num % den
  if 2 * r < den then q
  else if 2 * r = den then (if q % 2 = 0 then q else q + 1)
  else q + 1

/-- The exponent of the greatest power of two that is at most `num / den`. -/
def quotientLog2 (num den : Nat) : Int :=
  let l : Int := (num.log2 : Int) - den.log2
  if den * twoTo l.toNat ≤ num * twoTo (-l).toNat then l else l - 1

def zero (negative : Bool) : Binary f := .finite negative 0 f.minExponent

/-- The number of the format nearest to `num / den`, infinite when that is beyond the greatest. -/
def round (f : Format) (negative : Bool) (num den : Nat) : Binary f :=
  if num = 0 then zero negative
  else
    let e := max f.minExponent (quotientLog2 num den - (f.precision - 1 : Nat))
    let m := roundQuotient (num * twoTo (-e).toNat) (den * twoTo e.toNat)
    let (m, e) := if m = twoTo f.precision then (twoTo (f.precision - 1), e + 1) else (m, e)
    if f.maxExponent < e then .infinite negative else .finite negative m e

def ofNat (f : Format) (n : Nat) : Binary f := round f false n 1

def ofInt (f : Format) (i : Int) : Binary f := round f (i < 0) i.natAbs 1

def neg : Binary f → Binary f
  | .nan => .nan
  | .infinite s => .infinite (!s)
  | .finite s m e => .finite (!s) m e

/-- The nearest number of another format. -/
def toFormat (g : Format) : Binary f → Binary g
  | .nan => .nan
  | .infinite s => .infinite s
  | .finite s m e => round g s (m * twoTo e.toNat) (twoTo (-e).toNat)

def mul : Binary f → Binary f → Binary f
  | .finite s m e, .finite t n k =>
    let x := e + k
    round f (s != t) (m * n * twoTo x.toNat) (twoTo (-x).toNat)
  | .infinite s, .infinite t => .infinite (s != t)
  | .infinite s, .finite t n _ => if n = 0 then .nan else .infinite (s != t)
  | .finite s m _, .infinite t => if m = 0 then .nan else .infinite (s != t)
  | .nan, _ => .nan
  | _, .nan => .nan

def div : Binary f → Binary f → Binary f
  | .finite s m e, .finite t n k =>
    if n = 0 then (if m = 0 then .nan else .infinite (s != t))
    else
      let x := e - k
      round f (s != t) (m * twoTo x.toNat) (n * twoTo (-x).toNat)
  | .infinite _, .infinite _ => .nan
  | .infinite s, .finite t _ _ => .infinite (s != t)
  | .finite s _ _, .infinite t => zero (s != t)
  | .nan, _ => .nan
  | _, .nan => .nan

/-- Neither `nan` nor an infinity. -/
def isFinite : Binary f → Bool
  | .finite .. => true
  | _ => false

def isZero : Binary f → Bool
  | .finite _ m _ => m == 0
  | _ => false

/-- The significand with the sign. -/
def signed (negative : Bool) (significand : Nat) : Int :=
  if negative then -significand else significand

/-- The order by value; the two zeros are equal, and `nan` compares with nothing. -/
def compare? : Binary f → Binary f → Option Ordering
  | .nan, _ => none
  | _, .nan => none
  | .infinite s, .infinite t =>
    some (if s = t then .eq else if s then .lt else .gt)
  | .infinite s, .finite .. => some (if s then .lt else .gt)
  | .finite .., .infinite t => some (if t then .gt else .lt)
  | .finite s m e, .finite t n k =>
    let low := min e k
    some (compare (signed s m * twoTo (e - low).toNat) (signed t n * twoTo (k - low).toNat))

/-- The first number is smaller. -/
def isBelow (x y : Binary f) : Bool := compare? x y == some .lt

/-- The first number is equal or greater. -/
def isAtLeast (x y : Binary f) : Bool :=
  match compare? x y with
  | some .lt => false
  | some _ => true
  | none => false

/-- The integer next to the number in the direction of zero, kept between the bounds; `nan` counts
as zero. -/
def truncate (low high : Int) : Binary f → Int
  | .nan => 0
  | .infinite s => if s then low else high
  | .finite s m e =>
    max low (min high (signed s (m * twoTo e.toNat / twoTo (-e).toNat)))

end Binary

end CorpusAgent
