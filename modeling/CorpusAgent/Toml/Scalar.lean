import CorpusAgent.Text.Hex
import CorpusAgent.Text.Split
import CorpusAgent.Toml.Datetime

/-!
# Words as values

A word that stands for a value is a truth value, an integer in base ten, sixteen, eight or two, a
number with a fraction or an exponent, an infinity, `nan`, or a date or time.  Underscores may stand
between two digits.

An integer has at most 128 bits.  A number has to be within the range of 64-bit numbers.
-/

namespace CorpusAgent.Toml

/-- The digits of a number without the underscores between them. -/
def plainDigits? (isDigit : Char → Bool) (cs : List Char) : Option (List Char) :=
  let groups := Text.splitAt '_' cs
  if groups.all fun group => !group.isEmpty && group.all isDigit then some groups.flatten else none

/-- Decimal digits without a needless zero in front. -/
def wholeDigits? (cs : List Char) : Option (List Char) :=
  match plainDigits? Char.isDigit cs with
  | some ['0'] => some ['0']
  | some ('0' :: _) => none
  | digits => digits

/-- The value of digits in a base. -/
def digitsValue (base : Nat) (cs : List Char) : Nat :=
  cs.foldl (fun n c => n * base + (Text.hexValue? c).getD 0) 0

/-- The sign of a number, if it has one, and the rest. -/
def signed? (cs : List Char) : Bool × List Char :=
  match cs with
  | '-' :: rest => (true, rest)
  | '+' :: rest => (false, rest)
  | _ => (false, cs)

/-- An integer of 128 bits. -/
def integer? (negative : Bool) (n : Nat) : Option Json :=
  if n < (if negative then twoTo 127 + 1 else twoTo 128) then
    some (.number (.integer (if negative then -n else n)))
  else none

def isDigitOf (base : Nat) (c : Char) : Bool := (Text.hexValue? c).any (· < base)

/-- A natural number in a base other than ten. -/
def radix? (base : Nat) (cs : List Char) : Option Json :=
  (plainDigits? (isDigitOf base) cs).bind fun digits => integer? false (digitsValue base digits)

/-- The greatest power of ten, up or down, that a number in range can be near. -/
def maxPower : Int := 400

/-- The 64-bit number nearest to `digits * 10 ^ exponent`, if there is a finite one. -/
def decimal? (negative : Bool) (digits : List Char) (exponent : Int) : Option Json :=
  let n := digitsValue 10 digits
  let top := exponent + digits.length
  if n = 0 || top < -maxPower then some (.number (.decimal (Binary.zero negative)))
  else if maxPower < exponent then none
  else
    let x : Double := Binary.round .double negative (n * tenTo exponent.toNat)
      (tenTo (-exponent).toNat)
    if x.isFinite then some (.number (.decimal x)) else none

/-- The exponent after its letter. -/
def exponent? (cs : List Char) : Option Int :=
  let (negative, rest) := signed? cs
  (plainDigits? Char.isDigit rest).map fun digits =>
    let n : Int := digitsValue 10 digits
    if negative then -n else n

def isExponentLetter (c : Char) : Bool := c = 'e' || c = 'E'

/-- A number in base ten without its sign. -/
def decimalNumber? (negative : Bool) (cs : List Char) : Option Json := do
  let mantissa := cs.takeWhile fun c => !isExponentLetter c
  let exponent ← match cs.dropWhile fun c => !isExponentLetter c with
    | [] => some 0
    | _ :: rest => exponent? rest
  match Text.splitAt '.' mantissa with
  | [whole] =>
    let digits ← wholeDigits? whole
    if mantissa.length = cs.length then integer? negative (digitsValue 10 digits)
    else decimal? negative digits exponent
  | [whole, places] =>
    let digits ← wholeDigits? whole
    let places ← plainDigits? Char.isDigit places
    decimal? negative (digits ++ places) (exponent - places.length)
  | _ => none

def number? (cs : List Char) : Option Json :=
  match cs with
  | '0' :: 'x' :: rest => radix? 16 rest
  | '0' :: 'o' :: rest => radix? 8 rest
  | '0' :: 'b' :: rest => radix? 2 rest
  | _ =>
    let (negative, rest) := signed? cs
    if rest = "inf".toList then some (.number (.decimal (.infinite negative)))
    else if rest = "nan".toList then some (.number (.decimal .nan))
    else decimalNumber? negative rest

/-- The value of a word. -/
def wordValue? (cs : List Char) : Option Json :=
  if cs = "true".toList then some (.bool true)
  else if cs = "false".toList then some (.bool false)
  else
    match datetime? cs with
    | some text => some (.object [(datetimeMember, .text text)])
    | none => number? cs

end CorpusAgent.Toml
