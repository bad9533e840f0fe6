import CorpusAgent.Json.Basic

/-!
# Dates and times

A date, a time of day, or both, possibly with the distance from universal time.  Seconds may be left
out.  A date or time is kept as its text in a uniform writing: with a `T` between date and time,
with a capital `Z`, and with at most nine digits of a second.
-/

namespace CorpusAgent.Toml

/-- A number of exactly so many digits, and what follows it. -/
def digits? : Nat → List Char → Option (Nat × List Char) :=
  go 0
where
  /-- The digits after a beginning of the number. -/
  go (value : Nat) : Nat → List Char → Option (Nat × List Char)
    | 0, cs => some (value, cs)
    | _ + 1, [] => none
    | left + 1, c :: rest =>
      if c.isDigit then go (value * 10 + (c.toNat - 48)) left rest else none

/-- What follows a given character. -/
def after? (c : Char) : List Char → Option (List Char)
  | d :: rest => if d = c then some rest else none
  | [] => none

def padded (width n : Nat) : String :=
  let text := toString n
  String.ofList (List.replicate (width - text.length) '0') ++ text

def daysIn (year month : Nat) : Nat :=
  if month = 2 then
    if year % 4 = 0 && (year % 100 ≠ 0 || year % 400 = 0) then 29 else 28
  else if [4, 6, 9, 11].contains month then 30 else 31

/-- A date, and what follows it. -/
def date? (cs : List Char) : Option (String × List Char) := do
  let (year, cs) ← digits? 4 cs
  let (month, cs) ← (after? '-' cs).bind (digits? 2)
  let (day, cs) ← (after? '-' cs).bind (digits? 2)
  if 1 ≤ month && month ≤ 12 && 1 ≤ day && day ≤ daysIn year month then
    some (padded 4 year ++ "-" ++ padded 2 month ++ "-" ++ padded 2 day, cs)
  else none

/-- A fraction of a second after its point, and what follows it. -/
def fraction? (cs : List Char) : Option (String × List Char) :=
  let places := cs.takeWhile Char.isDigit
  if places.isEmpty then none
  else
    let kept := ((places.take 9).reverse.dropWhile (· = '0')).reverse
    some ("." ++ String.ofList (if kept.isEmpty then ['0'] else kept), cs.dropWhile Char.isDigit)

/-- Seconds, if there are any, and what follows them. -/
def seconds? (cs : List Char) : Option (String × List Char) :=
  match cs with
  | ':' :: rest => do
    let (second, rest) ← digits? 2 rest
    if 60 < second then none
    else
      match rest with
      | '.' :: rest =>
        let (text, rest) ← fraction? rest
        some (":" ++ padded 2 second ++ text, rest)
      | _ => some (":" ++ padded 2 second, rest)
  | _ => some ("", cs)

/-- Hours and minutes, and what follows them. -/
def clock? (cs : List Char) : Option (String × List Char) := do
  let (hour, cs) ← digits? 2 cs
  let (minute, cs) ← (after? ':' cs).bind (digits? 2)
  if hour ≤ 23 && minute ≤ 59 then some (padded 2 hour ++ ":" ++ padded 2 minute, cs) else none

/-- A time of day, and what follows it. -/
def time? (cs : List Char) : Option (String × List Char) := do
  let (clock, cs) ← clock? cs
  let (seconds, cs) ← seconds? cs
  some (clock ++ seconds, cs)

/-- The distance from universal time, if there is one, at the end of a text. -/
def distance? : List Char → Option String
  | [] => some ""
  | [c] => if c = 'Z' || c = 'z' then some "Z" else none
  | sign :: rest =>
    if sign = '+' || sign = '-' then
      match clock? rest with
      | some (clock, []) => some ((if sign = '-' && clock ≠ "00:00" then "-" else "+") ++ clock)
      | _ => none
    else none

/-- The uniform writing of a date, a time or both. -/
def datetime? (cs : List Char) : Option String :=
  match date? cs with
  | some (date, []) => some date
  | some (date, c :: rest) =>
    if c = 'T' || c = 't' || c = ' ' then do
      let (time, rest) ← time? rest
      let distance ← distance? rest
      some (date ++ "T" ++ time ++ distance)
    else none
  | none =>
    match time? cs with
    | some (time, []) => some time
    | _ => none

/-- The name of the only member of the object that stands for a date or time. -/
def datetimeMember : String := "$__toml_private_datetime"

end CorpusAgent.Toml
