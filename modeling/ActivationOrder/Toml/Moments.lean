import ActivationOrder.Text.Character
import ActivationOrder.Toml.Value

/-!
Dates and times. A moment is a date, a time, or both with an offset or without; the fields must be
in range, the day in its month. Its text is the one way of writing it: a capital `T` between date
and time, no zeros at the end of a fraction, which has nine digits at most, and `Z` or a signed
offset.
-/

namespace ActivationOrder.Toml

/-- The value of exactly `count` digits. -/
def fixedDigits (count : Nat) (text : List Char) : Option (Nat × List Char) :=
  let ds := text.take count
  if ds.length = count ∧ ds.all isDigit then
    some (ds.foldl (fun value c => value * 10 + (c.toNat - '0'.toNat)) 0, text.drop count)
  else none

/-- A number of two digits between `low` and `high`. -/
def twoDigits (low high : Nat) (text : List Char) : Option (Nat × List Char) := do
  let (value, rest) ← fixedDigits 2 text
  if low ≤ value ∧ value ≤ high then pure (value, rest) else none

/-- The text without this character at its start. -/
def drop? (c : Char) : List Char → Option (List Char)
  | [] => none
  | d :: rest => if d = c then some rest else none

/-- The number of days in a month. -/
def daysIn (year month : Nat) : Nat :=
  if month = 2 then
    if year % 4 = 0 ∧ (year % 100 ≠ 0 ∨ year % 400 = 0) then 29 else 28
  else if month = 4 ∨ month = 6 ∨ month = 9 ∨ month = 11 then 30
  else 31

/-- `value` in decimal digits, at least `width` of them. -/
def decimal (width value : Nat) : List Char := Text.padZeros width (Nat.toDigits 10 value)

/-- A date, as its text. -/
def date (text : List Char) : Option (List Char × List Char) := do
  let (year, rest) ← fixedDigits 4 text
  let rest ← drop? '-' rest
  let (month, rest) ← twoDigits 1 12 rest
  let rest ← drop? '-' rest
  let (day, rest) ← twoDigits 1 31 rest
  if day ≤ daysIn year month then
    pure (decimal 4 year ++ '-' :: decimal 2 month ++ '-' :: decimal 2 day, rest)
  else none

/-- A fraction of a second, as its text; empty when it is zero or not there. -/
def secondFraction (text : List Char) : List Char × List Char :=
  match text with
  | '.' :: rest =>
    let ds := rest.takeWhile isDigit
    if ds.isEmpty then ([], text)
    else
      let kept := ((ds.take 9).reverse.dropWhile (· == '0')).reverse
      (if kept.isEmpty then [] else '.' :: kept, rest.dropWhile isDigit)
  | _ => ([], text)

/-- A time of day, as its text. -/
def time (text : List Char) : Option (List Char × List Char) := do
  let (hour, rest) ← twoDigits 0 23 text
  let rest ← drop? ':' rest
  let (minute, rest) ← twoDigits 0 59 rest
  let rest ← drop? ':' rest
  let (second, rest) ← twoDigits 0 60 rest
  let (fraction, rest) := secondFraction rest
  pure (decimal 2 hour ++ ':' :: decimal 2 minute ++ ':' :: decimal 2 second ++ fraction, rest)

/-- An offset from universal time in hours and minutes, as its text. -/
def signedOffset (negative : Bool) (text : List Char) : Option (List Char × List Char) := do
  let (hour, rest) ← twoDigits 0 23 text
  let rest ← drop? ':' rest
  let (minute, rest) ← twoDigits 0 59 rest
  let mark := if negative && (hour, minute) != (0, 0) then '-' else '+'
  pure (mark :: decimal 2 hour ++ ':' :: decimal 2 minute, rest)

/-- An offset from universal time, as its text; empty when there is none. -/
def offset (text : List Char) : List Char × List Char :=
  match text with
  | [] => ([], [])
  | c :: rest =>
    if c == 'Z' || c == 'z' then (['Z'], rest)
    else if c == '+' || c == '-' then (signedOffset (c == '-') rest).getD ([], text)
    else ([], text)

/-- A time after a date, as its text; empty when there is none. -/
def timeOfDate (text : List Char) : List Char × List Char :=
  match text with
  | [] => ([], [])
  | c :: rest =>
    if c == 'T' || c == 't' || c == ' ' then
      match time rest with
      | some (clock, rest) =>
        let (zone, rest) := offset rest
        ('T' :: clock ++ zone, rest)
      | none => ([], text)
    else ([], text)

/-- A date, a time, or both. -/
def moment (text : List Char) : Option (Value × List Char) :=
  match date text with
  | some (day, rest) =>
    let (clock, rest) := timeOfDate rest
    some (.moment (String.ofList (day ++ clock)), rest)
  | none => (time text).map fun (clock, rest) => (.moment (String.ofList clock), rest)

end ActivationOrder.Toml
