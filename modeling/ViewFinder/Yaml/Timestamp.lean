import ViewFinder.Yaml.Character
import ViewFinder.Text.Digit
import ViewFinder.Number.Shortest

/-!
# Timestamps

A timestamp is a date, or a date with a time of day and perhaps a fraction and an offset.
`Timestamp.fields?` reads one, `Timestamp.problem?` says why it does not exist, and `Timestamp.text`
writes it in full.
-/

namespace ViewFinder.Yaml

/-- The fields of a timestamp. -/
structure Timestamp where
  year : Nat
  month : Nat
  day : Nat
  /-- Hour, minute, second and the digits of the fraction. -/
  time : Option (Nat × Nat × Nat × List Char) := none
  /-- The offset in minutes: whether it is negative, its hours and its minutes. -/
  offset : Option (Bool × Nat × Nat) := none
  deriving DecidableEq

namespace Timestamp

/-- A number of at least `low` and at most `high` digits at the start of the text. -/
def digits? (low high : Nat) (s : List Char) : Option (Nat × List Char) :=
  let digits := (s.take high).takeWhile Char.isDigit
  if digits.length < low then none
  else some (Text.decimalValue digits, s.drop digits.length)

/-- The text after a character that it must start with. -/
def expect? (c : Char) : List Char → Option (List Char)
  | d :: rest => if c == d then some rest else none
  | [] => none

/-- The offset that ends a text: none, `Z`, or hours and perhaps minutes with a sign. -/
def offset? (s : List Char) : Option (Option (Bool × Nat × Nat)) :=
  match s.dropWhile isBlank with
  | [] => if s.isEmpty then some none else none
  | ['Z'] => some (some (false, 0, 0))
  | sign :: rest =>
    if sign == '+' || sign == '-' then do
      let (hours, rest) ← digits? 1 2 rest
      match rest with
      | [] => return some (sign == '-', hours, 0)
      | rest =>
        let (minutes, rest) ← digits? 2 2 (← expect? ':' rest)
        if rest.isEmpty then return some (sign == '-', hours, minutes) else none
    else none

/-- The digits of the fraction, if there is one. -/
def fraction : List Char → List Char × List Char
  | '.' :: rest => rest.span Char.isDigit
  | s => ([], s)

/-- What follows the date: nothing, or the time of day. -/
def withTime? (t : Timestamp) (s : List Char) : Option Timestamp := do
  let rest ←
    match s with
    | c :: rest =>
      if c == 'T' || c == 't' then some rest
      else if isBlank c then some (rest.dropWhile isBlank)
      else none
    | [] => none
  let (hour, rest) ← digits? 1 2 rest
  let (minute, rest) ← digits? 2 2 (← expect? ':' rest)
  let (second, rest) ← digits? 2 2 (← expect? ':' rest)
  let (part, rest) := fraction rest
  return { t with time := some (hour, minute, second, part), offset := ← offset? rest }

/-- The fields of a timestamp. -/
def fields? (s : List Char) : Option Timestamp := do
  let (year, rest) ← digits? 4 4 s
  let (month, rest) ← digits? 1 2 (← expect? '-' rest)
  let (day, rest) ← digits? 1 2 (← expect? '-' rest)
  let date : Timestamp := { year, month, day }
  if rest.isEmpty then return date else date.withTime? rest

/-- Does a plain scalar look like a timestamp? A bare date has two digits for month and day. -/
def isLook (s : List Char) : Bool :=
  match fields? s with
  | some t => t.time.isSome || s.length == 10
  | none => false

/-- Is the year a leap year? -/
def isLeap (year : Nat) : Bool := year % 4 == 0 && (year % 100 != 0 || year % 400 == 0)

/-- The number of days of a month. -/
def daysOf (year month : Nat) : Nat :=
  if month == 2 then (if isLeap year then 29 else 28)
  else if [4, 6, 9, 11].contains month then 30
  else 31

/-- The literal of a span of minutes, as days and seconds. -/
def spanLiteral (minutes : Int) : String :=
  let seconds := minutes % (24 * 60) * 60
  let rest := if seconds == 0 then "" else s!", seconds={seconds}"
  s!"datetime.timedelta(days={minutes / (24 * 60)}" ++ rest ++ ")"

/-- What is wrong with the offset. -/
def offsetProblem? (t : Timestamp) : Option String :=
  match t.offset with
  | some (negative, hours, minutes) =>
    let total : Int := hours * 60 + minutes
    if total < 24 * 60 then none
    else
      some <| "offset must be a timedelta strictly between -timedelta(hours=24) and " ++
        "timedelta(hours=24), not " ++ spanLiteral (if negative then -total else total) ++ "."
  | none => none

/-- What is wrong with the date. -/
def dateProblem? (t : Timestamp) : Option String :=
  if t.year == 0 then some s!"year {t.year} is out of range"
  else if t.month == 0 || t.month > 12 then some "month must be in 1..12"
  else if t.day == 0 || t.day > daysOf t.year t.month then some "day is out of range for month"
  else none

/-- What is wrong with the time of day. -/
def timeProblem? (t : Timestamp) : Option String :=
  match t.time with
  | some (hour, minute, second, _) =>
    if hour > 23 then some "hour must be in 0..23"
    else if minute > 59 then some "minute must be in 0..59"
    else if second > 59 then some "second must be in 0..59"
    else none
  | none => none

/-- Why the timestamp does not exist, if it does not. -/
def problem? (t : Timestamp) : Option String :=
  t.offsetProblem?.or (t.dateProblem?.or t.timeProblem?)

/-- A number with leading zeros. -/
def padded (width n : Nat) : List Char :=
  let digits := decimalDigits n
  List.replicate (width - digits.length) '0' ++ digits

/-- The text of an offset. -/
def offsetText (negative : Bool) (hours minutes : Nat) : List Char :=
  let total := hours * 60 + minutes
  let sign := if negative && total != 0 then '-' else '+'
  sign :: (padded 2 (total / 60) ++ ':' :: padded 2 (total % 60))

/-- The text of a timestamp, with six digits of fraction unless they are zero. -/
def text (t : Timestamp) : List Char :=
  let date := padded 4 t.year ++ '-' :: (padded 2 t.month ++ '-' :: padded 2 t.day)
  match t.time with
  | none => date
  | some (hour, minute, second, part) =>
    let micro := Text.decimalValue ((part ++ List.replicate 6 '0').take 6)
    let part := if micro == 0 then [] else '.' :: padded 6 micro
    let offset := match t.offset with
      | some (negative, hours, minutes) => offsetText negative hours minutes
      | none => []
    date ++ ' ' :: (padded 2 hour ++ ':' :: (padded 2 minute ++ ':' :: padded 2 second)) ++ part ++
      offset

end Timestamp

end ViewFinder.Yaml
