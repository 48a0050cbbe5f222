import Mathlib.Algebra.GroupWithZero.Nat
import Mathlib.Data.List.Basic

/-! # ISO 8601 texts, as the standard library reads them

`date.fromisoformat` and `datetime.fromisoformat`: calendar dates and week dates, with or without separators, and a time
of day with an offset. A moment is a number of microseconds. -/

namespace Python

/-- The number the digits spell. -/
def number (digits : List Char) : Nat := digits.foldl (fun n c => 10 * n + (c.toNat - '0'.toNat)) 0

/-- The number in the next `n` characters, and what follows it. -/
def takeNumber (n : Nat) (text : List Char) : Option (Nat × List Char) :=
  if (text.take n).length = n ∧ (text.take n).all Char.isDigit then some (number (text.take n), text.drop n) else none

/-- What follows a separator, where one has to stand. -/
def skip (separated : Bool) (sep : Char) (text : List Char) : Option (List Char) :=
  if separated then
    match text with
    | c :: rest => if c = sep then some rest else none
    | [] => none
  else some text

/-! ## Dates -/

def isLeap (year : Nat) : Bool := year % 4 = 0 && (year % 100 ≠ 0 || year % 400 = 0)

def daysInMonth (year month : Nat) : Nat :=
  match month with
  | 2 => if isLeap year then 29 else 28
  | 4 | 6 | 9 | 11 => 30
  | _ => 31

/-- The days before a year, from year 1 on. -/
def daysBeforeYear (year : Nat) : Nat := 365 * (year - 1) + (year - 1) / 4 - (year - 1) / 100 + (year - 1) / 400

def daysBeforeMonth (year month : Nat) : Nat := ((List.range (month - 1)).map fun m => daysInMonth year (m + 1)).sum

/-- `date(year, month, day).toordinal()`, unless there is no such date. -/
def ordinal (year month day : Nat) : Option Nat :=
  if 1 ≤ year ∧ year ≤ 9999 ∧ 1 ≤ month ∧ month ≤ 12 ∧ 1 ≤ day ∧ day ≤ daysInMonth year month then
    some (daysBeforeYear year + daysBeforeMonth year month + day)
  else none

/-- The weekday of the first of January, Monday being 0. -/
def firstWeekday (year : Nat) : Nat := (daysBeforeYear year + 7) % 7

/-- The ordinal of a date given by its week, unless there is no such date. -/
def weekOrdinal (year week day : Nat) : Option Nat :=
  let long := firstWeekday year = 3 ∨ (firstWeekday year = 2 ∧ isLeap year)
  if 1 ≤ year ∧ 1 ≤ week ∧ (week ≤ 52 ∨ week = 53 ∧ long) ∧ 1 ≤ day ∧ day ≤ 7 then
    let first := daysBeforeYear year + 1 + (if firstWeekday year > 3 then 7 else 0)
    let found := first + (week - 1) * 7 + (day - 1) - firstWeekday year
    if 1 ≤ found ∧ found ≤ 3652059 then some found else none
  else none

/-- `date.fromisoformat` -/
def parseDate (text : List Char) : Option Nat := do
  let (year, rest) ← takeNumber 4 text
  let separated := rest.head? = some '-'
  let rest ← skip separated '-' rest
  match rest with
  | 'W' :: rest =>
    let (week, rest) ← takeNumber 2 rest
    if rest = [] then weekOrdinal year week 1
    else
      let rest ← skip separated '-' rest
      let (day, rest) ← takeNumber 1 rest
      if rest = [] then weekOrdinal year week day else none
  | rest =>
    let (month, rest) ← takeNumber 2 rest
    let rest ← skip separated '-' rest
    let (day, rest) ← takeNumber 2 rest
    if rest = [] then ordinal year month day else none

/-! ## Times -/

/-- The microseconds of a fraction of a second; digits after the sixth are dropped. -/
def fraction (text : List Char) : Option Nat :=
  match text with
  | [] => some 0
  | mark :: digits =>
    if (mark = '.' ∨ mark = ',') ∧ digits ≠ [] ∧ digits.all Char.isDigit then
      some (number ((digits ++ List.replicate 6 '0').take 6))
    else none

/-- `HH[:MM[:SS[.f+]]]`, with the colons or without them: hours, minutes, seconds and microseconds. -/
def parseClock (text : List Char) : Option (Nat × Nat × Nat × Nat) := do
  let (hour, rest) ← takeNumber 2 text
  if rest = [] then return (hour, 0, 0, 0)
  let separated := rest.head? = some ':'
  let rest ← skip separated ':' rest
  let (minute, rest) ← takeNumber 2 rest
  if rest = [] then return (hour, minute, 0, 0)
  let rest ← skip separated ':' rest
  let (second, rest) ← takeNumber 2 rest
  let micros ← fraction rest
  return (hour, minute, second, micros)

def micros (clock : Nat × Nat × Nat × Nat) : Nat :=
  ((clock.1 * 60 + clock.2.1) * 60 + clock.2.2.1) * 1000000 + clock.2.2.2

/-- The offset from UTC in microseconds, less than a day either way. -/
def parseOffset (text : List Char) : Option Int :=
  match text with
  | ['Z'] => some 0
  | '+' :: rest => do
    let clock ← parseClock rest
    if micros clock < 86400000000 then some (micros clock) else none
  | '-' :: rest => do
    let clock ← parseClock rest
    if micros clock < 86400000000 then some (-micros clock) else none
  | _ => none

/-- A time of day in microseconds, with its offset if it has one. -/
def parseTime (text : List Char) : Option (Nat × Option Int) := do
  let isZone (c : Char) : Bool := c = '+' || c = '-' || c = 'Z'
  let clock ← parseClock (text.takeWhile (!isZone ·))
  if clock.1 < 24 ∧ clock.2.1 < 60 ∧ clock.2.2.1 < 60 then
    match text.dropWhile (!isZone ·) with
    | [] => return (micros clock, none)
    | zone => return (micros clock, some (← parseOffset zone))
  else none

/-- The length of the date at the start of a text with a date and a time. -/
def dateLength (text : List Char) : Nat :=
  let at_ (i : Nat) : Char := text.getD i '\x00'
  if text.length ≤ 7 then 7
  else if at_ 4 = '-' then
    if at_ 5 = 'W' then
      if at_ 8 = '-' then
        -- a week without a day, where what follows the hyphen is the time
        if text.length > 10 ∧ (at_ 10).isDigit then 8 else 10
      else 8
    else 10
  else if at_ 4 = 'W' then
    let stop := 7 + ((text.drop 7).takeWhile Char.isDigit).length
    if stop < 9 then stop else if stop % 2 = 0 then 7 else 8
  else 8

/-- A day in microseconds. -/
def DAY : Int := 86400000000

/-- `datetime.fromisoformat`: the local time in microseconds, and the offset it is written with. -/
def parseDatetime (text : List Char) : Option (Int × Option Int) := do
  if text.length < 7 then none
  let day ← parseDate (text.take (dateLength text))
  -- one character, whichever it is, stands between the date and the time
  match text.drop (dateLength text) with
  | [] => return (day * DAY, none)
  | _ :: rest =>
    let (time, offset) ← parseTime rest
    return (day * DAY + time, offset)

end Python
