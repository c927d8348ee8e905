import CallTable.Toml.Quoted
import CallTable.Toml.Value

/-!
# Points in time of TOML

A point in time is a date, a date and a time of day, both with an offset from universal time, or a
time of day alone. Months have the length that they have in the given year, and a minute may end
with a leap second.
-/

namespace CallTable.Toml.Moment

open Text

/-- Reads a number of exactly so many decimal digits that lies between two bounds. -/
def between (width low high : Nat) : Reader Nat := do
  let value := Quoted.number 10 (← Reader.exactly width Char.isDigit)
  Reader.require (low ≤ value && value ≤ high)
  return value

/-- The year has a leap day. -/
def isLeapYear (year : Nat) : Bool :=
  year % 4 == 0 && (year % 100 != 0 || year % 400 == 0)

/-- The number of days of a month. -/
def monthLength (year month : Nat) : Nat :=
  if month = 2 then if isLeapYear year then 29 else 28
  else if month ∈ [4, 6, 9, 11] then 30
  else 31

/-- Reads a date. -/
def date : Reader Unit := do
  let year ← between 4 0 9999
  Reader.char '-'
  let month ← between 2 1 12
  Reader.char '-'
  discard (between 2 1 (monthLength year month))

/-- Reads a time of day. -/
def time : Reader Unit := do
  discard (between 2 0 23)
  Reader.char ':'
  discard (between 2 0 59)
  Reader.char ':'
  discard (between 2 0 60)
  discard (Reader.optional do
    Reader.char '.'
    discard (Reader.row Char.isDigit))

/-- Reads an offset from universal time. -/
def offset : Reader Unit := do
  discard (Reader.one fun c => c = 'Z' || c = 'z') <|> do
    discard (Reader.one fun c => c = '+' || c = '-')
    discard (between 2 0 23)
    Reader.char ':'
    discard (between 2 0 59)

/-- Reads a date and what follows of a time of day. -/
def dateTime : Reader Unit := do
  date
  discard (Reader.optional do
    discard (Reader.one fun c => c = 'T' || c = 't' || c = ' ')
    time
    discard (Reader.optional offset))

/-- Reads a point in time. -/
def moment : Reader Value := do
  let (_, spelling) ← Reader.spelled (dateTime <|> time)
  return .moment (String.ofList spelling)

end CallTable.Toml.Moment
