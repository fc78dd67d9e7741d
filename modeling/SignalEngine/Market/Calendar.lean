import SignalEngine.Number.Layout

namespace SignalEngine

/-- A date of the Gregorian calendar. -/
structure Date where
  year : Int
  month : Nat
  day : Nat
  deriving DecidableEq, Repr

namespace Date

def isLeap (year : Int) : Bool :=
  year % 4 == 0 && (year % 100 != 0 || year % 400 == 0)

def monthLength (year : Int) (month : Nat) : Nat :=
  if month = 2 then (if isLeap year then 29 else 28)
  else if month = 4 ∨ month = 6 ∨ month = 9 ∨ month = 11 then 30
  else 31

def isValid (d : Date) : Bool :=
  1 ≤ d.month && d.month ≤ 12 && 1 ≤ d.day && d.day ≤ monthLength d.year d.month

def inRange (d : Date) : Bool :=
  -262143 ≤ d.year && d.year ≤ 262142

/-- The day number of a date, 0 for the first day of 1970. Years are taken to begin in March, so that
the leap day is the last of its year. -/
def dayNumber (d : Date) : Int :=
  let year := if d.month ≤ 2 then d.year - 1 else d.year
  let era := year / 400
  let yearOfEra := year % 400
  let monthFromMarch : Int := ((d.month : Int) + 9) % 12
  let dayOfYear := (153 * monthFromMarch + 2) / 5 + d.day - 1
  let dayOfEra := yearOfEra * 365 + yearOfEra / 4 - yearOfEra / 100 + dayOfYear
  era * 146097 + dayOfEra - 719468

def ofDayNumber (n : Int) : Date :=
  let days := n + 719468
  let era := days / 146097
  let dayOfEra := days % 146097
  let yearOfEra := (dayOfEra - dayOfEra / 1460 + dayOfEra / 36524 - dayOfEra / 146096) / 365
  let dayOfYear := dayOfEra - (365 * yearOfEra + yearOfEra / 4 - yearOfEra / 100)
  let monthFromMarch := (5 * dayOfYear + 2) / 153
  let day := dayOfYear - (153 * monthFromMarch + 2) / 5 + 1
  let month := if monthFromMarch < 10 then monthFromMarch + 3 else monthFromMarch - 9
  let year := yearOfEra + era * 400 + (if month ≤ 2 then 1 else 0)
  ⟨year, month.toNat, day.toNat⟩

end Date

namespace Calendar

def padded (width n : Nat) : List Char :=
  let digits := Nat.toDigits 10 n
  Number.zeros (width - digits.length) ++ digits

/-- A year: four digits from 0 to 9999, and at least four with a sign elsewhere. -/
def yearText (year : Int) : List Char :=
  if 0 ≤ year ∧ year ≤ 9999 then padded 4 year.toNat
  else (if year < 0 then '-' else '+') :: padded 4 year.natAbs

/-- The text `year-month-day hour:minute:second` of a moment, if its year is in range. -/
def text? (milliseconds : Int) : Option String :=
  let seconds := milliseconds / 1000
  let date := Date.ofDayNumber (seconds / 86400)
  let second := (seconds % 86400).toNat
  if date.inRange then
    some (String.ofList (
      yearText date.year ++ '-' :: padded 2 date.month ++ '-' :: padded 2 date.day ++
        ' ' :: padded 2 (second / 3600) ++ ':' :: padded 2 (second / 60 % 60) ++
        ':' :: padded 2 (second % 60)))
  else none

end Calendar

end SignalEngine
