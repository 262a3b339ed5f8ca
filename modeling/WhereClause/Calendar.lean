/-!
Dates and moments of the proleptic Gregorian calendar, their written forms, and the moment that
lies a number of seconds after the beginning of 1970. A leap second is the second 59 with at least
a thousand million nanoseconds. Fields are plain numbers: nothing here refuses the 31st of
February.
-/
namespace WhereClause

structure Date where
  year : Int
  month : Nat
  day : Nat
  deriving DecidableEq

structure Moment where
  date : Date
  hour : Nat
  minute : Nat
  second : Nat
  nanosecond : Nat
  deriving DecidableEq

namespace Calendar

def padded (width n : Nat) : List Char :=
  List.leftpad width '0' (Nat.toDigits 10 n)

/-- Four digits at least; a sign where the year is negative or has more than four. -/
def yearText (year : Int) : List Char :=
  let digits := padded 4 year.natAbs
  if year < 0 then '-' :: digits
  else if 9999 < year then '+' :: digits
  else digits

def dateText (date : Date) : List Char :=
  yearText date.year ++ '-' :: padded 2 date.month ++ '-' :: padded 2 date.day

def shownSecond (moment : Moment) : Nat :=
  moment.second + moment.nanosecond / 1000000000

def timeText (moment : Moment) : List Char :=
  padded 2 moment.hour ++ ':' :: padded 2 moment.minute ++ ':' :: padded 2 (shownSecond moment)

/-- The fraction of the second in the fewest of 3, 6 or 9 digits that write it exactly. -/
def fractionText (moment : Moment) : List Char :=
  let nanos := moment.nanosecond % 1000000000
  if nanos = 0 then []
  else if nanos % 1000000 = 0 then '.' :: padded 3 (nanos / 1000000)
  else if nanos % 1000 = 0 then '.' :: padded 6 (nanos / 1000)
  else '.' :: padded 9 nanos

/-- The date that lies `days` after the first of January 1970. Years are counted from the first of
March, so that a leap day ends a year, in cycles of 400 years. -/
def dateOfDays (days : Int) : Date :=
  let shifted := days + 719468
  let cycle := shifted.fdiv 146097
  let dayOfCycle := (shifted - cycle * 146097).toNat
  let yearOfCycle :=
    (dayOfCycle - dayOfCycle / 1460 + dayOfCycle / 36524 - dayOfCycle / 146096) / 365
  let dayOfYear := dayOfCycle - (365 * yearOfCycle + yearOfCycle / 4 - yearOfCycle / 100)
  let monthFromMarch := (5 * dayOfYear + 2) / 153
  let day := dayOfYear - (153 * monthFromMarch + 2) / 5 + 1
  let month := if monthFromMarch < 10 then monthFromMarch + 3 else monthFromMarch - 9
  let year := (yearOfCycle : Int) + cycle * 400 + if month ≤ 2 then 1 else 0
  ⟨year, month, day⟩

end Calendar

def Date.text (date : Date) : String := String.ofList (Calendar.dateText date)

def Moment.text (moment : Moment) : String :=
  String.ofList (Calendar.dateText moment.date ++ ' ' :: Calendar.timeText moment)

def Moment.isoText (moment : Moment) : String :=
  String.ofList (Calendar.dateText moment.date ++ 'T' :: Calendar.timeText moment ++
    Calendar.fractionText moment)

def Moment.ofUnix (seconds : Int) (nanosecond : Nat) : Moment :=
  let days := seconds.fdiv 86400
  let rest := (seconds - days * 86400).toNat
  ⟨Calendar.dateOfDays days, rest / 3600, rest / 60 % 60, rest % 60, nanosecond⟩

end WhereClause
