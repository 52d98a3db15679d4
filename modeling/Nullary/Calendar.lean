import Nullary.Number.Digits

/-!
# Dates and times

Calendar dates of the years 1 to 9999, times of day with microseconds and an optional offset from
universal time, and both together.  `isoText` writes the ISO 8601 form; `ordinal` numbers the days,
so that times with an offset can be compared as instants.
-/

namespace Nullary

/-- Whether a year of the Gregorian calendar has 366 days. -/
def leapYear (y : Nat) : Bool :=
  y % 4 == 0 && (y % 100 != 0 || y % 400 == 0)

/-- The number of days of a month. -/
def daysInMonth (y m : Nat) : Nat :=
  if m = 2 then (if leapYear y then 29 else 28)
  else if m = 4 ∨ m = 6 ∨ m = 9 ∨ m = 11 then 30
  else 31

/-- A day of the Gregorian calendar. -/
structure Date where
  year : Nat
  month : Nat
  day : Nat
  valid : (1 ≤ year ∧ year ≤ 9999) ∧ (1 ≤ month ∧ month ≤ 12) ∧
    1 ≤ day ∧ day ≤ daysInMonth year month
  deriving DecidableEq

/-- An offset from universal time in microseconds, less than a day either way. -/
structure Offset where
  micros : Int
  valid : -86400000000 < micros ∧ micros < 86400000000
  deriving DecidableEq

/-- A time of day, perhaps with the offset of the clock that shows it. -/
structure Time where
  hour : Nat
  minute : Nat
  second : Nat
  micro : Nat
  offset : Option Offset
  valid : hour < 24 ∧ minute < 60 ∧ second < 60 ∧ micro < 1000000
  deriving DecidableEq

/-- A day and a time of it. -/
structure DateTime where
  date : Date
  time : Time
  deriving DecidableEq

namespace Date

/-- The date of a year, a month and a day, if there is one. -/
def of? (year month day : Nat) : Option Date :=
  if h : _ then some ⟨year, month, day, h⟩ else none

/-- Year, month and day between hyphens. -/
def isoText (d : Date) : String :=
  String.ofList (Digits.padded 4 d.year ++ '-' :: Digits.padded 2 d.month
    ++ '-' :: Digits.padded 2 d.day)

/-- The number of days before the first of January of a year. -/
def daysBeforeYear (y : Nat) : Nat :=
  (y - 1) * 365 + (y - 1) / 4 - (y - 1) / 100 + (y - 1) / 400

/-- The number of days of a year before the first of a month. -/
def daysBeforeMonth (y m : Nat) : Nat :=
  ((List.range (m - 1)).map fun k => daysInMonth y (k + 1)).foldl (fun n k => n + k) 0

/-- The number of a day; the first of January of the year 1 has number 1. -/
def ordinal (d : Date) : Nat :=
  daysBeforeYear d.year + daysBeforeMonth d.year d.month + d.day

/-- The day of a year by its number in the year, the first of January having number 1. -/
def ofYearDay? (y n : Nat) : Option Date :=
  (List.range 12).findSome? fun k => of? y (k + 1) (n - daysBeforeMonth y (k + 1))

end Date

namespace Offset

/-- The offset of as many microseconds, if it is less than a day. -/
def of? (micros : Int) : Option Offset :=
  if h : _ then some ⟨micros, h⟩ else none

/-- The offset of universal time itself. -/
def utc : Offset := ⟨0, by decide⟩

/-- The last whole second that the offset reaches. -/
def floorSeconds (o : Offset) : Int :=
  Int.fdiv o.micros 1000000

/-- The nearest whole number of seconds, without its sign; half a second counts as one. -/
def nearestSeconds (o : Offset) : Nat :=
  (o.micros.natAbs + 500000) / 1000000

/-- A sign, hours and minutes. -/
def hourText (negative : Bool) (seconds : Nat) : List Char :=
  (if negative then '-' else '+') :: Digits.padded 2 (seconds / 3600)
    ++ ':' :: Digits.padded 2 (seconds / 60 % 60)

/-- Sign, hours and minutes; seconds and their fraction only when there are some. -/
def isoText (o : Offset) : String :=
  let n := o.micros.natAbs / 1000000
  let micro := o.micros.natAbs % 1000000
  let second := if n % 60 = 0 ∧ micro = 0 then [] else ':' :: Digits.padded 2 (n % 60)
  let fraction := if micro = 0 then [] else '.' :: Digits.padded 6 micro
  String.ofList (hourText (decide (o.micros < 0)) n ++ second ++ fraction)

/-- Sign, hours and minutes of the nearest whole second; `Z` stands for universal time. -/
def zuluText (o : Offset) : String :=
  if o.nearestSeconds = 0 then "Z"
  else String.ofList (hourText (decide (o.micros < 0)) o.nearestSeconds)

end Offset

namespace Time

/-- The time of day of its parts, if there is one. -/
def of? (hour minute second micro : Nat) (offset : Option Offset) : Option Time :=
  if h : _ then some ⟨hour, minute, second, micro, offset, h⟩ else none

/-- The time of day alone, with six places of a second when there is a fraction. -/
def clockText (t : Time) : String :=
  let fraction := if t.micro = 0 then [] else '.' :: Digits.padded 6 t.micro
  String.ofList (Digits.padded 2 t.hour ++ ':' :: Digits.padded 2 t.minute
    ++ ':' :: Digits.padded 2 t.second ++ fraction)

/-- The time of day and its offset. -/
def isoText (t : Time) : String :=
  t.clockText ++ (t.offset.map Offset.isoText).getD ""

/-- As `isoText`, but with the short form of the offset. -/
def zuluText (t : Time) : String :=
  t.clockText ++ (t.offset.map Offset.zuluText).getD ""

/-- Microseconds since midnight. -/
def clockMicros (t : Time) : Int :=
  ((t.hour * 3600 + t.minute * 60 + t.second) * 1000000 + t.micro : Nat)

/-- Microseconds since midnight of universal time, or of the local day without an offset. -/
def instant (t : Time) : Int :=
  t.clockMicros - (t.offset.map Offset.micros).getD 0

/--
Equal as moments of a day; a time with an offset is never equal to one without.  Of different
offsets only whole seconds count.
-/
def same (s t : Time) : Bool :=
  match s.offset, t.offset with
  | none, none => s.clockMicros == t.clockMicros
  | some o, some p =>
    if o = p then s.clockMicros == t.clockMicros
    else
      s.clockMicros - o.floorSeconds * 1000000 == t.clockMicros - p.floorSeconds * 1000000
  | _, _ => false

end Time

namespace DateTime

/-- Date and time of day with `sep` between them. -/
def text (sep : String) (t : DateTime) : String :=
  t.date.isoText ++ sep ++ t.time.isoText

/-- Date and time of day with a `T` between them. -/
def isoText (t : DateTime) : String :=
  t.text "T"

/-- As `isoText`, but with the short form of the offset. -/
def zuluText (t : DateTime) : String :=
  t.date.isoText ++ "T" ++ t.time.zuluText

/-- Microseconds since a fixed midnight, of universal time where there is an offset. -/
def instant (t : DateTime) : Int :=
  (t.date.ordinal : Int) * 86400000000 + t.time.instant

/-- Equal as instants; one with an offset is never equal to one without. -/
def same (s t : DateTime) : Bool :=
  s.time.offset.isSome == t.time.offset.isSome && s.instant == t.instant

end DateTime

end Nullary
