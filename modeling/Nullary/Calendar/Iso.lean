import Nullary.Calendar

/-!
# ISO 8601 texts of dates and times

`Date.ofIso?`, `Time.ofIso?` and `DateTime.ofIso?` read whole texts in the forms of ISO 8601: with
and without separators, days by month or by week, and times of day down to whatever part is given.
What follows after a complete date or before an offset is not always looked at.
-/

namespace Nullary

namespace Iso

/-- A number of as many digits, and the rest. -/
def number? (digits : Nat) (s : List Char) : Option (Nat × List Char) :=
  let ds := s.take digits
  if ds.length = digits ∧ ds.all (Digits.isDigit 10) then
    some (Digits.value 10 ds, s.drop digits)
  else
    none

/-! ## Days -/

/-- The day of the week on which a year begins, Monday being zero. -/
def firstWeekday (year : Nat) : Nat :=
  (Date.daysBeforeYear year) % 7

/-- The number of weeks of a year: those whose Thursday is in it. -/
def weeks (year : Nat) : Nat :=
  if firstWeekday year = 3 ∨ (firstWeekday year = 2 ∧ leapYear year) then 53 else 52

/-- The number of the Monday with which the first week of a year begins. -/
def firstMonday (year : Nat) : Nat :=
  let day := firstWeekday year
  Date.daysBeforeYear year + 1 + (if 3 < day then 7 else 0) - day

/-- A day by its week of a year and its number in the week; it may be in a year beside. -/
def weekDay? (year week day : Nat) : Option Date :=
  if 1 ≤ year ∧ (1 ≤ week ∧ week ≤ weeks year) ∧ (1 ≤ day ∧ day ≤ 7) then
    let n := firstMonday year + (week - 1) * 7 + (day - 1)
    [year - 1, year, year + 1].findSome? fun y => Date.ofYearDay? y (n - Date.daysBeforeYear y)
  else
    none

/-- The rest of a text after a separator, which is there or not as it was before. -/
def afterSeparator? (separated : Bool) (s : List Char) : Option (List Char) :=
  if separated then
    match s with
    | '-' :: r => some r
    | _ => none
  else
    some s

/-- The week and day of a year; without a day the week begins. -/
def weekPart? (year : Nat) (separated : Bool) (s : List Char) : Option Date := do
  let (week, s) ← number? 2 s
  if s.isEmpty then
    weekDay? year week 1
  else
    let s ← afterSeparator? separated s
    let (day, _) ← number? 1 s
    weekDay? year week day

/-- The month and day of a year. -/
def monthPart? (year : Nat) (separated : Bool) (s : List Char) : Option Date := do
  let (month, s) ← number? 2 s
  let s ← afterSeparator? separated s
  let (day, _) ← number? 2 s
  Date.of? year month day

/-- The date that a text begins with. -/
def date? (s : List Char) : Option Date := do
  let (year, s) ← number? 4 s
  let separated := s.head? == some '-'
  let s := if separated then s.drop 1 else s
  match s with
  | 'W' :: s => weekPart? year separated s
  | s => monthPart? year separated s

/-- Where the date ends in a text that goes on with a time, by the form of the date. -/
def dateLength (s : List Char) : Nat :=
  let isDigitAt (i : Nat) : Bool := ((s[i]?).map (Digits.isDigit 10)).getD false
  if s.length = 7 then 7
  else if s[4]? = some '-' then
    if s[5]? = some 'W' then
      if s[8]? = some '-' ∧ ¬ isDigitAt 10 then 10 else 8
    else 10
  else if s[4]? = some 'W' then
    let n := 7 + ((s.drop 7).takeWhile (Digits.isDigit 10)).length
    if n < 9 then n else if n % 2 = 0 then 7 else 8
  else 8

/-! ## Times of day -/

/-- The parts of a time of day, and whether the text ended with them. -/
structure Clock where
  parts : List Nat
  micro : Nat
  complete : Bool

/-- A fraction of a second; up to six digits count. -/
def fraction? (s : List Char) : Option Clock :=
  let ds := s.take 6
  if ds.all (Digits.isDigit 10) then
    some ⟨[], Digits.value 10 (Digits.padRight 6 '0' ds), (s.drop 6).all (Digits.isDigit 10)⟩
  else
    none

/-- At most so many parts of two digits, with colons between them or without, and a fraction. -/
def parts? (colons : Bool) : Nat → List Char → Option Clock
  | 0, s => fraction? s
  | n + 1, s => do
    let (x, s) ← number? 2 s
    let rest : Option Clock :=
      match s with
      | [] => some ⟨[], 0, true⟩
      | [_] => some ⟨[], 0, false⟩
      | c :: r =>
        if colons ∧ c = ':' then parts? colons n r
        else if c = '.' ∨ c = ',' then fraction? r
        else if colons then none
        else parts? colons n (c :: r)
    rest.map fun k => { k with parts := x :: k.parts }

/-- Hours, minutes, seconds and a fraction. -/
def clock? (s : List Char) : Option Clock :=
  parts? (s[2]? == some ':') 3 s

namespace Clock

/-- A part by its index; those that are not given are zero. -/
def part (k : Clock) (i : Nat) : Nat :=
  (k.parts[i]?).getD 0

/-- All parts as seconds. -/
def seconds (k : Clock) : Nat :=
  k.part 0 * 3600 + k.part 1 * 60 + k.part 2

end Clock

/-- An offset after its sign; one of less than a second is none. -/
def offset? (negative : Bool) (s : List Char) : Option Offset := do
  let k ← clock? s
  if k.complete then
    let micros : Int := if k.seconds = 0 then 0 else (k.seconds * 1000000 + k.micro : Nat)
    Offset.of? (if negative then -micros else micros)
  else
    none

/-- Whether a character begins an offset. -/
def beginsZone (c : Char) : Bool :=
  c == '+' || c == '-' || c == 'Z'

/-- A time of day. -/
def time? (s : List Char) : Option Time := do
  let k ← clock? (s.takeWhile fun c => !beginsZone c)
  let time (o : Option Offset) : Option Time :=
    Time.of? (k.part 0) (k.part 1) (k.part 2) k.micro o
  match s.dropWhile fun c => !beginsZone c with
  | [] => if k.complete then time none else none
  | 'Z' :: r => if r.isEmpty then time (some Offset.utc) else none
  | c :: r => (offset? (c == '-') r).bind fun o => time (some o)

end Iso

/-- A whole text as a date. -/
def Date.ofIso? (s : String) : Option Date :=
  if s.length = 7 ∨ s.length = 8 ∨ s.length = 10 then Iso.date? s.toList else none

/-- A whole text as a time of day; a `T` may stand before it. -/
def Time.ofIso? (s : String) : Option Time :=
  match s.toList with
  | 'T' :: r => Iso.time? r
  | r => Iso.time? r

/-- A whole text as date and time of day with any character between; a date alone is midnight. -/
def DateTime.ofIso? (s : String) : Option DateTime := do
  let n := Iso.dateLength s.toList
  let date ← Iso.date? (s.toList.take n)
  let rest := s.toList.drop n
  let time ← if rest.isEmpty then Time.of? 0 0 0 0 none else Iso.time? (rest.drop 1)
  some ⟨date, time⟩

end Nullary
