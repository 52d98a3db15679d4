import Nullary.Calendar

/-!
# Reading dates and times

Readers for the ISO 8601 forms `YYYY-MM-DD` and `HH:MM:SS`, each answering what it read and what is
left of the text.  The fields are matched by shape first: `Reading.date?` takes any day up to 31,
and whether the month has it is settled when the date is built.
-/

namespace Nullary.Reading

/-- A two-digit field with a value between `low` and `high`. -/
def field? (low high : Nat) : List Char → Option (Nat × List Char)
  | a :: b :: r =>
    match Digits.digit? 10 a, Digits.digit? 10 b with
    | some x, some y =>
      let n := 10 * x + y
      if low ≤ n ∧ n ≤ high then some (n, r) else none
    | _, _ => none
  | _ => none

/-- The rest of a text that begins with `c`. -/
def after? (c : Char) : List Char → Option (List Char)
  | d :: r => if d = c then some r else none
  | [] => none

/-- A year of four digits, a month and a day that some month has. -/
def date? (s : List Char) : Option ((Nat × Nat × Nat) × List Char) := do
  let (century, s) ← field? 0 99 s
  let (year, s) ← field? 0 99 s
  let s ← after? '-' s
  let (month, s) ← field? 1 12 s
  let s ← after? '-' s
  let (day, s) ← field? 1 31 s
  some ((century * 100 + year, month, day), s)

/-- Up to six digits as microseconds; further digits are passed over. -/
def micros (ds : List Char) : Nat :=
  Digits.value 10 (Digits.padRight 6 '0' (ds.take 6))

/-- A fraction of a second, if one follows. -/
def fraction : List Char → Nat × List Char
  | '.' :: r =>
    let ds := r.takeWhile (Digits.isDigit 10)
    if ds.isEmpty then (0, '.' :: r) else (micros ds, r.dropWhile (Digits.isDigit 10))
  | s => (0, s)

/-- Hours, minutes, seconds and a fraction. -/
def clock? (s : List Char) : Option ((Nat × Nat × Nat × Nat) × List Char) := do
  let (hour, s) ← field? 0 23 s
  let s ← after? ':' s
  let (minute, s) ← field? 0 59 s
  let s ← after? ':' s
  let (second, s) ← field? 0 59 s
  let (micro, s) := fraction s
  some ((hour, minute, second, micro), s)

/-- A signed offset in hours and minutes. -/
def signedOffset? (s : List Char) : Option (Offset × List Char) :=
  match s with
  | c :: r => do
    let sign : Int ← if c = '+' then some 1 else if c = '-' then some (-1) else none
    let (hour, r) ← field? 0 23 r
    let r ← after? ':' r
    let (minute, r) ← field? 0 59 r
    let offset ← Offset.of? (sign * (((hour * 60 + minute) * 60000000 : Nat) : Int))
    some (offset, r)
  | [] => none

/-- An offset, or `Z` for universal time, if one follows. -/
def offset (s : List Char) : Option Offset × List Char :=
  match s with
  | 'Z' :: r => (some Offset.utc, r)
  | 'z' :: r => (some Offset.utc, r)
  | s =>
    match signedOffset? s with
    | some (o, r) => (some o, r)
    | none => (none, s)

end Nullary.Reading
